import EphemeralAgent.Workflow.Waiting

/-!
# Completion ports

A node calls its completion port, the queue runs the call, and the port answers.  The calls that
wait for an answer form a line: the one that the queue runs, and behind it those in the queue.

* `openSubmissions`, `answers` — the line, and what the ports have answered
* `ports_step` — a step appends to the line, or answers its first call, or leaves it
* `portStep_of_step` — what a step does to the line and the answers of one entry
* `granted_of_run` — a submission that has been accepted has closed its entry
* `warranted_of_run` — an entry is completed by nothing but an accepted submission
-/

namespace EphemeralAgent.Workflow

open EphemeralAgent.Lib

variable {X : Type} {c : WorkflowStartRequest X} {s t u : WorkflowRunInstance X}

/-! ## The line -/

/-- The entry whose submission the queue runs. -/
def WorkflowRunInstance.submitting (s : WorkflowRunInstance X) : Option Nat :=
  match s.active with
  | some (.flow (.submit entry _ _) _) => some entry
  | _ => none

/-- The entry that a queued submission is for. -/
def Operation.submits : Operation → Option Nat
  | .submit entry _ => some entry
  | _ => none

/-- The submissions that wait for an answer, by their entries. -/
def WorkflowRunInstance.openSubmissions (s : WorkflowRunInstance X) : List Nat :=
  s.submitting.toList ++ s.queue.filterMap Operation.submits

def HistoryItem.answer? : HistoryItem X → Option (Nat × SubmissionResult)
  | .answered entry result _ _ => some (entry, result)
  | _ => none

/-- What the ports have answered so far. -/
def WorkflowRunInstance.answers (s : WorkflowRunInstance X) : List (Nat × SubmissionResult) :=
  s.history.filterMap HistoryItem.answer?

theorem submitting_of_active (h : t.active = s.active) : t.submitting = s.submitting := by
  rw [WorkflowRunInstance.submitting, h, WorkflowRunInstance.submitting]

theorem submitting_of_idle (h : s.active = none) : s.submitting = none := by
  rw [WorkflowRunInstance.submitting, h]

/-- History items that answer nobody. -/
theorem answers_of_extends {p : HistoryItem X → Bool} (h : Extends p s t)
    (hp : ∀ item, p item = true → item.answer? = none) : t.answers = s.answers := by
  obtain ⟨items, hitems, hall⟩ := h
  have hnone : items.filterMap HistoryItem.answer? = [] := by
    rw [List.filterMap_eq_nil_iff]
    exact fun item hitem => hp item (hall item hitem)
  rw [WorkflowRunInstance.answers, hitems, List.filterMap_append, hnone, List.append_nil,
    WorkflowRunInstance.answers]

theorem not_bookkeeping_answer (item : HistoryItem X) (h : (!item.bookkeeping) = true) :
    item.answer? = none := by
  cases item <;> first | rfl | cases h

theorem answers_fault (flow : FlowId) (fault : Fault) :
    ({ s with history := s.history ++ [.fault flow fault] } : WorkflowRunInstance X).answers =
      s.answers :=
  answers_of_extends (p := fun item => item.answer?.isNone) (.single rfl rfl)
    fun _ => Option.isNone_iff_eq_none.mp

theorem answers_answer (entry : Nat) (result : SubmissionResult) (before : Observed X) :
    (answer entry result before s).answers = s.answers ++ [(entry, result)] := by
  simp [WorkflowRunInstance.answers, answer, HistoryItem.answer?]

/-! ## The code between two awaits, and control -/

/-- The line and the answers stay as they are. -/
structure Unanswered (s t : WorkflowRunInstance X) : Prop where
  submitting : t.submitting = s.submitting
  queue : t.queue = s.queue
  answers : t.answers = s.answers

theorem Unanswered.refl (s : WorkflowRunInstance X) : Unanswered s s :=
  ⟨rfl, rfl, rfl⟩

theorem Unanswered.code (hkept : Kept s t) (hextends : Extends (fun item => !item.bookkeeping) s t) :
    Unanswered s t :=
  ⟨submitting_of_active hkept.active, hkept.queue,
    answers_of_extends hextends not_bookkeeping_answer⟩

/-- A thread goes on: nobody is answered, or the submission that the queue runs, and not with a
rejection. -/
inductive Answering (s t : WorkflowRunInstance X) : Prop
  | quiet (h : Unanswered s t)
  | answered (entry : Nat) (result : SubmissionResult) (hresult : ∀ reason, result ≠ .reject reason)
      (hsubmitting : s.submitting = some entry) (hidle : t.submitting = none)
      (hqueue : t.queue = s.queue) (hanswers : t.answers = s.answers ++ [(entry, result)])

theorem Unanswered.answering (h : Unanswered s t) (hnext : Answering t u) : Answering s u := by
  cases hnext with
  | quiet hu =>
    exact .quiet ⟨hu.submitting.trans h.submitting, hu.queue.trans h.queue,
      hu.answers.trans h.answers⟩
  | answered entry result hresult hsubmitting hidle hqueue hanswers =>
    refine .answered entry result hresult (h.submitting ▸ hsubmitting) hidle
      (hqueue.trans h.queue) ?_
    rw [hanswers, h.answers]

theorem answering_endTask {task : QueueTask X} {frames : List Frame}
    (hactive : s.active = some (.flow task frames)) : Answering s (endTask task s) := by
  cases task with
  | submit entry outcome before =>
    refine .answered entry (.accept outcome) nofun ?_ rfl rfl (answers_answer entry _ before)
    rw [WorkflowRunInstance.submitting, hactive]
  | settle entry =>
    refine .quiet ⟨?_, rfl, rfl⟩
    rw [WorkflowRunInstance.submitting, WorkflowRunInstance.submitting, hactive]
    rfl

theorem answering_failTask {task : QueueTask X} {frames : List Frame}
    (hactive : s.active = some (.flow task frames)) (fault : Fault) :
    Answering s (failTask task fault s) := by
  cases task with
  | submit entry outcome before =>
    refine .answered entry (.error fault) nofun ?_ rfl rfl ?_
    · rw [WorkflowRunInstance.submitting, hactive]
    · rw [failTask, answers_answer]
      exact congrArg (· ++ _) (answers_fault .queue fault)
  | settle entry =>
    refine .quiet ⟨?_, rfl, answers_fault .queue fault⟩
    rw [WorkflowRunInstance.submitting, WorkflowRunInstance.submitting, hactive]
    rfl

theorem answering_setFrames (flow : FlowId) (frames : List Frame) :
    Answering s (setFrames flow frames s) := by
  cases flow with
  | start => cases frames <;> exact .quiet ⟨rfl, rfl, rfl⟩
  | queue =>
    unfold setFrames
    simp only
    split
    · next task old hactive => exact answering_endTask hactive
    · next task old hactive _ =>
      refine .quiet ⟨?_, rfl, rfl⟩
      rw [WorkflowRunInstance.submitting, WorkflowRunInstance.submitting, hactive]
      cases task <;> rfl
    · exact .quiet (.refl _)

theorem answering_failFlow (flow : FlowId) (fault : Fault) :
    Answering s (failFlow flow fault s) := by
  cases flow with
  | start => exact .quiet ⟨rfl, rfl, answers_fault .start fault⟩
  | queue =>
    unfold failFlow
    simp only
    split
    · next task old hactive => exact answering_failTask hactive fault
    · exact .quiet (.refl _)

/-! ## A submission -/

theorem Submission.extends {index : Nat} {entry : WorkflowNodeRunEntry} {payload : Json}
    {state : WorkflowState X} {r : Except Fault Submitted} (hentry : s.nodes[index]? = some entry)
    (h : Submission c index entry payload state s r t) :
    Extends (fun item => !item.bookkeeping) s t := by
  have happlied : ∀ {sh : Shown X} {r : Except Fault (Option Frame)},
      shownSubmission index entry payload s = some sh →
      Applied c sh.entry sh.settlement state sh.closed r t →
      Extends (fun item => !item.bookkeeping) s t := by
    intro sh r hsh hu
    obtain ⟨_, _, _, hclosed, -⟩ := (shownIn_submission hentry hsh).closed
    exact Extends.trans (.of_eq (by rw [hclosed])) hu.called.2.2
  cases h with
  | applied _ hsh _ _ _ _ hu => exact happlied hsh hu
  | threw _ hsh _ _ _ hu => exact happlied hsh hu
  | _ => exact .of_eq rfl

theorem Settlement.extends {index : Nat} {entry : WorkflowNodeRunEntry}
    {settlement : WorkflowNodeSettlement} {state : WorkflowState X}
    {r : Except Fault (Option Frame)} (hentry : s.nodes[index]? = some entry)
    (h : Settlement c index entry settlement state s r t) :
    Extends (fun item => !item.bookkeeping) s t := by
  cases h with
  | applied _ hsh _ _ _ hu =>
    obtain ⟨_, _, _, hclosed, -⟩ := (shownIn_settlement hentry hsh).closed
    exact Extends.trans (.of_eq (by rw [hclosed])) hu.called.2.2
  | _ => exact .of_eq rfl

/-- The rejection of a submission for an entry that is closed. -/
def finishedRejection : SubmissionResult :=
  .reject "node run is already finished"

/-- A submission for an entry that is closed is rejected at once. -/
theorem submitNodeCompletion_closed {index : Nat} {entry : WorkflowNodeRunEntry} (payload : Json)
    (h : entry.status ≠ .running) : submitNodeCompletion c index entry payload s =
      (.ok (.rejected "node run is already finished"), s) := by
  unfold submitNodeCompletion
  rw [if_pos h]
  rfl

theorem shownSubmission_completed {index : Nat} {entry : WorkflowNodeRunEntry} {payload : Json}
    {sh : Shown X} (h : shownSubmission index entry payload s = some sh) :
    sh.settlement.status = .completed ∧ entry.status = .running := by
  unfold shownSubmission at h
  split at h
  · next hrunning =>
    split at h
    · cases h
    · simp only [Option.some.injEq] at h
      subst h
      exact ⟨rfl, hrunning⟩
  · cases h

/-- How the first call of the line is dealt with when the queue takes it. -/
inductive Taken (index : Nat) (s t : WorkflowRunInstance X) : Prop
  | entered (hrunning : s.statusOf index = some .running)
      (hclosed : t.statusOf index = some .completed) (hsubmitting : t.submitting = some index)
      (hqueue : t.queue = s.queue) (hanswers : t.answers = s.answers)
  | answered (result : SubmissionResult) (hidle : t.submitting = none) (hqueue : t.queue = s.queue)
      (hanswers : t.answers = s.answers ++ [(index, result)])
      (haccept : ∀ outcome, result = .accept outcome → t.statusOf index = some .completed)
      (hreject : ∀ reason, result = .reject reason → t.statusOf index = s.statusOf index)
      (hfinished : s.statusOf index ≠ some .running → result = finishedRejection)

theorem taken_submit {state : WorkflowState X} {index : Nat} {entry : WorkflowNodeRunEntry}
    {payload : Json} (hstate : s.state = some state) (hidle : s.active = none)
    (hentry : s.nodes[index]? = some entry) :
    Taken index s (stepSubmit c index entry payload s) := by
  have hsubmission := submitNodeCompletion_cases (c := c) hstate index entry payload
  have hkept := hsubmission.kept hentry
  have hanswers := answers_of_extends (hsubmission.extends hentry) not_bookkeeping_answer
  have hstatus : s.statusOf index = some entry.status := by
    simp [WorkflowRunInstance.statusOf, hentry]
  by_cases hrunning : entry.status = .running
  · have hopen : ∀ result, s.statusOf index ≠ some .running → result = finishedRejection :=
      fun _ hne => absurd (hstatus.trans (congrArg some hrunning)) hne
    unfold stepSubmit
    cases hr : submitNodeCompletion c index entry payload s with
    | mk r u =>
      rw [hr] at hsubmission hkept hanswers
      simp only at hsubmission hkept hanswers ⊢
      have huidle : u.active = none := hkept.active.trans hidle
      -- an accepted payload closes its entry
      have hclosed : ∀ {sh : Shown X} {r : Except Fault (Option Frame)},
          shownSubmission index entry payload s = some sh →
          Applied c sh.entry sh.settlement state sh.closed r u →
          u.statusOf index = some .completed := by
        intro sh r hsh hu
        obtain ⟨hcompleted, -⟩ := shownSubmission_completed hsh
        have hin := (hu.closed (shownIn_submission hentry hsh)).1.1
        rwa [shownSubmission_entry hsh, hcompleted] at hin
      cases hsubmission with
      | rejected reason =>
        exact .answered (.reject reason) (submitting_of_idle hidle) rfl (answers_answer _ _ _)
          (by simp) (fun _ _ => rfl) (hopen _)
      | validateThrew _ _ message =>
        refine .answered (.error ⟨.validateSubmission, message⟩) (submitting_of_idle huidle) rfl ?_ (by simp) (by simp) (hopen _)
        rw [answers_answer]
        exact congrArg (· ++ _) ((answers_fault .queue _).trans hanswers)
      | refused _ _ reason =>
        refine .answered (.reject reason) (submitting_of_idle huidle) rfl ?_ (by simp)
          (fun _ _ => rfl) (hopen _)
        rw [answers_answer]
        exact congrArg (· ++ _) hanswers
      | applied sh hsh _ outcome frame _ hu =>
        cases frame with
        | none =>
          refine .answered (.accept outcome) rfl hkept.queue ?_ (fun _ _ => hclosed hsh hu) (by simp)
            (hopen _)
          show (answer index (.accept outcome) s.observed { u with active := none }).answers = _
          rw [answers_answer]
          exact congrArg (· ++ _) hanswers
        | some frame =>
          exact .entered (hstatus.trans (congrArg some hrunning)) (hclosed hsh hu) rfl hkept.queue
            hanswers
      | threw sh hsh _ fault _ hu =>
        refine .answered (.error fault) (submitting_of_idle huidle) hkept.queue ?_ (by simp) (by simp)
          (hopen _)
        rw [answers_answer]
        exact congrArg (· ++ _) ((answers_fault .queue _).trans hanswers)
  · unfold stepSubmit
    rw [submitNodeCompletion_closed payload hrunning]
    exact .answered finishedRejection (submitting_of_idle hidle) rfl (answers_answer _ _ _)
      (fun _ h => by cases h) (fun _ _ => rfl) fun _ => rfl

/-! ## The steps -/

/-- What a step does to the line and to the answers. -/
inductive Ported (s : WorkflowRunInstance X) : Label → WorkflowRunInstance X → Prop
  | quiet {l : Label} {t : WorkflowRunInstance X} (hsubmitting : t.submitting = s.submitting)
      (hqueue : t.queue.filterMap Operation.submits = s.queue.filterMap Operation.submits)
      (hanswers : t.answers = s.answers) (hl : ∀ entry payload, l ≠ .submit entry payload) :
      Ported s l t
  | called {t : WorkflowRunInstance X} (entry : Nat) (payload : Json)
      (hsubmitting : t.submitting = s.submitting)
      (hqueue : t.queue = s.queue ++ [.submit entry payload]) (hanswers : t.answers = s.answers) :
      Ported s (.submit entry payload) t
  | taken {t : WorkflowRunInstance X} (entry : Nat) (payload : Json) (rest : List Operation)
      (hidle : s.submitting = none) (hqueue : s.queue = .submit entry payload :: rest)
      (htaken : Taken entry { s with queue := rest } t) : Ported s .dequeue t
  | answered {l : Label} {t : WorkflowRunInstance X} (entry : Nat) (result : SubmissionResult)
      (hresult : ∀ reason, result ≠ .reject reason) (hsubmitting : s.submitting = some entry)
      (hidle : t.submitting = none) (hqueue : t.queue = s.queue)
      (hanswers : t.answers = s.answers ++ [(entry, result)])
      (hl : ∀ entry payload, l ≠ .submit entry payload) : Ported s l t

theorem Answering.ported {l : Label} (h : Answering s t)
    (hl : ∀ entry payload, l ≠ .submit entry payload) : Ported s l t := by
  cases h with
  | quiet h => exact .quiet h.submitting (by rw [h.queue]) h.answers hl
  | answered entry result hresult hsubmitting hidle hqueue hanswers =>
    exact .answered entry result hresult hsubmitting hidle hqueue hanswers hl

theorem answering_proceed {x : Except Fault (Option Frame) × WorkflowRunInstance X}
    (hkept : Kept s x.2) (hextends : Extends (fun item => !item.bookkeeping) s x.2) (flow : FlowId)
    (outer : List Frame) : Answering s (proceed flow outer x) := by
  refine Unanswered.answering (.code hkept hextends) ?_
  obtain ⟨r, u⟩ := x
  cases r with
  | error fault => exact answering_failFlow flow fault
  | ok frame => exact answering_setFrames flow _

/-- A settlement that the queue runs answers nobody. -/
theorem unanswered_settle {state : WorkflowState X} {index : Nat} {entry : WorkflowNodeRunEntry}
    {settlement : WorkflowNodeSettlement} (hstate : s.state = some state) (hidle : s.active = none)
    (hentry : s.nodes[index]? = some entry) :
    Unanswered s (stepSettle c index entry settlement s) := by
  have hsettlement := settleNodeRun_cases (c := c) hstate index entry settlement
  have hkept := hsettlement.kept hentry
  have hcode := Unanswered.code hkept (hsettlement.extends hentry)
  unfold stepSettle
  cases hr : settleNodeRun c index entry settlement s with
  | mk r u =>
    rw [hr] at hcode hkept
    simp only at hcode hkept ⊢
    have hsubmitting : s.submitting = none := submitting_of_idle hidle
    cases r with
    | error fault =>
      exact ⟨hcode.submitting, hcode.queue, (answers_fault .queue fault).trans hcode.answers⟩
    | ok frame =>
      cases frame with
      | none => exact ⟨hsubmitting.symm, hcode.queue, hcode.answers⟩
      | some frame => exact ⟨hsubmitting.symm, hcode.queue, hcode.answers⟩

/-- **A step appends to the line, answers its first call, or leaves it alone.** -/
theorem ports_step {l : Label} (hwell : WellStarted s) (hstep : step c s l = some t) :
    Ported s l t := by
  cases fired_of_step hstep with
  | start hidle =>
    have hu := startRun_cases (c := c) (s := s)
    rw [stepStart_eq]
    exact (answering_proceed hu.kept hu.extends .start []).ported (by simp)
  | launchResolved flow index remaining outer hframes =>
    have hcode : Unanswered s { s with
        nodes := s.nodes.modify index fun entry => { entry with handle := true } } :=
      ⟨rfl, rfl, rfl⟩
    have hs : Answering s (stepLaunchResolved flow index remaining outer s) :=
      hcode.answering (answering_setFrames flow _)
    exact hs.ported (by simp)
  | launchRejected flow reason index entry remaining outer hframes hentry =>
    obtain ⟨state, hstate⟩ := hwell.state_of_entry hentry
    have hu := settleNodeRun_cases (c := c) hstate index entry
      (failedLaunchSettlement entry reason)
    rw [stepLaunchRejected_eq]
    exact (answering_proceed (hu.kept hentry) (hu.extends hentry) flow _).ported (by simp)
  | resume flow remaining outer hframes =>
    unfold stepResume
    cases remaining with
    | nil => exact (answering_setFrames flow outer).ported (by simp)
    | cons next rest =>
      have hlaunched :
          (claimAndLaunch next s).2.history = s.history ++ [.launched s.nodes.length] := rfl
      have hclaimed : Unanswered s (claimAndLaunch next s).2 :=
        .code ⟨rfl, rfl, rfl⟩ (.single hlaunched rfl)
      have hnext := answering_setFrames flow
        ({ awaiting := some s.nodes.length, remaining := rest } :: outer)
        (s := (claimAndLaunch next s).2)
      have hs : Answering s (stepResume flow (next :: rest) outer s) :=
        hclaimed.answering hnext
      exact hs.ported (by simp)
  | submit index payload hlt => exact .called index payload rfl rfl rfl
  | nodeSettled index entry settlement hentry hhandle hopen =>
    unfold stepNodeSettled
    simp only
    split
    · exact .quiet rfl rfl rfl (by simp)
    · split
      · exact .quiet rfl rfl rfl (by simp)
      · exact .quiet rfl (by simp [Operation.submits]) rfl (by simp)
  | interrupt reason hreturned => exact .quiet rfl (by simp [Operation.submits]) rfl (by simp)
  | takesSubmit index entry payload rest hactive hqueue hentry =>
    obtain ⟨state, hstate⟩ := hwell.state_of_entry hentry
    exact .taken index payload rest (submitting_of_idle hactive) hqueue
      (taken_submit hstate hactive hentry)
  | takesSettle index entry settlement rest hactive hqueue hentry =>
    obtain ⟨state, hstate⟩ := hwell.state_of_entry hentry
    have h : Unanswered { s with queue := rest } (stepSettle c index entry settlement
        { s with queue := rest }) := unanswered_settle hstate hactive hentry
    refine .quiet h.submitting ?_ h.answers (by simp)
    rw [h.queue, hqueue]
    rfl
  | takesInterrupt reason rest hactive hqueue =>
    unfold stepInterrupt beginInterrupt
    simp only [Sync.bind_run, Sync.get_run, Sync.ite_run]
    cases s.finished with
    | true => exact .quiet rfl (by rw [hqueue]; rfl) rfl (by simp)
    | false =>
      -- the handles that are told to stop are no answers
      refine .quiet (submitting_of_idle hactive).symm (by rw [hqueue]; rfl) ?_ (by simp)
      refine answers_of_extends (s := s) (p := fun item => item.answer?.isNone) ⟨_, rfl, ?_⟩
        fun _ => Option.isNone_iff_eq_none.mp
      simp [HistoryItem.answer?]
  | interruptsResolved reason running hactive =>
    obtain ⟨state, hstate⟩ := hwell.state_of_active hactive
    have hu := completeInterrupt_cases (c := c) hstate reason running
    have hcode := Unanswered.code hu.kept hu.extends
    have hidle : s.submitting = none := by rw [WorkflowRunInstance.submitting, hactive]
    unfold stepInterruptsResolved
    cases hr : completeInterrupt c reason running s with
    | mk r u =>
      rw [hr] at hcode
      cases r with
      | error fault =>
        exact .quiet hidle.symm (by rw [← hcode.queue])
          ((answers_fault .queue fault).trans hcode.answers) (by simp)
      | ok _ => exact .quiet hidle.symm (by rw [← hcode.queue]) hcode.answers (by simp)
  | interruptsRejected message reason running hactive =>
    have hidle : s.submitting = none := by rw [WorkflowRunInstance.submitting, hactive]
    exact .quiet hidle.symm rfl (answers_fault .queue _) (by simp)

/-! ## How an entry is closed -/

/-- The step that closes an entry: it shows the end of the node, and the implementation accepts it,
or an interrupt is through. -/
inductive Closing (c : WorkflowStartRequest X) (s : WorkflowRunInstance X) (index : Nat)
    (status : NodeRunStatus) : Label → Prop
  | submitted (payload : Json) (rest : List Operation) (hactive : s.active = none)
      (hqueue : s.queue = .submit index payload :: rest) (hstatus : status = .completed) :
      Closing c s index status .dequeue
  | settled (settlement : WorkflowNodeSettlement) (rest : List Operation)
      (hqueue : s.queue = .settle index settlement :: rest) (hstatus : status = settlement.status)
      (hne : status ≠ .completed) : Closing c s index status .dequeue
  | rejected (flow : FlowId) (reason : String) (hawaits : Awaits s flow index)
      (hstatus : status = .failed) : Closing c s index status (.launchRejected flow reason)
  | interrupted (reason : String) (running : List Nat)
      (hactive : s.active = some (.interrupting reason running)) (hmem : index ∈ running)
      (hstatus : status = .cancelled) : Closing c s index status .interruptsResolved

theorem shownSettlement_settlement {index : Nat} {entry : WorkflowNodeRunEntry}
    {settlement : WorkflowNodeSettlement} {sh : Shown X}
    (h : shownSettlement index entry settlement s = some sh) :
    sh.settlement = settlement ∧ settlement.status ≠ .completed := by
  unfold shownSettlement at h
  split at h
  · cases h
  · next hnot =>
    simp only [Option.some.injEq] at h
    subst h
    exact ⟨rfl, fun hcompleted => hnot (.inl hcompleted)⟩

theorem closing_of_shown {l : Label} {sh : Shown X} (h : shown s l = some sh) :
    Closing c s sh.entry sh.settlement.status l := by
  unfold shown at h
  split at h
  · split at h
    · next index payload rest hactive hqueue =>
      obtain ⟨entry, -, hsh⟩ := Option.bind_eq_some_iff.mp h
      obtain rfl := shownSubmission_entry hsh
      exact .submitted payload rest hactive hqueue (shownSubmission_completed hsh).1
    · next index settlement rest hactive hqueue =>
      obtain ⟨entry, -, hsh⟩ := Option.bind_eq_some_iff.mp h
      obtain rfl := shownSettlement_entry hsh
      obtain ⟨hsame, hne⟩ := shownSettlement_settlement hsh
      exact .settled settlement rest hqueue (congrArg _ hsame) (hsame ▸ hne)
    · cases h
  · split at h
    · next flow reason _ index remaining outer hframes =>
      obtain ⟨entry, -, hsh⟩ := Option.bind_eq_some_iff.mp h
      obtain rfl := shownSettlement_entry hsh
      obtain ⟨hsame, -⟩ := shownSettlement_settlement hsh
      exact .rejected flow reason ⟨remaining, outer, hframes⟩ (congrArg _ hsame)
    · cases h
  · cases h

/-- **An entry is closed by the end of its node or by an interrupt.** -/
theorem closing_step {l : Label} {index : Nat} {status : NodeRunStatus} (h : Stepped c s l t)
    (hs : ¬ Closed s index status) (ht : Closed t index status) : Closing c s index status l := by
  cases h with
  | control _ _ hc => exact absurd ⟨(hc.statusOf index).symm.trans ht.1, ht.2⟩ hs
  | started _ _ u _ hu hc =>
    exact absurd (hu.grown.closed_of_closed ⟨(hc.statusOf index).symm.trans ht.1, ht.2⟩) hs
  | launched _ _ _ _ _ _ _ hc =>
    exact absurd ((Grown.launch rfl rfl).closed_of_closed
      ⟨(hc.statusOf index).symm.trans ht.1, ht.2⟩) hs
  | settled sh hshown _ _ _ _ u _ hu hc =>
    obtain ⟨queue, hin⟩ := shownIn_of_shown hshown
    have hclosed : Closed u index status := ⟨(hc.statusOf index).symm.trans ht.1, ht.2⟩
    by_cases heq : index = sh.entry
    · subst heq
      have hstatus := Option.some.inj (hclosed.1.symm.trans (hu.closed hin).1.1)
      subst hstatus
      exact closing_of_shown hshown
    · have hbefore := hu.grown.closed_of_closed hclosed
      rw [Closed, hin.statusOf, if_neg heq] at hbefore
      exact absurd hbefore hs
  | interrupted reason running hactive _ _ _ u _ hu hc =>
    have hclosed : Closed u index status := ⟨(hc.statusOf index).symm.trans ht.1, ht.2⟩
    rw [Closed, hu.statusOf] at hclosed
    split at hclosed
    · next hmem =>
      refine .interrupted reason running hactive hmem ?_
      obtain ⟨_, -, heq⟩ := Option.map_eq_some_iff.mp hclosed.1
      exact heq.symm
    · exact absurd hclosed hs

/-- Only the queue completes an entry, when it takes a submission. -/
theorem completed_before {l : Label} {index : Nat} (hwell : WellStarted s)
    (hstep : step c s l = some t)
    (hnot : ∀ payload rest, l = .dequeue → s.queue ≠ .submit index payload :: rest)
    (ht : t.statusOf index = some .completed) : s.statusOf index = some .completed := by
  by_contra hs
  cases closing_step (stepped_of_step hwell hstep) (fun hclosed => hs hclosed.1) ⟨ht, nofun⟩ with
  | submitted payload rest _ hqueue => exact hnot payload rest rfl hqueue
  | settled _ _ _ _ hne => exact hne rfl
  | rejected _ _ _ hstatus => cases hstatus
  | interrupted _ _ _ _ hstatus => cases hstatus

/-- A step that leaves the line alone does not take a submission. -/
theorem not_taken {l : Label} {index : Nat} (hwell : WellStarted s) (hstep : step c s l = some t)
    (hqueue : t.queue.filterMap Operation.submits = s.queue.filterMap Operation.submits) :
    ∀ payload rest, l = .dequeue → s.queue ≠ .submit index payload :: rest := by
  rintro payload rest rfl hhead
  cases surroundings_step hwell hstep with
  | kept hl => cases hl
  | taken operation _ htaken =>
    rw [htaken] at hhead
    cases hhead
    have hlength := congrArg List.length hqueue
    simp [htaken, Operation.submits] at hlength

/-! ## The port of one entry -/

/-- How many calls of the entry's port wait for an answer. -/
def WorkflowRunInstance.openFor (s : WorkflowRunInstance X) (index : Nat) : Nat :=
  s.openSubmissions.count index

/-- What the entry's port has answered so far. -/
def WorkflowRunInstance.answersFor (s : WorkflowRunInstance X) (index : Nat) :
    List SubmissionResult :=
  s.answers.filterMap fun answered => if answered.1 = index then some answered.2 else none

/-- The calls in the queue, and the one that the queue runs. -/
theorem openFor_eq (s : WorkflowRunInstance X) (index : Nat) :
    s.openFor index = (if s.submitting = some index then 1 else 0) +
      (s.queue.filterMap Operation.submits).count index := by
  unfold WorkflowRunInstance.openFor WorkflowRunInstance.openSubmissions
  rw [List.count_append]
  congr 1
  cases s.submitting with
  | none => rfl
  | some entry =>
    rw [Option.toList_some, List.count_singleton]
    simp

theorem answersFor_of_eq {index : Nat} (h : t.answers = s.answers) :
    t.answersFor index = s.answersFor index := by
  rw [WorkflowRunInstance.answersFor, h, WorkflowRunInstance.answersFor]

theorem answersFor_append {entry index : Nat} {result : SubmissionResult}
    (h : t.answers = s.answers ++ [(entry, result)]) :
    t.answersFor index = s.answersFor index ++ if entry = index then [result] else [] := by
  rw [WorkflowRunInstance.answersFor, h, List.filterMap_append, WorkflowRunInstance.answersFor]
  split
  · next heq => simp [heq]
  · next hne => simp [hne]

/-- What a step does to the calls of one entry. -/
inductive PortStep (index : Nat) (s : WorkflowRunInstance X) :
    Label → WorkflowRunInstance X → Prop
  | quiet {l : Label} {t : WorkflowRunInstance X}
      (hsubmitting : t.submitting = some index ↔ s.submitting = some index)
      (hopen : t.openFor index = s.openFor index)
      (hanswers : t.answersFor index = s.answersFor index)
      (hcompleted : t.statusOf index = some .completed → s.statusOf index = some .completed)
      (hl : ∀ payload, l ≠ .submit index payload) : PortStep index s l t
  | called {t : WorkflowRunInstance X} (payload : Json)
      (hsubmitting : t.submitting = some index ↔ s.submitting = some index)
      (hopen : t.openFor index = s.openFor index + 1)
      (hanswers : t.answersFor index = s.answersFor index) :
      PortStep index s (.submit index payload) t
  | entered {t : WorkflowRunInstance X} (hbefore : s.submitting ≠ some index)
      (hrunning : s.statusOf index = some .running)
      (hclosed : t.statusOf index = some .completed) (hsubmitting : t.submitting = some index)
      (hopen : t.openFor index = s.openFor index)
      (hanswers : t.answersFor index = s.answersFor index) : PortStep index s .dequeue t
  /-- The submission that the queue runs has gone through, or has thrown. -/
  | finished {l : Label} {t : WorkflowRunInstance X} (result : SubmissionResult)
      (hresult : ∀ reason, result ≠ .reject reason) (hbefore : s.submitting = some index)
      (hidle : t.submitting ≠ some index) (hopen : s.openFor index = t.openFor index + 1)
      (hanswers : t.answersFor index = s.answersFor index ++ [result])
      (hl : ∀ payload, l ≠ .submit index payload) : PortStep index s l t
  /-- The queue answers the submission when it takes it. -/
  | answered {t : WorkflowRunInstance X} (result : SubmissionResult)
      (hbefore : s.submitting ≠ some index) (hidle : t.submitting ≠ some index)
      (hopen : s.openFor index = t.openFor index + 1)
      (hanswers : t.answersFor index = s.answersFor index ++ [result])
      (haccept : ∀ outcome, result = .accept outcome → t.statusOf index = some .completed)
      (hreject : ∀ reason, result = .reject reason → t.statusOf index = s.statusOf index)
      (hfinished : s.statusOf index ≠ some .running → result = finishedRejection) :
      PortStep index s .dequeue t

theorem portStep_of_step (index : Nat) {l : Label} (hwell : WellStarted s)
    (hstep : step c s l = some t) : PortStep index s l t := by
  cases ports_step hwell hstep with
  | quiet hsubmitting hqueue hanswers hl =>
    refine .quiet (by rw [hsubmitting]) ?_ (answersFor_of_eq hanswers)
      (completed_before hwell hstep (not_taken hwell hstep hqueue)) fun payload => hl index payload
    rw [openFor_eq, openFor_eq, hsubmitting, hqueue]
  | called entry payload hsubmitting hqueue hanswers =>
    have hopen : t.openFor index = s.openFor index + if entry = index then 1 else 0 := by
      rw [openFor_eq, openFor_eq, hsubmitting, hqueue, List.filterMap_append, List.count_append]
      simp [Operation.submits, List.count_singleton]
      omega
    by_cases heq : entry = index
    · subst heq
      exact .called payload (by rw [hsubmitting]) (by simpa using hopen) (answersFor_of_eq hanswers)
    · refine .quiet (by rw [hsubmitting]) (by simpa [heq] using hopen) (answersFor_of_eq hanswers)
        (completed_before hwell hstep nofun) ?_
      intro payload' hl
      injection hl with hentry
      exact heq hentry
  | taken entry payload rest hidle hqueue htaken =>
    have hbefore : s.submitting ≠ some index := by simp [hidle]
    -- the call at the head of the queue is not one of this node
    have hcompleted : entry ≠ index →
        t.statusOf index = some .completed → s.statusOf index = some .completed := by
      intro hne
      refine completed_before hwell hstep fun payload' rest' _ hhead => ?_
      rw [hqueue] at hhead
      injection hhead with hhead
      injection hhead with hentry
      exact hne hentry
    have hopen : s.openFor index =
        (rest.filterMap Operation.submits).count index + if entry = index then 1 else 0 := by
      rw [openFor_eq, hidle, hqueue]
      simp [Operation.submits, List.count_cons]
    cases htaken with
    -- the call is in the applied phase now: it is open as before
    | entered hrunning hclosed hsubmitting htqueue hanswers =>
      have htopen : t.openFor index =
          (if entry = index then 1 else 0) + (rest.filterMap Operation.submits).count index := by
        rw [openFor_eq, hsubmitting, htqueue]
        simp
      by_cases heq : entry = index
      · subst heq
        exact .entered hbefore hrunning hclosed hsubmitting (by rw [htopen, hopen]; omega)
          (answersFor_of_eq hanswers)
      · refine .quiet ?_ (by rw [htopen, hopen]; omega) (answersFor_of_eq hanswers)
          (hcompleted heq) nofun
        rw [hsubmitting, hidle]
        simp [heq]
    -- the call is answered in the block that takes it from the queue
    | answered result htidle htqueue hanswers haccept hreject hfinished =>
      have htopen : t.openFor index = (rest.filterMap Operation.submits).count index := by
        rw [openFor_eq, htidle, htqueue]
        simp
      have hall : t.answersFor index =
          s.answersFor index ++ if entry = index then [result] else [] := answersFor_append hanswers
      by_cases heq : entry = index
      · subst heq
        rw [if_pos rfl] at hopen hall
        exact .answered result hbefore (by simp [htidle]) (by rw [htopen, hopen]) hall haccept
          hreject hfinished
      · rw [if_neg heq] at hopen hall
        refine .quiet ?_ (by rw [htopen, hopen]; omega) (hall.trans (List.append_nil _))
          (hcompleted heq) nofun
        rw [htidle, hidle]
  | answered entry result hresult hsubmitting hidle hqueue hanswers hl =>
    have hopen : s.openFor index = t.openFor index + if entry = index then 1 else 0 := by
      rw [openFor_eq, openFor_eq, hsubmitting, hidle, hqueue]
      simp
      omega
    have hall : t.answersFor index =
        s.answersFor index ++ if entry = index then [result] else [] := answersFor_append hanswers
    by_cases heq : entry = index
    · subst heq
      rw [if_pos rfl] at hopen hall
      exact .finished result hresult hsubmitting (by simp [hidle]) hopen hall
        fun payload => hl entry payload
    · rw [if_neg heq] at hopen hall
      refine .quiet ?_ (by rw [hopen]; omega) (hall.trans (List.append_nil _))
        (completed_before hwell hstep (not_taken hwell hstep (by rw [hqueue])))
        fun payload => hl index payload
      rw [hidle, hsubmitting]
      simp [heq]

/-! ## What the answers say of the entry -/

/-- The submission that the queue runs has closed its entry, and so has every one that has been
accepted. -/
structure Granted (s : WorkflowRunInstance X) (index : Nat) : Prop where
  submitting : s.submitting = some index → s.statusOf index = some .completed
  accepted : ∀ outcome, .accept outcome ∈ s.answersFor index → s.statusOf index = some .completed

theorem granted_of_run {ok : WorkflowRunInstance X → Label → Prop} {ls : List Label} (index : Nat)
    (run : Run (step c) ok initial ls s) : Granted s index := by
  refine run.invariant_of (J := fun s => WellStarted s ∧ Threads s) (I := fun s => Granted s index)
    (fun run => ⟨wellStarted_of_run run, threads_of_run run⟩) ⟨nofun, nofun⟩ ?_
  rintro s l t - ⟨hwell, hthreads⟩ h hstep
  have hkept : s.statusOf index = some .completed → t.statusOf index = some .completed := fun hs =>
    (closed_step hthreads (stepped_of_step hwell hstep) ⟨hs, nofun⟩).1
  cases portStep_of_step index hwell hstep with
  | quiet hsubmitting _ hanswers =>
    exact ⟨fun ht => hkept (h.submitting (hsubmitting.mp ht)),
      fun outcome hmem => hkept (h.accepted outcome (hanswers ▸ hmem))⟩
  | called payload hsubmitting _ hanswers =>
    exact ⟨fun ht => hkept (h.submitting (hsubmitting.mp ht)),
      fun outcome hmem => hkept (h.accepted outcome (hanswers ▸ hmem))⟩
  | entered _ _ hclosed => exact ⟨fun _ => hclosed, fun _ _ => hclosed⟩
  | finished result _ hbefore hidle =>
    exact ⟨fun ht => absurd ht hidle, fun _ _ => hkept (h.submitting hbefore)⟩
  | answered result _ hidle _ hanswers haccept =>
    refine ⟨fun ht => absurd ht hidle, fun outcome hmem => ?_⟩
    rw [hanswers, List.mem_append, List.mem_singleton] at hmem
    rcases hmem with hmem | heq
    · exact hkept (h.accepted outcome hmem)
    · exact haccept outcome heq.symm

/-- The step answers no submission of the entry with an exception after it has closed the entry. -/
def KeepsWord (c : WorkflowStartRequest X) (index : Nat) (s : WorkflowRunInstance X) (l : Label) :
    Prop :=
  ∀ t fault, step c s l = some t → t.answersFor index = s.answersFor index ++ [.error fault] →
    t.statusOf index ≠ some .completed

/-- A completed entry has an accepted submission, or the queue still runs it. -/
def Warranted (s : WorkflowRunInstance X) (index : Nat) : Prop :=
  s.statusOf index = some .completed →
    s.submitting = some index ∨ ∃ outcome, .accept outcome ∈ s.answersFor index

theorem warranted_of_run {ok : WorkflowRunInstance X → Label → Prop} {ls : List Label}
    {index : Nat} (hok : ∀ s l, ok s l → KeepsWord c index s l)
    (run : Run (step c) ok initial ls s) : Warranted s index := by
  refine run.invariant_of (J := fun s => WellStarted s ∧ Granted s index)
    (I := fun s => Warranted s index)
    (fun run => ⟨wellStarted_of_run run, granted_of_run index run⟩) nofun ?_
  rintro s l t hl ⟨hwell, hgranted⟩ h hstep ht
  cases portStep_of_step index hwell hstep with
  | quiet hsubmitting _ hanswers hcompleted =>
    rw [hsubmitting, hanswers]
    exact h (hcompleted ht)
  | called payload hsubmitting _ hanswers =>
    rw [hsubmitting, hanswers]
    exact h (completed_before hwell hstep nofun ht)
  | entered _ _ _ hsubmitting => exact .inl hsubmitting
  | finished result hresult _ _ _ hanswers =>
    cases result with
    | accept outcome => exact .inr ⟨outcome, by simp [hanswers]⟩
    | reject reason => exact absurd rfl (hresult reason)
    | error fault => exact absurd ht (hok _ _ hl t fault hstep hanswers)
  | answered result hbefore _ _ hanswers _ hreject hfinished =>
    cases result with
    | accept outcome => exact .inr ⟨outcome, by simp [hanswers]⟩
    | reject reason =>
      rcases h ((hreject reason rfl).symm.trans ht) with hsubmitting | ⟨outcome, hmem⟩
      · exact absurd hsubmitting hbefore
      · exact .inr ⟨outcome, by simp [hanswers, hmem]⟩
    | error fault => exact absurd ht (hok _ _ hl t fault hstep hanswers)

end EphemeralAgent.Workflow
