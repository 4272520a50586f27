import EphemeralAgent.Workflow.Serial

/-!
# What a submitter that is turned away has changed

A submission closes its entry and replaces the state before the last callbacks are called.  What
they throw reaches the submitter; the entry stays closed.

* `submission_atomic` — a submission that is turned away has changed nothing, unless an exception
  came after its validation; then it has
* `submission_torn` — the exception and the change
-/

namespace EphemeralAgent.Workflow

open EphemeralAgent.Lib

variable {X : Type} {c : WorkflowStartRequest X} {s t u : WorkflowRunInstance X}

/-- A rejected submission leaves state, snapshots and statuses alone, and one that throws does so
exactly when it is the validator that threw. -/
def Atomic : HistoryItem X → Prop
  | .answered _ (.reject _) before after => after = before
  | .answered _ (.error thrown) before after =>
    after = before ↔ thrown.site = .validateSubmission
  | _ => True

theorem atomic_of_not_bookkeeping (item : HistoryItem X) (h : (!item.bookkeeping) = true) :
    Atomic item := by
  cases item <;> trivial

theorem Applied.fault_site {entry : Nat} {settlement : WorkflowNodeSettlement}
    {state : WorkflowState X} {fault : Fault}
    (h : Applied c entry settlement state s (.error fault) t) :
    fault.site ≠ .validateSubmission := by
  cases h with
  | applyThrew => simp
  | evaluateThrew => simp
  | evaluated _ _ _ _ _ _ _ _ _ _ _ _ hu =>
    intro hsite
    have := hu.fault_site
    rw [hsite] at this
    cases this

/-- An entry that was running before and is closed now. -/
theorem observed_ne {entry : Nat} {status : NodeRunStatus} {before : Observed X}
    (hbefore : before.statuses[entry]? = some .running) (hclosed : Closed s entry status) :
    s.observed ≠ before := by
  intro heq
  have : s.observed.statuses[entry]? = some status := by
    simp only [WorkflowRunInstance.observed, List.getElem?_map]
    exact hclosed.1
  rw [heq, hbefore] at this
  exact hclosed.2 (Option.some.inj this).symm

/-- The answers so far, and what the submission under way has already changed. -/
structure Answers (s : WorkflowRunInstance X) : Prop where
  items : ∀ item ∈ s.history, Atomic item
  pending : ∀ entry outcome before frames,
    s.active = some (.flow (.submit entry outcome before) frames) →
    before.statuses[entry]? = some .running ∧ ∃ status, Closed s entry status

/-- Items that are atomic, the same operation of the queue, and nothing reopened. -/
theorem Answers.extend {p : HistoryItem X → Bool} (h : Answers s)
    (hp : ∀ item, p item = true → Atomic item) (hextends : Extends p s t)
    (hactive : ∀ task frames, t.active = some (.flow task frames) →
      ∃ frames, s.active = some (.flow task frames))
    (hclosed : ∀ entry status, Closed s entry status → Closed t entry status) : Answers t := by
  refine ⟨fun item hmem => ?_, fun entry outcome before frames ht => ?_⟩
  · obtain ⟨items, hitems, hall⟩ := hextends
    rw [hitems] at hmem
    rcases List.mem_append.mp hmem with hmem | hmem
    · exact h.items item hmem
    · exact hp item (hall item hmem)
  · obtain ⟨frames', hs⟩ := hactive _ _ ht
    obtain ⟨hbefore, status, hstatus⟩ := h.pending entry outcome before frames' hs
    exact ⟨hbefore, status, hclosed entry status hstatus⟩

/-- The code of a step: no answers, the operation of the queue stays. -/
theorem Answers.code (h : Answers s) (hextends : Extends (fun item => !item.bookkeeping) s t)
    (hkept : Kept s t) (hclosed : ∀ entry status, Closed s entry status → Closed t entry status) :
    Answers t :=
  h.extend atomic_of_not_bookkeeping hextends
    (fun _ frames ht => ⟨frames, hkept.active.symm.trans ht⟩) hclosed

/-- One more answer. -/
theorem Answers.answer {entry : Nat} {result : SubmissionResult} {before : Observed X}
    (h : Answers s) (hatomic : Atomic (.answered entry result before s.observed)) :
    Answers (answer entry result before s) := by
  refine ⟨fun item hmem => ?_, fun entry outcome before frames ht => ?_⟩
  · rcases List.mem_append.mp hmem with hmem | hmem
    · exact h.items item hmem
    · rw [List.mem_singleton.mp hmem]
      exact hatomic
  · exact h.pending entry outcome before frames ht

theorem Answers.fault (h : Answers s) (flow : FlowId) (fault : Fault) :
    Answers { s with history := s.history ++ [.fault flow fault] } := by
  refine ⟨fun item hmem => ?_, h.pending⟩
  rcases List.mem_append.mp hmem with hmem | hmem
  · exact h.items item hmem
  · rw [List.mem_singleton.mp hmem]
    trivial

/-- The queue is free. -/
theorem Answers.idle (h : Answers s) : Answers { s with active := none } :=
  ⟨h.items, fun _ _ _ _ ht => by cases ht⟩

theorem Answers.setFrames (h : Answers s) (flow : FlowId) (frames : List Frame) :
    Answers (setFrames flow frames s) := by
  cases flow with
  | start => cases frames <;> exact ⟨h.items, h.pending⟩
  | queue =>
    simp only [EphemeralAgent.Workflow.setFrames]
    split
    · next task _ _ =>
      cases task with
      | submit entry outcome before => exact h.idle.answer trivial
      | settle entry => exact h.idle
    · next task frames' hactive _ =>
      refine ⟨h.items, fun entry outcome before frames'' ht => ?_⟩
      simp only [Option.some.injEq, Active.flow.injEq] at ht
      obtain ⟨rfl, -⟩ := ht
      exact h.pending entry outcome before frames' hactive
    · exact h

theorem Answers.failFlow {flow : FlowId} {fault : Fault} (h : Answers s)
    (hsite : flow = .queue → fault.site ≠ .validateSubmission) : Answers (failFlow flow fault s) := by
  cases flow with
  | start =>
    exact Answers.fault (s := { s with startFlow := .failed fault }) ⟨h.items, h.pending⟩ .start fault
  | queue =>
    simp only [EphemeralAgent.Workflow.failFlow]
    split
    · next task frames hactive =>
      cases task with
      | submit entry outcome before =>
        obtain ⟨hbefore, status, hclosed⟩ := h.pending entry outcome before frames hactive
        refine (h.idle.fault .queue fault).answer ?_
        exact iff_of_false (observed_ne hbefore hclosed) (hsite rfl)
      | settle entry => exact h.idle.fault .queue fault
    · exact h

theorem Answers.proceed {flow : FlowId} {x : Except Fault (Option Frame) × WorkflowRunInstance X}
    (h : Answers x.2) (outer : List Frame)
    (hsite : ∀ fault, x.1 = .error fault → flow = .queue → fault.site ≠ .validateSubmission) :
    Answers (proceed flow outer x) := by
  obtain ⟨r, u⟩ := x
  cases r with
  | error fault => exact h.failFlow (hsite fault rfl)
  | ok frame => exact h.setFrames _ _

theorem Answers.settlement {index : Nat} {entry : WorkflowNodeRunEntry}
    {settlement : WorkflowNodeSettlement} {state : WorkflowState X}
    {r : Except Fault (Option Frame)} (hentry : s.nodes[index]? = some entry)
    (hu : Settlement c index entry settlement state s r t) (h : Answers s) :
    Answers t ∧ ∀ fault, r = .error fault → fault.site ≠ .validateSubmission := by
  have hkept := hu.kept hentry
  cases hu with
  | completed => exact ⟨h, fun fault hr => by cases hr⟩
  | stale =>
    refine ⟨h, fun fault hr => ?_⟩
    cases hr
    simp
  | validateThrew =>
    refine ⟨⟨h.items, h.pending⟩, fun fault hr => ?_⟩
    cases hr
    simp
  | refused =>
    refine ⟨⟨h.items, h.pending⟩, fun fault hr => ?_⟩
    cases hr
    simp
  | applied sh hsh _ _ _ hu =>
    have hin := shownIn_settlement hentry hsh
    obtain ⟨_, _, _, hclosed, -⟩ := hin.closed
    refine ⟨h.code (Extends.trans (.of_eq (by rw [hclosed])) hu.called.2.2) hkept
      (hu.closed hin).2, fun fault hr => ?_⟩
    subst hr
    exact hu.fault_site

theorem answers_submit {index : Nat} {entry : WorkflowNodeRunEntry} {payload : Json}
    {state : WorkflowState X} (hstate : s.state = some state)
    (hentry : s.nodes[index]? = some entry) (h : Answers s) :
    Answers (stepSubmit c index entry payload s) := by
  have hsubmit := submitNodeCompletion_cases (c := c) hstate index entry payload
  have hkept := hsubmit.kept hentry
  unfold stepSubmit
  cases hr : submitNodeCompletion c index entry payload s with
  | mk r u =>
    rw [hr] at hsubmit hkept
    simp only at hsubmit hkept ⊢
    -- An applied submission: its entry was running before and is closed now.
    have happlied : ∀ {sh r}, shownSubmission index entry payload s = some sh →
        Applied c sh.entry sh.settlement state sh.closed r u →
        Answers u ∧ s.observed.statuses[index]? = some .running ∧
          ∃ status, Closed u index status := by
      intro sh r hsh hu
      have hin := shownIn_submission hentry hsh
      have hindex : sh.entry = index := shownSubmission_entry hsh
      obtain ⟨_, _, _, hclosed, -⟩ := hin.closed
      refine ⟨h.code (Extends.trans (.of_eq (by rw [hclosed])) hu.called.2.2) hkept
        (hu.closed hin).2, ?_, _, hindex ▸ (hu.closed hin).1⟩
      simp only [WorkflowRunInstance.observed, List.getElem?_map]
      exact hindex ▸ hin.statusOf_entry
    cases hsubmit with
    | rejected reason => exact h.answer rfl
    | validateThrew sh _ message _ clock events =>
      refine Answers.answer (Answers.fault (s := { s with clock, events })
        ⟨h.items, h.pending⟩ .queue _) ?_
      exact iff_of_true rfl rfl
    | refused sh _ reason _ clock events =>
      exact Answers.answer (s := { s with clock, events }) ⟨h.items, h.pending⟩ rfl
    | applied sh hsh hverdict outcome frame _ hu =>
      obtain ⟨hanswers, hbefore, hclosed⟩ := happlied hsh hu
      have hstarted : Answers
          { u with active := some (.flow (.submit index outcome s.observed) []) } := by
        refine ⟨hanswers.items, fun entry' outcome' before frames ht => ?_⟩
        simp only [Option.some.injEq, Active.flow.injEq, QueueTask.submit.injEq] at ht
        obtain ⟨⟨rfl, rfl, rfl⟩, rfl⟩ := ht
        exact ⟨hbefore, hclosed⟩
      exact hstarted.setFrames _ _
    | threw sh hsh hverdict fault _ hu =>
      obtain ⟨hanswers, hbefore, status, hclosed⟩ := happlied hsh hu
      refine (hanswers.fault .queue fault).answer ?_
      exact iff_of_false (observed_ne hbefore hclosed) hu.fault_site

theorem answers_settle {index : Nat} {entry : WorkflowNodeRunEntry}
    {settlement : WorkflowNodeSettlement} {state : WorkflowState X}
    (hstate : s.state = some state) (hentry : s.nodes[index]? = some entry) (h : Answers s) :
    Answers (stepSettle c index entry settlement s) := by
  have hsettle := settleNodeRun_cases (c := c) hstate index entry settlement
  have hu := h.settlement hentry hsettle
  unfold stepSettle
  cases hr : settleNodeRun c index entry settlement s with
  | mk r u =>
    rw [hr] at hu
    cases r with
    | error fault => exact hu.1.fault .queue fault
    | ok frame =>
      have hstarted : Answers { u with active := some (.flow (.settle index) []) } :=
        ⟨hu.1.items, fun _ _ _ _ ht => by simp at ht⟩
      exact hstarted.setFrames _ _

/-- Control that answers nobody. -/
theorem Answers.quiet {faults : List Fault} (h : Answers s) (hc : Control faults s t)
    (hextends : Extends (fun item => item matches .nodeInterrupted _) s t)
    (hactive : ∀ task frames, t.active = some (.flow task frames) →
      s.active = some (.flow task frames)) : Answers t :=
  h.extend (fun item hitem => by cases item <;> trivial) hextends
    (fun task frames ht => ⟨frames, hactive task frames ht⟩)
    fun entry _ hs => ⟨(hc.statusOf entry).trans hs.1, hs.2⟩

theorem answers_interrupt (h : Answers s) (reason : String) (rest : List Operation) :
    Answers (stepInterrupt reason { s with queue := rest }) := by
  have hdequeued : Answers { s with queue := rest } := ⟨h.items, h.pending⟩
  refine hdequeued.quiet (control_interrupt reason) ?_ ?_
  · unfold stepInterrupt beginInterrupt
    simp only [Sync.bind_run, Sync.get_run, Sync.ite_run]
    cases s.finished with
    | true => exact .of_eq rfl
    | false => exact ⟨_, rfl, by simp⟩
  · unfold stepInterrupt beginInterrupt
    simp only [Sync.bind_run, Sync.get_run, Sync.ite_run]
    cases s.finished with
    | true => exact fun _ _ ht => ht
    | false => exact fun _ _ ht => by cases ht

theorem answers_nodeSettled {index : Nat} {entry : WorkflowNodeRunEntry} (h : Answers s)
    (settlement : NodeSettlement) : Answers (stepNodeSettled index entry settlement s) := by
  refine h.quiet (control_nodeSettled index entry settlement) (.of_eq ?_) ?_
  · unfold stepNodeSettled
    simp only
    split <;> [rfl; (split <;> rfl)]
  · unfold stepNodeSettled
    simp only
    split <;> [exact fun _ _ ht => ht; (split <;> exact fun _ _ ht => ht)]

/-- An interrupt closes running entries only, and a submission that waits has closed its own. -/
theorem answers_interruptsResolved {reason : String} {running : List Nat} (hwell : WellStarted s)
    (hthreads : Threads s) (h : Answers s)
    (hactive : s.active = some (.interrupting reason running)) :
    Answers (stepInterruptsResolved c reason running s) := by
  obtain ⟨state, hstate⟩ := hwell.state_of_active hactive
  have hinterrupt := completeInterrupt_cases (c := c) hstate reason running
  have hrunning := fun entry =>
    ((hthreads.interrupting reason running hactive).2.2 entry).mp
  unfold stepInterruptsResolved
  cases hr : completeInterrupt c reason running s with
  | mk r u =>
    rw [hr] at hinterrupt
    have hu : Answers u := by
      refine h.code hinterrupt.extends hinterrupt.kept fun entry status hs => ⟨?_, hs.2⟩
      rw [hinterrupt.statusOf, if_neg, hs.1]
      intro hmem
      exact hs.2 (Option.some.inj (hs.1.symm.trans (hrunning entry hmem)))
    cases r with
    | error fault => exact hu.idle.fault .queue fault
    | ok _ => exact hu.idle

theorem answers_step {l : Label} (hwell : WellStarted s) (hthreads : Threads s) (h : Answers s)
    (hstep : step c s l = some t) : Answers t := by
  cases fired_of_step hstep with
  | start hidle =>
    have hstart := startRun_cases (c := c) (s := s)
    have hu : Answers (startRun c s).2 := h.code hstart.extends hstart.kept fun entry status hs =>
      ⟨hstart.grown.statusOf hs.1, hs.2⟩
    rw [stepStart_eq]
    exact hu.proceed [] fun fault _ hflow => by cases hflow
  | launchResolved flow index remaining outer hframes =>
    have hc : Control [] s
        { s with nodes := s.nodes.modify index fun entry => { entry with handle := true } } :=
      control_flags index (fun entry => { entry with handle := true }) (fun _ => rfl) rfl
    exact (h.quiet hc (.of_eq rfl) fun _ _ ht => ht).setFrames _ _
  | launchRejected flow reason index entry remaining outer hframes hentry =>
    obtain ⟨state, hstate⟩ := hwell.state_of_entry hentry
    have hu := h.settlement hentry (settleNodeRun_cases (c := c) hstate index entry
      (failedLaunchSettlement entry reason))
    rw [stepLaunchRejected_eq]
    exact hu.1.proceed _ fun fault hfault _ => hu.2 fault hfault
  | resume flow remaining outer hframes =>
    cases remaining with
    | nil => exact h.setFrames _ _
    | cons next rest =>
      simp only [stepResume, claimAndLaunch_run]
      refine Answers.setFrames (h.code ?_ ?_ ?_) _ _
      · exact ⟨[.launched _], rfl, by simp [HistoryItem.bookkeeping]⟩
      · exact ⟨rfl, rfl, rfl⟩
      · exact fun entry status hs => ⟨(Grown.launch rfl rfl).statusOf hs.1, hs.2⟩
  | submit index payload hlt => exact ⟨h.items, h.pending⟩
  | nodeSettled index entry settlement hentry hhandle hopen => exact answers_nodeSettled h settlement
  | interrupt reason hreturned => exact ⟨h.items, h.pending⟩
  | takesSubmit index entry payload rest hactive hqueue hentry =>
    obtain ⟨state, hstate⟩ := hwell.state_of_entry hentry
    exact answers_submit (by exact hstate) (by exact hentry) ⟨h.items, h.pending⟩
  | takesSettle index entry settlement rest hactive hqueue hentry =>
    obtain ⟨state, hstate⟩ := hwell.state_of_entry hentry
    exact answers_settle (by exact hstate) (by exact hentry) ⟨h.items, h.pending⟩
  | takesInterrupt reason rest hactive hqueue => exact answers_interrupt h reason rest
  | interruptsResolved reason running hactive =>
    exact answers_interruptsResolved hwell hthreads h hactive
  | interruptsRejected message reason running hactive => exact h.idle.fault .queue _

/-- **A submission that is turned away has changed nothing, unless it was an exception that came
after its validation.** -/
theorem submission_atomic {ls : List Label} (run : Run (step c) Free initial ls s) :
    ∀ item ∈ s.history, Atomic item := by
  have h : Answers s :=
    run.invariant_of (J := fun s => WellStarted s ∧ Threads s)
      (fun r => ⟨wellStarted_of_run r, threads_of_run r⟩)
      ⟨fun _ hmem => (by cases hmem), fun _ _ _ _ ht => (by cases ht)⟩
      fun s l t _ hJ h hstep => answers_step hJ.1 hJ.2 h hstep
  exact h.items

/-- Where the promise of `submit` rejects with an error from `evaluateWorkflowProgress`. -/
def SubmissionResult.threwAt (site : Site) : SubmissionResult → Bool
  | .error thrown => thrown.site = site
  | _ => false

/-- The answer is that exception, after the node and the state have changed. -/
def isTorn : HistoryItem X → Bool
  | .answered 0 result before after =>
    result.threwAt .evaluateWorkflowProgress && before.statuses == [.running] &&
      after.statuses == [.completed] && before.state.map (·.version) == some 0 &&
      after.state.map (·.version) == some 1
  | _ => false

/-- The submitter gets the exception of `evaluateWorkflowProgress`; the node is completed and the
state is the next version all the same. -/
theorem submission_torn :
    ∃ s result before after, Run (step failing) Free initial failingSubmits s ∧
      .answered 0 result before after ∈ s.history ∧
      result.threwAt .evaluateWorkflowProgress = true ∧
      before.statuses = [.running] ∧ after.statuses = [.completed] ∧
      before.state.map (·.version) = some 0 ∧ after.state.map (·.version) = some 1 := by
  obtain ⟨s, hs, hp⟩ := exists_run (step failing) Free initial failingSubmits
    (fun s => s.history.any isTorn) (by decide)
  obtain ⟨item, hmem, hp⟩ := List.any_eq_true.mp hp
  unfold isTorn at hp
  split at hp
  · next result before after =>
    simp only [Bool.and_eq_true, beq_iff_eq] at hp
    obtain ⟨⟨⟨⟨h₁, h₂⟩, h₃⟩, h₄⟩, h₅⟩ := hp
    exact ⟨s, result, before, after, hs, hmem, h₁, h₂, h₃, h₄, h₅⟩
  · cases hp

/-- The submission of the first node is turned away. -/
def rejectsFirst : HistoryItem X → Bool
  | .answered 0 (.reject _) _ _ => true
  | _ => false

/-- A second submission of the first node of a pair is turned away and changes nothing. -/
theorem submission_atomic_pair :
    ∃ s result before after, Run (step (pair refuseDone)) Free initial
        (pairFinishes ++ [.submit 0 .null, .dequeue]) s ∧
      .answered 0 (.reject result) before after ∈ s.history ∧ after = before := by
  obtain ⟨s, hs, hp⟩ := exists_run (step (pair refuseDone)) Free initial
    (pairFinishes ++ [.submit 0 .null, .dequeue])
    (fun s => s.history.any rejectsFirst) (by decide)
  obtain ⟨item, hmem, hp⟩ := List.any_eq_true.mp hp
  unfold rejectsFirst at hp
  split at hp
  · next reason before after =>
    exact ⟨s, reason, before, after, hs, hmem, submission_atomic hs _ hmem⟩
  · cases hp

end EphemeralAgent.Workflow
