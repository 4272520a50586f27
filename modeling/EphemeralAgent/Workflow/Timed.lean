import EphemeralAgent.Workflow.Stepped

/-!
# Time

Every call that the history records has a stamp in the past, and no step moves the clock back.
What is minted under a new stamp is therefore new.

* `Stamped` — the stamps of the history are in the past
* `later_step` — a step keeps them there
* `shown_clock`, `evaluating_clock` — a settlement is evaluated later than everything before it
-/

namespace EphemeralAgent.Workflow

open EphemeralAgent.Lib

variable {X : Type} {c : WorkflowStartRequest X} {s t u : WorkflowRunInstance X}

/-- The stamp of a recorded call. -/
def HistoryItem.stamp? : HistoryItem X → Option Stamp
  | .applyCalled _ _ stamp _ | .evaluateCalled stamp _ => some stamp
  | _ => none

/-- Every recorded call is in the past. -/
def Stamped (s : WorkflowRunInstance X) : Prop :=
  ∀ item ∈ s.history, ∀ stamp, item.stamp? = some stamp → stamp < s.clock

/-- The clock does not go back, and recorded calls stay in the past. -/
def Later (s t : WorkflowRunInstance X) : Prop :=
  s.clock ≤ t.clock ∧ (Stamped s → Stamped t)

theorem Later.refl (s : WorkflowRunInstance X) : Later s s :=
  ⟨Nat.le_refl _, id⟩

theorem Later.trans (h₁ : Later s t) (h₂ : Later t u) : Later s u :=
  ⟨Nat.le_trans h₁.1 h₂.1, h₂.2 ∘ h₁.2⟩

/-- Items without a stamp change nothing. -/
theorem later_append {items : List (HistoryItem X)} (hclock : s.clock ≤ t.clock)
    (hhistory : t.history = s.history ++ items) (hitems : ∀ item ∈ items, item.stamp? = none) :
    Later s t := by
  refine ⟨hclock, fun hs item hitem stamp hstamp => ?_⟩
  rw [hhistory] at hitem
  rcases List.mem_append.mp hitem with hitem | hitem
  · exact Nat.lt_of_lt_of_le (hs item hitem stamp hstamp) hclock
  · rw [hitems item hitem] at hstamp
    cases hstamp

theorem later_of_history (hclock : s.clock ≤ t.clock) (hhistory : t.history = s.history) :
    Later s t :=
  later_append hclock (by rw [hhistory, List.append_nil]) (by simp)

/-! ## The methods -/

section Methods

open Sync

theorem within_later_bind {α β : Type} {m : RunM X α} {f : α → RunM X β}
    (hm : Within Later m) (hf : ∀ a, Within Later (f a)) : Within Later (m >>= f) :=
  within_bind (R := Later) (fun h₁ h₂ => h₁.trans h₂) hm hf

theorem within_later_ite {α : Type} {p : Prop} [Decidable p] {m n : RunM X α}
    (hm : Within Later m) (hn : Within Later n) : Within Later (if p then m else n) := by
  split
  · exact hm
  · exact hn

theorem within_later_pure {α : Type} (a : α) : Within Later (pure a : RunM X α) :=
  within_pure Later.refl a

theorem within_later_get : Within Later (Sync.get : RunM X _) :=
  within_get Later.refl

theorem within_later_lift {α : Type} (r : Except Fault α) : Within Later (Sync.lift r : RunM X α) :=
  within_lift Later.refl r

theorem within_later_now : Within Later (now : RunM X Stamp) :=
  fun s => later_of_history (Nat.le_succ s.clock) rfl

theorem within_later_note {item : HistoryItem X} (h : item.stamp? = none) :
    Within Later (note item) :=
  fun _ => later_append (Nat.le_refl _) rfl (by simpa using h)

theorem within_later_noteCall {item : Stamp → HistoryItem X}
    (h : ∀ stamp, (item stamp).stamp? = some stamp) : Within Later (noteCall item) := by
  intro s
  refine ⟨Nat.le_succ _, fun hs other hother stamp hstamp => ?_⟩
  rcases List.mem_append.mp hother with hother | hother
  · exact Nat.lt_succ_of_lt (hs other hother stamp hstamp)
  · -- the new item has the stamp that the clock has just passed
    obtain rfl := List.mem_singleton.mp hother
    rw [h] at hstamp
    obtain rfl := Option.some.inj hstamp
    exact Nat.lt_succ_self _

theorem within_later_callback {α : Type} (site : Site) (call : Stamp → Except String α) :
    Within Later (callback site call : RunM X α) :=
  fun s => later_of_history (Nat.le_succ s.clock) rfl

theorem within_later_requireState : Within Later (requireState : RunM X (WorkflowState X)) := by
  intro s
  unfold requireState
  simp only [Sync.bind_run, Sync.get_run]
  cases s.state <;> exact .refl s

theorem within_later_emit (body : WorkflowRunEventBody) :
    Within Later (emit body : RunM X Unit) :=
  fun s => later_of_history (Nat.le_succ s.clock) rfl

theorem within_later_modify {f : WorkflowRunInstance X → WorkflowRunInstance X}
    (hclock : ∀ s, (f s).clock = s.clock) (hhistory : ∀ s, (f s).history = s.history) :
    Within Later (Sync.modify f : RunM X Unit) :=
  fun s => later_of_history (Nat.le_of_eq (hclock s).symm) (hhistory s)

theorem within_later_recordSnapshot : Within Later (recordSnapshot c) := by
  refine within_later_bind within_later_requireState fun state => ?_
  refine within_later_bind within_later_now fun recordedAt => ?_
  refine within_later_bind (within_later_lift _) fun json => ?_
  refine within_later_bind (within_later_modify (fun _ => rfl) fun _ => rfl) fun _ => ?_
  exact within_later_emit _

theorem within_later_finish (outcome : WorkflowOutcome) :
    Within Later (finish (X := X) outcome) := by
  refine within_later_bind within_later_get fun s => within_later_ite (within_later_pure _) ?_
  refine within_later_bind (within_later_modify (fun _ => rfl) fun _ => rfl) fun _ => ?_
  exact within_later_bind (within_later_emit _) fun _ => within_later_note rfl

theorem within_later_finishIfDone : Within Later (finishIfDone c) := by
  refine within_later_bind within_later_requireState fun state => ?_
  refine within_later_ite (within_later_pure _) ?_
  refine within_later_bind (within_later_callback _ _) fun outcome => ?_
  exact within_later_bind (within_later_finish _) fun _ => within_later_pure _

theorem within_later_applyTransition (result : StateTransitionResult X) :
    Within Later (applyTransition result) := by
  refine within_later_bind (within_later_modify (fun _ => rfl) fun _ => rfl) fun _ => ?_
  cases result.transition with
  | none => exact within_later_pure _
  | some transition => exact within_later_emit _

theorem within_later_deadlockIfIdle : Within Later (deadlockIfIdle c) := by
  refine within_later_bind within_later_requireState fun state => ?_
  refine within_later_bind within_later_get fun s => within_later_ite (within_later_pure _) ?_
  refine within_later_ite (within_later_pure _) ?_
  refine within_later_bind (within_later_callback _ _) fun report => ?_
  cases report with
  | none => exact within_later_pure _
  | some report =>
    refine within_later_bind (within_later_modify (fun _ => rfl) fun _ => rfl) fun _ => ?_
    refine within_later_bind (within_later_note rfl) fun _ => ?_
    refine within_later_bind (within_later_emit _) fun _ => ?_
    refine within_later_bind (within_later_emit _) fun _ => ?_
    exact within_later_bind within_later_recordSnapshot fun _ => within_later_finish _

theorem within_later_claimAndLaunch (next : WorkflowNodeDispatch) :
    Within Later (claimAndLaunch (X := X) next) := by
  refine within_later_bind within_later_now fun startedAt => ?_
  refine within_later_bind within_later_get fun s => ?_
  refine within_later_bind (within_later_modify (fun _ => rfl) fun _ => rfl) fun _ => ?_
  exact within_later_bind (within_later_note rfl) fun _ => within_later_pure _

theorem within_later_dispatch : Within Later (dispatch c) := by
  refine within_later_bind within_later_requireState fun state => ?_
  refine within_later_ite (within_later_pure _) ?_
  refine within_later_bind within_later_get fun s => ?_
  refine within_later_bind (within_later_callback _ _) fun dispatches => ?_
  refine within_later_bind (within_later_modify (fun _ => rfl) fun _ => rfl) fun _ => ?_
  cases dispatches with
  | nil => exact within_later_bind within_later_deadlockIfIdle fun _ => within_later_pure _
  | cons first rest =>
    refine within_later_bind (within_later_emit _) fun _ => ?_
    exact within_later_bind (within_later_claimAndLaunch _) fun _ => within_later_pure _

/-- The end of `start()` and of every settlement. -/
theorem within_later_conclude : Within Later (do
    recordSnapshot c
    let done ← finishIfDone c
    if done then return none
    dispatch c : RunM X (Option Frame)) := by
  refine within_later_bind within_later_recordSnapshot fun _ => ?_
  refine within_later_bind within_later_finishIfDone fun done => ?_
  exact within_later_ite (within_later_pure _) within_later_dispatch

theorem within_later_applyValidatedSettlement (entry : Nat) (settlement : WorkflowNodeSettlement) :
    Within Later (applyValidatedSettlement c entry settlement) := by
  refine within_later_bind within_later_requireState fun state => ?_
  refine within_later_bind within_later_get fun s => ?_
  refine within_later_bind (within_later_noteCall fun _ => rfl) fun stamp => ?_
  refine within_later_bind (within_later_lift _) fun applied => ?_
  refine within_later_bind (within_later_applyTransition _) fun _ => ?_
  refine within_later_bind within_later_requireState fun state => ?_
  refine within_later_bind within_later_get fun s => ?_
  refine within_later_bind (within_later_noteCall fun _ => rfl) fun stamp => ?_
  refine within_later_bind (within_later_lift _) fun evaluated => ?_
  exact within_later_bind (within_later_applyTransition _) fun _ => within_later_conclude

theorem within_later_updateEntry (entry : Nat)
    (f : WorkflowNodeRunEntry → WorkflowNodeRunEntry) :
    Within Later (updateEntry entry f : RunM X Unit) :=
  within_later_modify (fun _ => rfl) fun _ => rfl

theorem within_later_submitNodeCompletion (index : Nat) (entry : WorkflowNodeRunEntry)
    (payload : Json) : Within Later (submitNodeCompletion c index entry payload) := by
  unfold submitNodeCompletion
  refine within_later_ite (within_later_pure _) ?_
  cases entry.start.outcome.safeParse payload with
  | error issues => exact within_later_pure _
  | ok parsed =>
    refine within_later_bind (within_later_emit _) fun _ => ?_
    refine within_later_bind within_later_requireState fun state => ?_
    refine within_later_bind within_later_get fun s => ?_
    refine within_later_bind (within_later_callback _ _) fun validation => ?_
    cases validation with
    | refused reason => exact within_later_pure _
    | ok =>
      refine within_later_bind within_later_now fun completedAt => ?_
      refine within_later_bind (within_later_updateEntry _ _) fun _ => ?_
      exact within_later_bind (within_later_applyValidatedSettlement _ _) fun _ =>
        within_later_pure _

theorem within_later_settleNodeRun (index : Nat) (entry : WorkflowNodeRunEntry)
    (settlement : WorkflowNodeSettlement) :
    Within Later (settleNodeRun c index entry settlement) := by
  unfold settleNodeRun
  refine within_later_ite (within_later_pure _) ?_
  -- the code after the guard on `status` stands in both branches
  refine within_later_ite (within_later_bind (within_throw Later.refl _) fun _ => ?_) ?_
  all_goals
    refine within_later_bind within_later_requireState fun state => ?_
    refine within_later_bind within_later_get fun s => ?_
    refine within_later_bind (within_later_callback _ _) fun validation => ?_
    cases validation with
    | refused reason => exact within_throw Later.refl _
    | ok =>
      refine within_later_bind within_later_now fun completedAt => ?_
      refine within_later_bind (within_later_updateEntry _ _) fun _ => ?_
      exact within_later_applyValidatedSettlement _ _

theorem within_later_completeInterrupt (reason : String) (running : List Nat) :
    Within Later (completeInterrupt c reason running) := by
  refine within_later_bind within_later_now fun completedAt => ?_
  refine within_later_bind (within_later_modify (fun _ => rfl) fun _ => rfl) fun _ => ?_
  refine within_later_bind within_later_requireState fun state => ?_
  refine within_later_bind (within_later_modify (fun _ => rfl) fun _ => rfl) fun _ => ?_
  refine within_later_bind (within_later_note rfl) fun _ => ?_
  refine within_later_bind (within_later_emit _) fun _ => ?_
  exact within_later_bind within_later_recordSnapshot fun _ => within_later_finish _

/-- `start()` once the state is created. -/
theorem within_later_created (state : WorkflowState X) : Within Later (do
    setState state
    note (.created state)
    emit (.workflowStarted c.definition.metadata)
    recordSnapshot c
    let done ← finishIfDone c
    if done then return none
    dispatch c : RunM X (Option Frame)) := by
  refine within_later_bind (within_later_modify (fun _ => rfl) fun _ => rfl) fun _ => ?_
  refine within_later_bind (within_later_note rfl) fun _ => ?_
  exact within_later_bind (within_later_emit _) fun _ => within_later_conclude

theorem within_later_startRun : Within Later (startRun c) :=
  within_later_bind (within_later_callback _ _) within_later_created

/-- `start()` takes a stamp before anything else. -/
theorem startRun_clock (s : WorkflowRunInstance X) : s.clock < (startRun c s).2.clock := by
  unfold startRun
  simp only [Sync.bind_run, callback_run]
  cases c.implementation.createInitialState s.clock c.definition c.args with
  | error message => exact Nat.lt_succ_self _
  | ok state => exact (within_later_created state { s with clock := s.clock + 1 }).1

end Methods

/-! ## The steps -/

theorem Control.later {faults : List Fault} (h : Control faults s t) (hclock : s.clock ≤ t.clock) :
    Later s t := by
  obtain ⟨items, hitems, -, hbook⟩ := h.history
  refine later_append hclock hitems fun item hitem => ?_
  have hitem := hbook item hitem
  cases item <;> first | rfl | cases hitem

theorem later_setFrames (flow : FlowId) (frames : List Frame) :
    Later s (setFrames flow frames s) := by
  refine (control_setFrames flow frames).later (Nat.le_of_eq ?_)
  cases flow with
  | start => cases frames <;> rfl
  | queue =>
    unfold setFrames
    simp only
    split
    · next task _ _ => cases task <;> rfl
    · rfl
    · rfl

/-- The thread goes on from a state that differs from `s` beside clock and history only. -/
theorem later_resume {flow : FlowId} {frames : List Frame} (hclock : s.clock ≤ t.clock)
    (hhistory : t.history = s.history) : Later s (setFrames flow frames t) :=
  (later_of_history hclock hhistory).trans (later_setFrames flow frames)

theorem later_failFlow (flow : FlowId) (fault : Fault) : Later s (failFlow flow fault s) := by
  cases flow with
  | start =>
    exact (control_failFlow live_start fault).later (Nat.le_refl _)
  | queue =>
    unfold failFlow
    simp only
    split
    · next task _ _ =>
      refine (control_failTask task fault).later (Nat.le_of_eq ?_)
      cases task <;> rfl
    · exact .refl s

theorem later_answer (entry : Nat) (result : SubmissionResult) (before : Observed X) :
    Later s (answer entry result before s) :=
  (control_answer entry result before).later (Nat.le_refl _)

theorem later_fault (flow : FlowId) (fault : Fault) :
    Later s { s with history := s.history ++ [.fault flow fault] } :=
  (control_fault flow fault).later (Nat.le_refl _)

/-- A call whose answer is dropped, or whose frames are stored. -/
theorem later_of_run {α : Type} {m : RunM X α} (hm : Sync.Within Later m) {r : Except Fault α}
    (hr : m s = (r, t)) : Later s t := by
  have h := hm s
  rwa [hr] at h

theorem later_stepSubmit (index : Nat) (entry : WorkflowNodeRunEntry) (payload : Json) :
    Later s (stepSubmit c index entry payload s) := by
  unfold stepSubmit
  cases hr : submitNodeCompletion c index entry payload s with
  | mk r u =>
    have hu := later_of_run (within_later_submitNodeCompletion index entry payload) hr
    rcases r with fault | reason | ⟨outcome, frame⟩
    · exact hu.trans ((later_fault .queue fault).trans (later_answer _ _ _))
    · exact hu.trans (later_answer _ _ _)
    · refine hu.trans ?_
      exact later_resume (Nat.le_refl _) rfl

theorem later_stepSettle (index : Nat) (entry : WorkflowNodeRunEntry)
    (settlement : WorkflowNodeSettlement) : Later s (stepSettle c index entry settlement s) := by
  unfold stepSettle
  cases hr : settleNodeRun c index entry settlement s with
  | mk r u =>
    have hu := later_of_run (within_later_settleNodeRun index entry settlement) hr
    cases r with
    | error fault => exact hu.trans (later_fault .queue fault)
    | ok frame =>
      refine hu.trans ?_
      exact later_resume (Nat.le_refl _) rfl

theorem later_proceed {flow : FlowId} {x : Except Fault (Option Frame) × WorkflowRunInstance X}
    (h : Later s x.2) (outer : List Frame) : Later s (proceed flow outer x) := by
  obtain ⟨r, u⟩ := x
  cases r with
  | error fault => exact h.trans (later_failFlow _ fault)
  | ok frame => exact h.trans (later_setFrames _ _)

theorem later_stepInterrupt (reason : String) : Later s (stepInterrupt reason s) := by
  refine (control_interrupt reason).later (Nat.le_of_eq ?_)
  unfold stepInterrupt beginInterrupt
  simp only [Sync.bind_run, Sync.get_run, Sync.ite_run]
  cases s.finished <;> rfl

/-- **No step moves the clock back or records a call in the future.** -/
theorem later_step {l : Label} (hstep : step c s l = some t) : Later s t := by
  have hrest : ∀ queue, Later s { s with queue } := fun queue => later_of_history (Nat.le_refl _) rfl
  cases fired_of_step hstep with
  | start hidle =>
    rw [stepStart_eq]
    exact later_proceed (within_later_startRun s) []
  | launchResolved flow index remaining outer hframes => exact later_resume (Nat.le_refl _) rfl
  | launchRejected flow reason index entry remaining outer hframes hentry =>
    rw [stepLaunchRejected_eq]
    exact later_proceed (within_later_settleNodeRun index entry _ s) _
  | resume flow remaining outer hframes =>
    cases remaining with
    | nil => exact later_setFrames _ _
    | cons next rest =>
      have hclaimed := within_later_claimAndLaunch next s
      rw [claimAndLaunch_run] at hclaimed
      simp only [stepResume, claimAndLaunch_run]
      exact hclaimed.trans (later_setFrames _ _)
  | submit index payload hlt => exact hrest _
  | nodeSettled index entry settlement hentry hhandle hopen =>
    unfold stepNodeSettled
    simp only
    split
    · exact later_of_history (Nat.le_refl _) rfl
    · split <;> exact later_of_history (Nat.le_refl _) rfl
  | interrupt reason hreturned => exact hrest _
  | takesSubmit index entry payload rest hactive hqueue hentry =>
    exact (hrest _).trans (later_stepSubmit _ _ _)
  | takesSettle index entry settlement rest hactive hqueue hentry =>
    exact (hrest _).trans (later_stepSettle _ _ _)
  | takesInterrupt reason rest hactive hqueue => exact (hrest _).trans (later_stepInterrupt reason)
  | interruptsResolved reason running hactive =>
    unfold stepInterruptsResolved
    cases hr : completeInterrupt c reason running s with
    | mk r u =>
      have hu := later_of_run (within_later_completeInterrupt reason running) hr
      cases r with
      | error fault =>
        exact hu.trans ((later_of_history (Nat.le_refl _) rfl).trans (later_fault .queue fault))
      | ok _ => exact hu.trans (later_of_history (Nat.le_refl _) rfl)
  | interruptsRejected message reason running hactive =>
    exact (later_of_history (Nat.le_refl _) rfl).trans (later_fault .queue _)

theorem stamped_initial : Stamped (initial : WorkflowRunInstance X) :=
  fun item hitem => by cases hitem

theorem stamped_of_run {ok : WorkflowRunInstance X → Label → Prop} {ls : List Label}
    (run : Run (step c) ok initial ls s) : Stamped s :=
  run.invariant stamped_initial fun _ _ _ _ h hstep => (later_step hstep).2 h

/-- `start()` moves the clock on. -/
theorem clock_lt_start (hstep : step c s .start = some t) : s.clock < t.clock := by
  cases fired_of_step hstep with
  | start hidle =>
    rw [stepStart_eq]
    exact Nat.lt_of_lt_of_le (startRun_clock (c := c) s) (later_proceed (Later.refl _) []).1

/-! ## The stamp of an evaluation -/

/-- A settlement is accepted after everything that has happened. -/
theorem shown_clock {l : Label} {sh : Shown X} (h : shown s l = some sh) :
    s.clock ≤ sh.closed.clock := by
  have hsubmission : ∀ {s : WorkflowRunInstance X} {index entry payload},
      shownSubmission index entry payload s = some sh → s.clock ≤ sh.closed.clock := by
    intro s index entry payload hsh
    unfold shownSubmission at hsh
    split at hsh
    · split at hsh
      · cases hsh
      · obtain rfl := Option.some.inj hsh
        exact Nat.le_add_right s.clock 3
    · cases hsh
  have hsettlement : ∀ {s : WorkflowRunInstance X} {index entry settlement},
      shownSettlement index entry settlement s = some sh → s.clock ≤ sh.closed.clock := by
    intro s index entry settlement hsh
    unfold shownSettlement at hsh
    split at hsh
    · cases hsh
    · obtain rfl := Option.some.inj hsh
      exact Nat.le_add_right s.clock 2
  unfold shown at h
  split at h
  · split at h
    · obtain ⟨entry, -, hsh⟩ := Option.bind_eq_some_iff.mp h
      have hclock := hsubmission hsh
      exact hclock
    · obtain ⟨entry, -, hsh⟩ := Option.bind_eq_some_iff.mp h
      have hclock := hsettlement hsh
      exact hclock
    · cases h
  · split at h
    · obtain ⟨entry, -, hsh⟩ := Option.bind_eq_some_iff.mp h
      exact hsettlement hsh
    · cases h
  · cases h

theorem evaluating_clock (entry : Nat) (settlement : WorkflowNodeSettlement)
    (applied : StateTransitionResult X) : s.clock ≤ (evaluating entry settlement applied s).clock := by
  have hlater := (within_later_applyTransition applied
    { s with
      clock := s.clock + 1
      history := s.history ++ [.applyCalled entry settlement s.clock s.runtimeSnapshot] }).1
  exact Nat.le_trans (Nat.le_succ _) hlater

end EphemeralAgent.Workflow
