import EphemeralAgent.Workflow.Threads

/-!
# After the end of a workflow run

`#interrupt` and `#finish` look at the finished latch; `#submitNodeCompletion` and
`#settleNodeRun` do not, so what happens to a settlement that comes after the end is up to the
implementation.

* `accepts` — the settlement of this step is accepted by the implementation
* `frozen_after_finish` — a finished run whose implementation refuses what still comes is frozen
* `mutated_after_finish` — one whose implementation does not refuse goes on changing
-/

namespace EphemeralAgent.Workflow

open EphemeralAgent.Lib

variable {X : Type} {c : WorkflowStartRequest X} {s t u : WorkflowRunInstance X}

/-- The step shows a settlement to the implementation, and the implementation accepts it. -/
def accepts (c : WorkflowStartRequest X) (s : WorkflowRunInstance X) (l : Label) : Bool :=
  match shown s l, s.state with
  | some sh, some state =>
    match sh.verdict c state with
    | .ok .ok => true
    | _ => false
  | _, _ => false

theorem accepts_of_shown {l : Label} {sh : Shown X} {state : WorkflowState X}
    (hshown : shown s l = some sh) (hstate : s.state = some state)
    (hverdict : sh.verdict c state = .ok .ok) : accepts c s l = true := by
  simp [accepts, hshown, hstate, hverdict]

/-- Nothing is accepted once the run is finished. -/
def Refuses (c : WorkflowStartRequest X) (s : WorkflowRunInstance X) (l : Label) : Prop :=
  s.finished = true → accepts c s l = false

instance (s : WorkflowRunInstance X) (l : Label) : Decidable (Refuses c s l) :=
  inferInstanceAs (Decidable (s.finished = true → accepts c s l = false))

/-! ## A run finishes in a done state -/

/-- If the run gets finished on the way from `s` to `t`, then `t` is done. -/
def FinishesDone (s t : WorkflowRunInstance X) : Prop :=
  s.finished = false → t.finished = true → t.isDone = true

theorem Finished.isDone {outcome : WorkflowOutcome} {state : WorkflowState X}
    (h : Finished outcome s t) (hstate : s.state = some state)
    (hdone : state.isWorkflowDone = true) : t.isDone = true := by
  simp [WorkflowRunInstance.isDone, h.state, hstate, hdone]

theorem Idled.finishesDone {state : WorkflowState X} {r : Except Fault Unit}
    (h : Idled c state s r t) : FinishesDone s t := by
  intro hs ht
  cases h with
  | deadlocked _ report _ _ _ _ hu => exact hu.isDone rfl rfl
  | _ => exact absurd (hs.symm.trans ht) (by simp)

theorem Dispatched.finishesDone {state : WorkflowState X} {r : Except Fault (Option Frame)}
    (h : Dispatched c state s r t) : FinishesDone s t := by
  intro hs ht
  cases h with
  | idle _ _ _ _ _ hu => exact hu.finishesDone hs ht
  | idleThrew _ _ _ _ _ _ hu => exact hu.finishesDone hs ht
  | _ => exact absurd (hs.symm.trans ht) (by simp)

theorem Concluded.finishesDone {state : WorkflowState X} {r : Except Fault (Option Frame)}
    (hstate : s.state = some state) (h : Concluded c state s r t) : FinishesDone s t := by
  intro hs ht
  cases h with
  | finished hdone _ _ _ _ _ _ hu => exact hu.isDone hstate hdone
  | continued _ _ _ _ _ _ hu => exact hu.finishesDone hs ht
  | _ => exact absurd (hs.symm.trans ht) (by simp)

theorem Applied.finishesDone {entry : Nat} {settlement : WorkflowNodeSettlement}
    {state : WorkflowState X} {r : Except Fault (Option Frame)}
    (h : Applied c entry settlement state s r t) : FinishesDone s t := by
  intro hs ht
  cases h with
  | evaluated _ _ _ _ _ _ _ _ _ _ _ _ hu => exact hu.finishesDone rfl hs ht
  | _ => exact absurd (hs.symm.trans ht) (by simp)

theorem Interrupted.finishesDone {reason : String} {running : List Nat} {state : WorkflowState X}
    {r : Except Fault Unit} (h : Interrupted reason running state s r t) : FinishesDone s t := by
  intro hs ht
  cases h with
  | threw => exact absurd (hs.symm.trans ht) (by simp)
  | done _ _ _ _ _ hu => exact hu.isDone rfl rfl

theorem Started.finishesDone {r : Except Fault (Option Frame)} (h : Started c s r t) :
    FinishesDone s t := by
  intro hs ht
  cases h with
  | threw => exact absurd (hs.symm.trans ht) (by simp)
  | created _ _ _ _ _ _ hu => exact hu.finishesDone rfl hs ht

theorem Control.isDone {faults : List Fault} (h : Control faults s t) : t.isDone = s.isDone := by
  unfold WorkflowRunInstance.isDone
  rw [h.state]

theorem ShownIn.finished {sh : Shown X} (h : ShownIn s sh) : sh.closed.finished = s.finished := by
  obtain ⟨_, _, _, hclosed, _⟩ := h.closed
  rw [hclosed]

theorem Stepped.finishesDone {l : Label} (h : Stepped c s l t) : FinishesDone s t := by
  intro hs ht
  cases h with
  | control _ _ hu => exact absurd (hs.symm.trans (hu.finished.symm.trans ht)) (by simp)
  | started _ r u _ hu hc =>
    rw [hc.isDone]
    exact hu.finishesDone hs (hc.finished.symm.trans ht)
  | launched _ _ _ _ _ _ _ hu =>
    exact absurd (hs.symm.trans (hu.finished.symm.trans ht)) (by simp)
  | settled sh hshown _ _ _ r u _ hu hc =>
    obtain ⟨queue, hin⟩ := shownIn_of_shown hshown
    rw [hc.isDone]
    exact hu.finishesDone (hin.finished.trans hs) (hc.finished.symm.trans ht)
  | interrupted _ _ _ _ _ r u _ hu hc =>
    rw [hc.isDone]
    exact hu.finishesDone hs (hc.finished.symm.trans ht)

/-! ## Frozen -/

/-- State, snapshots and outcome are those of `s`. -/
structure Frozen (s t : WorkflowRunInstance X) : Prop where
  state : t.state = s.state
  snapshots : t.snapshots = s.snapshots
  finished : t.finished = s.finished
  outcome : t.outcome = s.outcome

theorem Frozen.refl (s : WorkflowRunInstance X) : Frozen s s :=
  ⟨rfl, rfl, rfl, rfl⟩

theorem Frozen.trans (h₁ : Frozen s t) (h₂ : Frozen t u) : Frozen s u :=
  ⟨h₂.state.trans h₁.state, h₂.snapshots.trans h₁.snapshots, h₂.finished.trans h₁.finished,
    h₂.outcome.trans h₁.outcome⟩

theorem Control.frozen {faults : List Fault} (h : Control faults s t) : Frozen s t :=
  ⟨h.state, h.snapshots, h.finished, h.outcome⟩

/-- After the end, a step that accepts nothing changes nothing. -/
theorem frozen_step {l : Label} (hthreads : Threads s) (hfinished : s.finished = true)
    (hok : Refuses c s l) (h : Stepped c s l t) : Frozen s t := by
  cases h with
  | control _ _ ht => exact ht.frozen
  | started hidle =>
    rw [hthreads.idle hidle] at hfinished
    cases hfinished
  | launched _ _ _ _ _ _ _ ht => exact ⟨ht.state, ht.snapshots, ht.finished, ht.outcome⟩
  | settled sh hshown state hstate hverdict =>
    have := accepts_of_shown hshown hstate hverdict
    rw [hok hfinished] at this
    cases this
  | interrupted reason running hactive =>
    have := (hthreads.interrupting reason running hactive).2.1
    rw [hfinished] at this
    cases this

/-- A finished run whose implementation refuses everything since is in a done state. -/
theorem isDone_of_finished {ls : List Label} (run : Run (step c) (Refuses c) initial ls s)
    (hfinished : s.finished = true) : s.isDone = true := by
  have h : s.finished = true → s.isDone = true := by
    refine run.invariant_of (I := fun s => s.finished = true → s.isDone = true)
      (J := fun s => WellStarted s ∧ Threads s)
      (fun r => ⟨wellStarted_of_run r, threads_of_run r⟩) (fun h => by cases h) ?_
    intro s l t hok hJ ih hstep ht
    have hstepped := stepped_of_step hJ.1 hstep
    cases hs : s.finished with
    | false => exact hstepped.finishesDone hs ht
    | true =>
      have hfrozen := frozen_step hJ.2 hs hok hstepped
      unfold WorkflowRunInstance.isDone at ih ⊢
      rw [hfrozen.state]
      exact ih hs
  exact h hfinished

/-- What the promise of `submit` says. -/
def SubmissionResult.isAccept : SubmissionResult → Bool
  | .accept _ => true
  | _ => false

/-- A submission that is not accepted is answered at once. -/
theorem answered_of_refused {index : Nat} {payload : Json} {rest : List Operation}
    (hwell : WellStarted s) (hactive : s.active = none)
    (hqueue : s.queue = .submit index payload :: rest) (hrefused : accepts c s .dequeue = false)
    (hstep : step c s .dequeue = some t) :
    ∃ result, result.isAccept = false ∧
      t.history.getLast? = some (.answered index result s.observed t.observed) := by
  cases fired_of_step hstep with
  | takesSettle _ _ _ _ _ hother => cases hqueue.symm.trans hother
  | takesInterrupt _ _ _ hother => cases hqueue.symm.trans hother
  | takesSubmit _ entry _ _ _ hother hentry =>
    cases hqueue.symm.trans hother
    obtain ⟨state, hstate⟩ := hwell.state_of_entry hentry
    have hshown : shown s .dequeue =
        shownSubmission index entry payload { s with queue := rest } := by
      simp [shown, hactive, hqueue, hentry]
    have hnot : ∀ sh, shownSubmission index entry payload { s with queue := rest } = some sh →
        sh.verdict c state ≠ .ok .ok := fun sh hsh hverdict => by
      rw [accepts_of_shown (hshown.trans hsh) hstate hverdict] at hrefused
      cases hrefused
    have hsubmit := submitNodeCompletion_cases (c := c) (s := { s with queue := rest }) hstate
      index entry payload
    unfold stepSubmit
    cases hr : submitNodeCompletion c index entry payload { s with queue := rest } with
    | mk r u =>
      rw [hr] at hsubmit
      simp only at hsubmit ⊢
      cases hsubmit with
      | rejected reason => exact ⟨.reject reason, rfl, List.getLast?_concat⟩
      | validateThrew sh _ message => exact ⟨.error _, rfl, List.getLast?_concat⟩
      | refused sh _ reason => exact ⟨.reject reason, rfl, List.getLast?_concat⟩
      | applied sh hsh hverdict => exact absurd hverdict (hnot sh hsh)
      | threw sh hsh hverdict => exact absurd hverdict (hnot sh hsh)

/-- **A finished run whose implementation refuses what still comes is frozen.**  State, snapshots
and outcome stay, the state is done, and no submission is accepted any more. -/
theorem frozen_after_finish {ls ms : List Label}
    (run : Run (step c) (Refuses c) initial ls s) (hfinished : s.finished = true)
    (later : Run (step c) (Refuses c) s ms t) :
    Frozen s t ∧ t.isDone = true ∧
      ∀ index payload rest u, t.active = none → t.queue = .submit index payload :: rest →
        Refuses c t .dequeue → step c t .dequeue = some u →
        ∃ result, result.isAccept = false ∧
          u.history.getLast? = some (.answered index result t.observed u.observed) := by
  have hfrozen : Frozen s t := by
    refine later.invariant_of (I := Frozen s)
      (J := fun u => WellStarted u ∧ Threads u)
      (fun r => ⟨wellStarted_of_run (run.trans r), threads_of_run (run.trans r)⟩) (.refl s) ?_
    intro u l v hok hJ ih hstep
    have hu : u.finished = true := ih.finished.trans hfinished
    exact ih.trans (frozen_step hJ.2 hu hok (stepped_of_step hJ.1 hstep))
  have ht : t.finished = true := hfrozen.finished.trans hfinished
  refine ⟨hfrozen, isDone_of_finished (run.trans later) ht, ?_⟩
  intro index payload rest u hactive hqueue hok hstep
  exact answered_of_refused (wellStarted_of_run (run.trans later)) hactive hqueue (hok ht) hstep

/-! ## A small implementation

It dispatches a fixed batch in its initial state, counts the settlements it applies, and leaves
the verdict on a settlement and the progress of the workflow open.
-/

/-- A node without input whose outcome may be anything. -/
def anyNode (name : String) : WorkflowNodeDispatch where
  start :=
    { node := { kind := .agent, name }
      input := .agent [] none
      outcome := { name := "result", description := "anything", safeParse := .ok } }
  metadata := none

def batchImplementation (batch : List WorkflowNodeDispatch)
    (validate : WorkflowState Unit → ValidationResult)
    (evaluate : WorkflowState Unit → Except String (WorkflowState Unit)) :
    WorkflowImplementation Unit where
  createInitialState _ _ _ :=
    .ok { version := 0, isWorkflowDone := false, workflowStatus := .running, ext := () }
  dispatch _ _ state _ := .ok (if state.version = 0 then batch else [])
  validateNodeSettlement _ state _ _ := .ok (validate state)
  applyNodeSettlement _ state _ _ := .ok { state := { state with version := state.version + 1 } }
  evaluateWorkflowProgress _ state _ := (evaluate state).map fun state => { state }
  deadlock _ _ _ _ := .ok none
  getWorkflowOutcome _ _ := .ok none

def batchRequest (batch : List WorkflowNodeDispatch)
    (validate : WorkflowState Unit → ValidationResult)
    (evaluate : WorkflowState Unit → Except String (WorkflowState Unit)) :
    WorkflowStartRequest Unit where
  definition := {}
  implementation := batchImplementation batch validate evaluate
  args := []
  toJsonObject _ := .ok .null

/-- Done, successfully. -/
def succeed (state : WorkflowState Unit) : WorkflowState Unit :=
  { state with isWorkflowDone := true, workflowStatus := .success }

/-- Accept every settlement. -/
def acceptAll : WorkflowState Unit → ValidationResult := fun _ => .ok

/-- Refuse every settlement once the workflow is done. -/
def refuseDone : WorkflowState Unit → ValidationResult := fun state =>
  if state.isWorkflowDone then .refused "workflow is done" else .ok

/-- Two nodes, both launched; the workflow is done with the first outcome. -/
def pair (validate : WorkflowState Unit → ValidationResult) : WorkflowStartRequest Unit :=
  batchRequest [anyNode "first", anyNode "second"] validate fun state => .ok (succeed state)

/-- Start, launch both nodes, submit the outcome of the first. -/
def pairFinishes : List Label :=
  [.start, .launchResolved .start, .resume .start, .launchResolved .start, .resume .start,
    .submit 0 .null, .dequeue]

/-- **Without the implementation's help a finished run goes on**: its state and its snapshots
change, and a late submission is accepted. -/
theorem mutated_after_finish :
    ∃ s t, Run (step (pair acceptAll)) Free initial pairFinishes s ∧
      Run (step (pair acceptAll)) Free s [.submit 1 .null, .dequeue] t ∧
      s.finished = true ∧ s.state.map (·.version) = some 1 ∧ t.state.map (·.version) = some 2 ∧
      s.snapshots.length = 2 ∧ t.snapshots.length = 3 ∧
      t.history.any (fun item => match item with
        | .answered 1 (.accept _) _ _ => true
        | _ => false) = true := by
  obtain ⟨s, t, hs, ht, hp⟩ := exists_run_run (step (pair acceptAll)) Free
    initial pairFinishes [.submit 1 .null, .dequeue]
    (fun s t => s.finished && s.state.map (·.version) == some 1 &&
      t.state.map (·.version) == some 2 && s.snapshots.length == 2 && t.snapshots.length == 3 &&
      t.history.any (fun item => match item with
        | .answered 1 (.accept _) _ _ => true
        | _ => false)) (by decide)
  simp only [Bool.and_eq_true, beq_iff_eq] at hp
  obtain ⟨⟨⟨⟨⟨h₁, h₂⟩, h₃⟩, h₄⟩, h₅⟩, h₆⟩ := hp
  exact ⟨s, t, hs, ht, h₁, h₂, h₃, h₄, h₅, h₆⟩

theorem frozen_after_finish_pair :
    ∃ s t, Run (step (pair refuseDone)) (Refuses (pair refuseDone)) initial pairFinishes s ∧
      s.finished = true ∧
      Run (step (pair refuseDone)) (Refuses (pair refuseDone)) s [.submit 1 .null, .dequeue] t ∧
      Frozen s t ∧ t.isDone = true := by
  obtain ⟨s, t, hs, ht, hfinished⟩ := exists_run_run (step (pair refuseDone))
    (Refuses (pair refuseDone)) initial pairFinishes [.submit 1 .null, .dequeue]
    (fun s _ => s.finished) (by decide)
  obtain ⟨hfrozen, hdone, -⟩ := frozen_after_finish hs hfinished ht
  exact ⟨s, t, hs, hfinished, ht, hfrozen, hdone⟩

end EphemeralAgent.Workflow
