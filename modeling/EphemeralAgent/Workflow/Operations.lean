import EphemeralAgent.Workflow.Interrupt
import EphemeralAgent.Workflow.Labelled
import EphemeralAgent.Workflow.Traced

/-!
# The operations of the queue

`#enqueue` runs its operations one after the other, and the promise of an operation settles when it
has ended.

* `WorkflowRunInstance.operations` — the operations that have not ended, the running one first
* `operations_step` — **a step adds operations at the end, or ends the first one**; an interrupt that
  ends without an exception leaves the run finished
-/

namespace EphemeralAgent.Workflow

open EphemeralAgent.Lib

variable {X : Type} {c : WorkflowStartRequest X} {s t u : WorkflowRunInstance X}

def Operation.isInterrupt : Operation → Bool
  | .interrupt _ => true
  | _ => false

def Active.isInterrupt : Active X → Bool
  | .interrupting _ _ => true
  | .flow _ _ => false

/-- The operations that have not ended, by whether they are interrupts. -/
def WorkflowRunInstance.operations (s : WorkflowRunInstance X) : List Bool :=
  (s.active.map Active.isInterrupt).toList ++ s.queue.map Operation.isInterrupt

def HistoryItem.isQueueFault : HistoryItem X → Bool
  | .fault .queue _ => true
  | _ => false

/-- An operation of the queue throws between these states. -/
def throws (s t : WorkflowRunInstance X) : Bool :=
  (t.history.drop s.history.length).any (·.isQueueFault)

theorem throws_of_append {items : List (HistoryItem X)} {fault : Fault}
    (h : t.history = s.history ++ items ++ [.fault .queue fault]) : throws s t = true := by
  unfold throws
  rw [h, List.append_assoc, List.drop_left]
  simp [HistoryItem.isQueueFault]

/-- What a step does to the operations. -/
inductive OperationsStep (s t : WorkflowRunInstance X) : Prop
  | added (new : List Bool) (h : t.operations = s.operations ++ new)
  | ended (operation : Bool) (h : s.operations = operation :: t.operations)
      (hover : operation = true → throws s t = false → t.finished = true)

theorem operations_eq (hactive : t.active = s.active) (hqueue : t.queue = s.queue) :
    t.operations = s.operations := by
  unfold WorkflowRunInstance.operations
  rw [hactive, hqueue]

theorem operations_of_frames {frame : Frame} {outer : List Frame}
    (h : s.frames .queue = frame :: outer) :
    s.operations = false :: s.queue.map Operation.isInterrupt := by
  obtain ⟨task, frames, hactive⟩ := live_of_frames h rfl
  unfold WorkflowRunInstance.operations
  rw [hactive]
  rfl

/-- An operation that is no interrupt runs on, or has ended. -/
theorem operationsStep_flow (hs : s.operations = false :: t.queue.map Operation.isInterrupt)
    (ht : ∀ reason running, t.active ≠ some (.interrupting reason running)) :
    OperationsStep s t := by
  cases hactive : t.active with
  | none =>
    refine .ended false ?_ nofun
    rw [hs, WorkflowRunInstance.operations, hactive]
    rfl
  | some active =>
    refine .added [] ?_
    rw [List.append_nil, hs, WorkflowRunInstance.operations, hactive]
    cases active with
    | flow task frames => rfl
    | interrupting reason running => exact absurd hactive (ht reason running)

theorem operations_taken {operation : Operation} {rest : List Operation} (hactive : s.active = none)
    (hqueue : s.queue = operation :: rest) :
    s.operations = operation.isInterrupt :: rest.map Operation.isInterrupt := by
  unfold WorkflowRunInstance.operations
  rw [hactive, hqueue]
  rfl

/-- The queue takes an interrupt: it ends at once when the run is finished. -/
theorem operationsStep_takesInterrupt {reason : String} {rest : List Operation}
    (hactive : s.active = none) (hqueue : s.queue = .interrupt reason :: rest) :
    OperationsStep s (stepInterrupt reason { s with queue := rest }) := by
  have hs := operations_taken hactive hqueue
  unfold stepInterrupt beginInterrupt
  simp only [Sync.bind_run, Sync.get_run, Sync.ite_run]
  cases hfinished : s.finished with
  | true =>
    have ht : ∀ t : WorkflowRunInstance X, t = { s with finished := true, queue := rest } →
        OperationsStep s t := by
      rintro t rfl
      refine .ended true ?_ fun _ _ => rfl
      rw [hs, WorkflowRunInstance.operations, hactive]
      rfl
    exact ht _ rfl
  | false =>
    refine .added [] ?_
    rw [hs, List.append_nil]
    rfl

/-- `Promise.all` over the nodes has resolved: the run is finished, or the interrupt throws. -/
theorem operationsStep_resolved {reason : String} {running : List Nat} (hwell : WellStarted s)
    (hactive : s.active = some (.interrupting reason running)) :
    OperationsStep s (stepInterruptsResolved c reason running s) := by
  obtain ⟨state, hstate⟩ := hwell.state_of_active hactive
  have hinterrupted := completeInterrupt_cases (c := c) hstate reason running
  have hkept := hinterrupted.kept
  have hs : s.operations = true :: s.queue.map Operation.isInterrupt := by
    unfold WorkflowRunInstance.operations
    rw [hactive]
    rfl
  unfold stepInterruptsResolved
  cases hr : completeInterrupt c reason running s with
  | mk r u =>
    rw [hr] at hinterrupted hkept
    have hrest : s.operations = true :: ({ u with active := none } : WorkflowRunInstance X).operations := by
      rw [hs, ← hkept.queue]
      rfl
    cases hinterrupted with
    | threw message completedAt clock events =>
      refine .ended true ?_ fun _ hthrows => ?_
      · rw [hs]
        rfl
      · rw [throws_of_append (show _ = s.history ++ [HistoryItem.interrupted reason] ++ [_] from rfl)] at hthrows
        cases hthrows
    | done snapshot completedAt clock events _ hu =>
      refine .ended true hrest fun _ _ => ?_
      cases hu with
      | already hfinished => exact hfinished
      | finished => rfl

/-- The queue takes an operation. -/
theorem operationsStep_taken {operation : Operation} {rest : List Operation}
    (hqueue : s.queue = operation :: rest) (htqueue : t.queue = rest)
    (ht : ∀ reason running, t.active ≠ some (.interrupting reason running))
    (hstep : step c s .dequeue = some t) : OperationsStep s t := by
  cases fired_of_step hstep with
  | takesInterrupt reason rest' hactive hqueue' =>
    exact operationsStep_takesInterrupt hactive hqueue'
  | takesSubmit index entry payload rest' hactive hqueue' =>
    cases hqueue.symm.trans hqueue'
    refine operationsStep_flow ?_ ht
    rw [operations_taken hactive hqueue, htqueue]
    rfl
  | takesSettle index entry settlement rest' hactive hqueue' =>
    cases hqueue.symm.trans hqueue'
    refine operationsStep_flow ?_ ht
    rw [operations_taken hactive hqueue, htqueue]
    rfl

/-- **A step adds operations at the end, or ends the first one.** -/
theorem operations_step {l : Label} (hwell : WellStarted s) (hthreads : Threads s)
    (hstep : step c s l = some t) : OperationsStep s t := by
  by_cases hanswers : l.answersInterrupt = true
  · cases fired_of_step hstep with
    | interruptsResolved reason running hactive => exact operationsStep_resolved hwell hactive
    | interruptsRejected message reason running hactive =>
      refine .ended true ?_ fun _ hthrows => ?_
      · unfold WorkflowRunInstance.operations
        rw [hactive]
        rfl
      · rw [throws_of_append (show _ = s.history ++ [] ++ [_] by rw [List.append_nil])] at hthrows
        cases hthrows
    | _ => cases hanswers
  · cases threadMove_of_step hwell hstep with
    | started _ h =>
      exact .added [] ((operations_eq (h.start rfl).1 h.queue).trans (List.append_nil _).symm)
    | @continued _ _ flow frame outer hl hframes h =>
      cases flow with
      | start =>
        exact .added [] ((operations_eq (h.start rfl).1 h.queue).trans (List.append_nil _).symm)
      | queue =>
        refine operationsStep_flow ?_ (h.other rfl).2
        rw [operations_of_frames hframes, h.queue]
    | called operations _ _ hactive _ hqueue =>
      refine .added (operations.map Operation.isInterrupt) ?_
      unfold WorkflowRunInstance.operations
      rw [hactive, hqueue, List.map_append, List.append_assoc]
    | taken operation rest hqueue htqueue _ ht => exact operationsStep_taken hqueue htqueue ht hstep
    | interrupting reason rest hactive hqueue =>
      cases fired_of_step hstep with
      | takesInterrupt reason' rest' _ hqueue' =>
        exact operationsStep_takesInterrupt hactive hqueue'
      | takesSubmit _ _ _ _ _ hother => cases hqueue.symm.trans hother
      | takesSettle _ _ _ _ _ hother => cases hqueue.symm.trans hother
    | answered reason running hinterrupting hactive =>
      -- an interrupt that waits goes on waiting
      have hwaits : Waits s l := by simpa [Waits] using hanswers
      have hsame := (waiting_step hthreads hinterrupting hwaits hstep).1
      cases hactive.symm.trans (hsame.trans hinterrupting)

/-! ## What stays -/

/-- Once `start()` has returned it stays so. -/
theorem returned_step {l : Label} (hwell : WellStarted s)
    (h : s.startFlow = .returned) (hstep : step c s l = some t) : t.startFlow = .returned := by
  cases threadMove_of_step hwell hstep with
  | started hidle => cases hidle.symm.trans h
  | @continued _ _ flow _ _ _ hframes hmove =>
    cases flow with
    | start => cases (startFlow_of_frames hframes).symm.trans h
    | queue => exact (hmove.other rfl).1.trans h
  | called _ _ _ _ hflow => exact hflow.trans h
  | taken _ _ _ _ hflow => exact hflow.trans h
  | interrupting _ _ _ _ _ hflow => exact hflow.trans h
  | answered _ _ _ _ hflow => exact hflow.trans h

/-- Entries are only added, and keep what they were launched with. -/
theorem labels_step {l : Label} (hwell : WellStarted s) (hstep : step c s l = some t) :
    ∃ more, t.labels = s.labels ++ more := by
  have hall : Dispatches c fun _ => True := fun _ _ _ _ _ _ _ => trivial
  cases stepped_of_step hwell hstep with
  | control faults _ ht => exact ⟨[], by rw [ht.labels, List.append_nil]⟩
  | started hidle r u _ hu ht =>
    cases hu with
    | threw => exact ⟨[], by rw [ht.labels, List.append_nil]; rfl⟩
    | created _ _ _ _ _ _ hu =>
      obtain ⟨⟨more, hmore, -⟩, -⟩ := hu.ended.labelled hall
      exact ⟨more, ht.labels.trans hmore⟩
  | launched flow next rest outer hframes clock startedAt ht =>
    exact ⟨[labelOf next], by rw [ht.labels]; simp [WorkflowRunInstance.labels, labelOf]⟩
  | settled sh hshown state hstate hverdict r u _ hu ht =>
    obtain ⟨queue, hin⟩ := shownIn_of_shown hshown
    obtain ⟨⟨more, hmore, -⟩, -⟩ := hu.labelled hall
    exact ⟨more, by rw [ht.labels, hmore, hin.labels]; rfl⟩
  | interrupted reason running hactive state hstate r u _ hu ht =>
    exact ⟨[], by rw [ht.labels, hu.view.2.1, List.append_nil]⟩

/-- A finished run stays finished. -/
theorem finished_rule : TraceRule (X := X) fun s t => s.finished = true → t.finished = true where
  trans h₁ h₂ hs := h₂ (h₁ hs)
  silent _ _ hfinished _ hs := hfinished.trans hs
  emit _ _ _ _ hs := hs
  record _ _ _ hs := hs
  finish _ _ _ _ := rfl

/-- What is always so in a run: it is a run, and its log agrees with it. -/
structure Sound (s : WorkflowRunInstance X) : Prop where
  wellStarted : WellStarted s
  threads : Threads s
  whole : Whole s

theorem sound_initial : Sound (initial : WorkflowRunInstance X) :=
  ⟨wellStarted_initial, threads_initial, whole_initial⟩

theorem Sound.step {l : Label} (h : Sound s) (hstep : step c s l = some t) : Sound t :=
  ⟨wellStarted_step h.wellStarted hstep, threads_step h.wellStarted h.threads hstep,
    (logged_step hstep).whole h.whole⟩

end EphemeralAgent.Workflow
