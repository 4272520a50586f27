import EphemeralAgent.Workflow.Running

/-!
# Interrupting a run

`#interrupt` aborts the controller, waits for the running nodes, and only then closes their
entries and finishes the run.  `Promise.all` rejects as soon as one `interrupt()` does, so the
second half may be left out.

* `Halted` — a run that nothing can change any more
* `interrupt_total` — an interrupt ends the run exactly when its nodes let it, and the state it
  leaves has a JSON projection
* `half_interrupted` — one rejected `interrupt()` leaves the run aborted and running
-/

namespace EphemeralAgent.Workflow

open EphemeralAgent.Lib

variable {X : Type} {c : WorkflowStartRequest X} {s t u : WorkflowRunInstance X}

/-! ## The end of the operation -/

/-- The operation of the queue goes through when the state it writes has a JSON projection. -/
theorem completeInterrupt_ok_iff {state : WorkflowState X} (h : s.state = some state)
    (reason : String) (running : List Nat) :
    (completeInterrupt c reason running s).1 = .ok () ↔
      ∃ json, c.toJsonObject (interruptState state reason) = .ok json := by
  simp only [completeInterrupt, Sync.bind_run, now_run, Sync.modify_run, requireState, Sync.get_run,
    h, Sync.pure_run, setState_run, note_run, emit_run]
  generalize hu : (WorkflowRunInstance.mk .. : WorkflowRunInstance X) = u
  have hstate : u.state = some (interruptState state reason) := by rw [← hu]
  have hrec := recordSnapshot_fst (c := c) hstate
  cases hr : recordSnapshot c u with
  | mk r v =>
    rw [hr] at hrec
    cases hjson : c.toJsonObject (interruptState state reason) with
    | error message =>
      rw [hjson] at hrec
      obtain rfl : r = .error ⟨.toJsonObject, message⟩ := hrec
      simp
    | ok json =>
      rw [hjson] at hrec
      obtain rfl : r = .ok () := hrec
      exact iff_of_true (finish_cases _).1 ⟨json, rfl⟩

theorem Interrupted.cancelled {reason : String} {running : List Nat} {state : WorkflowState X}
    (h : Interrupted reason running state s (.ok ()) t) (hs : s.finished = false) :
    t.finished = true ∧ t.outcome = some (.cancelled reason) := by
  cases h with
  | done _ _ _ _ _ hu =>
    cases hu with
    | already hfinished => exact absurd (hs.symm.trans hfinished) (by simp)
    | finished => exact ⟨rfl, rfl⟩

theorem Interrupted.unfinished {reason : String} {running : List Nat} {state : WorkflowState X}
    {fault : Fault} (h : Interrupted reason running state s (.error fault) t) :
    t.finished = s.finished := by
  cases h
  rfl

/-! ## A run that has come to rest -/

/-- The run is finished, no node runs and nothing is left to launch. -/
structure Halted (s : WorkflowRunInstance X) : Prop where
  finished : s.finished = true
  idle : s.runningNodes = []
  frames : ∀ flow, s.frames flow = []

theorem framesLeft_nil {frames : List Frame} (h : FramesLeft [] frames) : frames = [] := by
  cases h <;> rfl

/-- Nothing but control happens in a run that has come to rest. -/
theorem halted_step {l : Label} (hthreads : Threads s) (h : Halted s) (hstep : Stepped c s l t) :
    (∃ faults, Control faults s t) ∧ Halted t := by
  cases hstep with
  | control faults _ ht hframes =>
    refine ⟨⟨faults, ht⟩, ht.finished.trans h.finished, ?_, fun flow => ?_⟩
    · rw [runningNodes_eq_nil_iff]
      intro entry
      rw [ht.statusOf]
      exact runningNodes_eq_nil_iff.mp h.idle entry
    · exact framesLeft_nil (h.frames flow ▸ hframes flow)
  | started hidle =>
    have hfinished := h.finished
    rw [hthreads.idle hidle] at hfinished
    cases hfinished
  | launched flow next rest outer hframes =>
    rw [h.frames flow] at hframes
    cases hframes
  | settled sh hshown =>
    obtain ⟨queue, hin⟩ := shownIn_of_shown hshown
    exact absurd hin.statusOf_entry (runningNodes_eq_nil_iff.mp h.idle sh.entry)
  | interrupted reason running hactive =>
    have hunfinished := (hthreads.interrupting reason running hactive).2.1
    exact absurd (h.finished.symm.trans hunfinished) (by simp)

/-- The state, the outcome and the statuses of the nodes are those of `s`. -/
structure SameView (s t : WorkflowRunInstance X) : Prop where
  frozen : Frozen s t
  statusOf : ∀ entry, t.statusOf entry = s.statusOf entry

/-- **After that nothing changes**, whatever is still submitted or settled. -/
theorem halted_run {ls ms : List Label} (run : Run (step c) Free initial ls s) (h : Halted s)
    (later : Run (step c) Free s ms t) : SameView s t := by
  have hlater : Halted t ∧ SameView s t := by
    refine later.invariant_of (I := fun t => Halted t ∧ SameView s t)
      (J := fun t => WellStarted t ∧ Threads t)
      (fun r => ⟨wellStarted_of_run (run.trans r), threads_of_run (run.trans r)⟩)
      ⟨h, .refl s, fun _ => rfl⟩ ?_
    rintro u l v - ⟨hwell, hthreads⟩ ⟨hu, hsame⟩ hstep
    obtain ⟨⟨faults, hcontrol⟩, hv⟩ := halted_step hthreads hu (stepped_of_step hwell hstep)
    refine ⟨hv, hsame.frozen.trans hcontrol.frozen, fun entry => ?_⟩
    rw [hcontrol.statusOf, hsame.statusOf]
  exact hlater.2

/-! ## Waiting for the nodes -/

/-- `Promise.all` over the interrupted nodes settles. -/
def Label.answersInterrupt : Label → Bool
  | .interruptsResolved | .interruptsRejected _ => true
  | _ => false

/-- The nodes have not all answered yet. -/
def Waits (_ : WorkflowRunInstance X) (l : Label) : Prop :=
  l.answersInterrupt = false

instance (s : WorkflowRunInstance X) (l : Label) : Decidable (Waits s l) :=
  inferInstanceAs (Decidable (l.answersInterrupt = false))

theorem frames_interrupting {reason : String} {running : List Nat}
    (hactive : s.active = some (.interrupting reason running)) (hflow : s.startFlow = .returned)
    (flow : FlowId) : s.frames flow = [] := by
  cases flow <;> simp [WorkflowRunInstance.frames, hactive, hflow]

/-- While an interrupt waits it is alone: the environment may act, no code of the run does. -/
theorem waiting_step {l : Label} {reason : String} {running : List Nat} (hthreads : Threads s)
    (hactive : s.active = some (.interrupting reason running)) (hwaits : Waits s l)
    (hstep : step c s l = some t) : t.active = s.active ∧ t.state = s.state := by
  have hflow := (hthreads.interrupting reason running hactive).1
  have hframes := frames_interrupting hactive hflow
  cases fired_of_step hstep with
  | submit index payload hlt => exact ⟨rfl, rfl⟩
  | nodeSettled index entry settlement hentry hhandle hopen =>
    exact ⟨(threads_nodeSettled index entry settlement).1,
      (control_nodeSettled index entry settlement).state⟩
  | interrupt other hreturned => exact ⟨rfl, rfl⟩
  | start hidle => cases hidle.symm.trans hflow
  | launchResolved flow index remaining outer h => cases (hframes flow).symm.trans h
  | launchRejected flow other index entry remaining outer h => cases (hframes flow).symm.trans h
  | resume flow remaining outer h => cases (hframes flow).symm.trans h
  | takesSubmit index entry payload rest hidle => cases hactive.symm.trans hidle
  | takesSettle index entry settlement rest hidle => cases hactive.symm.trans hidle
  | takesInterrupt other rest hidle => cases hactive.symm.trans hidle
  | interruptsResolved => cases hwaits
  | interruptsRejected => cases hwaits

/-- The queue has taken the interrupt of an unfinished run. -/
theorem interrupting_of_dequeue {reason : String} {rest : List Operation}
    (hunfinished : s.finished = false) (hqueue : s.queue = .interrupt reason :: rest)
    (hstep : step c s .dequeue = some t) :
    (∃ running, t.active = some (.interrupting reason running)) ∧ t.state = s.state := by
  cases fired_of_step hstep with
  | takesSubmit index entry payload rest hidle h => cases hqueue.symm.trans h
  | takesSettle index entry settlement rest hidle h => cases hqueue.symm.trans h
  | takesInterrupt other rest hidle h =>
    cases hqueue.symm.trans h
    unfold stepInterrupt beginInterrupt
    simp [Sync.bind_run, Sync.get_run, hunfinished]

/-- An interrupt waits for its nodes from the moment the queue begins it. -/
theorem interrupting_step {l : Label} {reason : String} {running : List Nat}
    (hwell : WellStarted s) (hstep : step c s l = some t)
    (ht : t.active = some (.interrupting reason running)) :
    s.active = some (.interrupting reason running) ∨
      ∃ rest, l = .dequeue ∧ s.active = none ∧ s.queue = .interrupt reason :: rest ∧
        s.finished = false ∧ running = runningEntries s := by
  cases threadMove_of_step hwell hstep with
  | started _ h => exact .inl ((h.start rfl).1 ▸ ht)
  | @continued _ _ flow _ _ _ _ h =>
    cases flow with
    | start => exact .inl ((h.start rfl).1 ▸ ht)
    | queue => exact absurd ht ((h.other rfl).2 reason running)
  | called _ _ _ hactive => exact .inl (hactive ▸ ht)
  | taken _ _ _ _ _ hactive => exact absurd ht (hactive reason running)
  | interrupting _ rest hactive hqueue hfinished _ htactive =>
    cases htactive.symm.trans ht
    exact .inr ⟨rest, rfl, hactive, hqueue, hfinished, rfl⟩
  | answered _ _ _ hactive => cases hactive.symm.trans ht

theorem waiting_run {reason : String} {ls ms : List Label}
    (run : Run (step c) Free initial ls s)
    (hactive : ∃ running, s.active = some (.interrupting reason running))
    (waiting : Run (step c) Waits s ms t) :
    (∃ running, t.active = some (.interrupting reason running)) ∧ t.state = s.state := by
  obtain ⟨running, hs⟩ := hactive
  have h : t.active = s.active ∧ t.state = s.state := by
    refine waiting.invariant_of (I := fun t => t.active = s.active ∧ t.state = s.state)
      (J := Threads) (fun r => threads_of_run (run.trans r.free)) ⟨rfl, rfl⟩ ?_
    rintro u l v hwaits hthreads ⟨hactive, hstate⟩ hstep
    obtain ⟨hactive', hstate'⟩ := waiting_step hthreads (hactive.trans hs) hwaits hstep
    exact ⟨hactive'.trans hactive, hstate'.trans hstate⟩
  exact ⟨⟨running, h.1.trans hs⟩, h.2⟩

/-! ## The interrupt as a whole -/

/-- The run has ended as the interrupt asks, and stays as it is. -/
structure InterruptedFor (c : WorkflowStartRequest X) (reason : String)
    (t : WorkflowRunInstance X) : Prop where
  finished : t.finished = true
  outcome : t.outcome = some (.cancelled reason)
  idle : t.runningNodes = []
  still : ∀ ms u, Run (step c) Free t ms u → SameView t u

/-- Its nodes have answered: the operation of the queue ends the run or leaves it unfinished. -/
theorem interrupted_step {reason : String} {running : List Nat} {state : WorkflowState X}
    (hthreads : Threads s) (hactive : s.active = some (.interrupting reason running))
    (hstate : s.state = some state) (hstep : step c s .interruptsResolved = some t) :
    ((∃ json, c.toJsonObject (interruptState state reason) = .ok json) →
        t.outcome = some (.cancelled reason) ∧ Halted t) ∧
      ((¬ ∃ json, c.toJsonObject (interruptState state reason) = .ok json) →
        t.finished = false) := by
  obtain ⟨hflow, hunfinished, hrunning⟩ := hthreads.interrupting reason running hactive
  simp only [step, hactive, Option.some.injEq] at hstep
  subst hstep
  have hcases := completeInterrupt_cases (c := c) hstate reason running
  have hok := completeInterrupt_ok_iff (c := c) hstate reason running
  have hkept := hcases.kept
  unfold stepInterruptsResolved
  cases hr : completeInterrupt c reason running s with
  | mk r v =>
    rw [hr] at hcases hok hkept
    simp only at hcases hok hkept
    cases r with
    | error fault =>
      exact ⟨fun hjson => absurd (hok.mpr hjson) (by simp),
        fun _ => hcases.unfinished.trans hunfinished⟩
    | ok value =>
      refine ⟨fun _ => ?_, fun hnot => absurd (hok.mp rfl) hnot⟩
      obtain ⟨hfinished, houtcome⟩ := hcases.cancelled hunfinished
      refine ⟨houtcome, hfinished, ?_, fun flow => ?_⟩
      · exact hcases.runningNodes fun entry => (hrunning entry).mpr
      · cases flow <;>
          simp [WorkflowRunInstance.frames, hkept.startFlow, hflow]

/-- **An interrupt ends the run exactly when no node rejects it** and the state that it leaves has
a JSON projection.  Then the outcome is `cancelled` with its reason, no node runs, and nothing
that is submitted or settled later has an effect. -/
theorem interrupt_total {reason : String} {rest : List Operation} {ls ms : List Label}
    {taken : WorkflowRunInstance X} {l : Label} (run : Run (step c) Free initial ls s)
    (hunfinished : s.finished = false) (hqueue : s.queue = .interrupt reason :: rest)
    (htaken : step c s .dequeue = some taken) (waiting : Run (step c) Waits taken ms u)
    (hanswer : l.answersInterrupt = true) (hstep : step c u l = some t) :
    InterruptedFor c reason t ↔
      l = .interruptsResolved ∧
        ∀ state, s.state = some state →
          ∃ json, c.toJsonObject (interruptState state reason) = .ok json := by
  have hruntaken := run.trans (Run.single trivial htaken)
  obtain ⟨hinterrupting, htakenstate⟩ := interrupting_of_dequeue hunfinished hqueue htaken
  obtain ⟨⟨running, hactive⟩, hustate⟩ := waiting_run hruntaken hinterrupting waiting
  have hrunu := hruntaken.trans waiting.free
  have hthreads := threads_of_run hrunu
  obtain ⟨state, hstate⟩ := (wellStarted_of_run hrunu).state_of_active hactive
  have hsstate : s.state = some state := htakenstate ▸ hustate ▸ hstate
  cases l with
  | interruptsResolved =>
    have hend := interrupted_step hthreads hactive hstate hstep
    by_cases hjson : ∃ json, c.toJsonObject (interruptState state reason) = .ok json
    · obtain ⟨houtcome, hhalted⟩ := hend.1 hjson
      refine iff_of_true ⟨hhalted.finished, houtcome, hhalted.idle, fun ms v hrun => ?_⟩
        ⟨rfl, fun state' hstate' => ?_⟩
      · exact halted_run (hrunu.trans (Run.single trivial hstep)) hhalted hrun
      · obtain rfl : state = state' := Option.some.inj (hsstate.symm.trans hstate')
        exact hjson
    · refine iff_of_false (fun h => ?_) fun h => hjson (h.2 state hsstate)
      exact absurd ((hend.2 hjson).symm.trans h.finished) (by simp)
  | interruptsRejected message =>
    refine iff_of_false (fun h => ?_) fun h => by cases h.1
    have hfinished : t.finished = false := by
      have hunfinished := (hthreads.interrupting reason running hactive).2.1
      simp only [step, hactive, Option.some.injEq] at hstep
      subst hstep
      exact hunfinished
    exact absurd (hfinished.symm.trans h.finished) (by simp)
  | _ => cases hanswer

/-! ## A node that rejects -/

/-- Start and launch the one node, then ask for an interrupt. -/
def onlyInterrupted : List Label :=
  [.start, .launchResolved .start, .resume .start, .interrupt "stop"]

/-- One node; the workflow goes on after each of its settlements. -/
def only : WorkflowStartRequest Unit :=
  batchRequest [anyNode "only"] refuseDone .ok

/-- The next operation is this interrupt. -/
def stops : Option Operation → Bool
  | some (.interrupt "stop") => true
  | _ => false

theorem interrupt_total_only :
    ∃ s taken t, Run (step only) Free initial onlyInterrupted s ∧
      step only s .dequeue = some taken ∧ step only taken .interruptsResolved = some t ∧
      InterruptedFor only "stop" t := by
  obtain ⟨s, hs, hp⟩ := exists_run (step only) Free initial onlyInterrupted
    (fun s => !s.finished && stops s.queue.head? &&
      ((step only s .dequeue).bind fun t => step only t .interruptsResolved).isSome) (by decide)
  simp only [Bool.and_eq_true, Bool.not_eq_true', Option.isSome_iff_exists] at hp
  obtain ⟨⟨hunfinished, hhead⟩, t, ht⟩ := hp
  obtain ⟨taken, htaken, hresolved⟩ := Option.bind_eq_some_iff.mp ht
  obtain ⟨rest, hqueue⟩ : ∃ rest, s.queue = .interrupt "stop" :: rest := by
    cases hq : s.queue with
    | nil => simp [hq, stops] at hhead
    | cons operation rest =>
      rw [hq, List.head?_cons, stops.eq_def] at hhead
      split at hhead
      · next heq => exact ⟨rest, by rw [Option.some.inj heq]⟩
      · cases hhead
  refine ⟨s, taken, t, hs, htaken, hresolved, ?_⟩
  exact (interrupt_total hs hunfinished hqueue htaken (.nil taken) rfl hresolved).mpr
    ⟨rfl, fun _ _ => ⟨.null, rfl⟩⟩

/-- The interrupt of the one node rejects: the run is aborted, but it has not ended, and its node
is still running. -/
theorem half_interrupted :
    ∃ s t, Run (step only) Free initial onlyInterrupted s ∧
      Run (step only) Free s [.dequeue, .interruptsRejected "node went away"] t ∧
      s.finished = false ∧ t.aborted = some "stop" ∧ t.active.isNone = true ∧
      t.finished = false ∧ t.isDone = false ∧ t.runningNodes ≠ [] := by
  obtain ⟨s, t, hs, ht, hp⟩ := exists_run_run (step only) Free initial onlyInterrupted
    [.dequeue, .interruptsRejected "node went away"]
    (fun s t => !s.finished && t.aborted == some "stop" && t.active.isNone && !t.finished &&
      !t.isDone && !t.runningNodes.isEmpty) (by decide)
  simp only [Bool.and_eq_true, Bool.not_eq_true', beq_iff_eq] at hp
  obtain ⟨⟨⟨⟨⟨hunfinished, haborted⟩, hactive⟩, hfinished⟩, hdone⟩, hrunning⟩ := hp
  exact ⟨s, t, hs, ht, hunfinished, haborted, hactive, hfinished, hdone,
    fun h => by simp [h] at hrunning⟩

end EphemeralAgent.Workflow
