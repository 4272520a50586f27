import EphemeralAgent.Workflow.Waiting

/-!
# A start that fails

`start()` launches the first nodes one by one and has no code that cleans up.  When a launch is
rejected and its settlement throws, the call rejects while the nodes launched before go on: the
shared signal is not aborted, no handle is interrupted, and their submissions still count.

* `startFlow_step` — only its own thread moves `start()`
* `Still` — a failed run in which nothing runs
* `failed_start` — a failed start leaves nothing, when the node whose launch failed is the only
  one that runs
* `abandoned` — otherwise it may leave a node that runs and is heard
-/

namespace EphemeralAgent.Workflow

open EphemeralAgent.Lib

variable {X : Type} {c : WorkflowStartRequest X} {s t u : WorkflowRunInstance X}

/-! ## The thread of `start()` -/

/-- Where `start()` stands changes only when it is called and when its own thread goes on. -/
theorem startFlow_step {l : Label} (hwell : WellStarted s) (hstep : step c s l = some t)
    (hstart : l ≠ .start) (hother : ¬ l.continues .start) : t.startFlow = s.startFlow := by
  cases threadMove_of_step hwell hstep with
  | started => exact absurd rfl hstart
  | @continued _ _ flow _ _ hl _ h =>
    cases flow with
    | start => exact absurd hl hother
    | queue => exact (h.other rfl).1
  | called _ _ _ _ hflow => exact hflow
  | taken _ _ _ _ hflow => exact hflow
  | interrupting _ _ _ _ _ hflow => exact hflow
  | answered _ _ _ _ hflow => exact hflow

theorem frames_start_of_failed {fault : Fault} (h : s.startFlow = .failed fault) :
    s.frames .start = [] := by
  rw [WorkflowRunInstance.frames, h]

/-- A start that has failed stays failed. -/
theorem failed_step {l : Label} {fault : Fault} (hwell : WellStarted s)
    (hstep : step c s l = some t) (hs : s.startFlow = .failed fault) :
    t.startFlow = .failed fault := by
  have hframes := frames_start_of_failed hs
  rw [← hs]
  refine startFlow_step hwell hstep ?_ ?_
  · rintro rfl
    simp [step, hs] at hstep
  · rintro (rfl | ⟨reason, rfl⟩ | rfl) <;> simp [step, hframes] at hstep

/-! ## A failed run in which nothing runs -/

/-- The start has failed, no node runs, and the queue has no launches left. -/
structure Still (s : WorkflowRunInstance X) : Prop where
  failed : ∃ fault, s.startFlow = .failed fault
  idle : ∀ entry, s.statusOf entry ≠ some .running
  launched : ∀ frame ∈ s.frames .queue, frame.remaining = []

/-- The state and the nodes are as before. -/
structure Unmoved (s t : WorkflowRunInstance X) : Prop where
  state : t.state = s.state
  nodes : t.nodes.length = s.nodes.length

theorem still_step {l : Label} (hwell : WellStarted s) (hthreads : Threads s) (h : Still s)
    (hstep : step c s l = some t) : Still t ∧ Unmoved s t := by
  obtain ⟨fault, hfailed⟩ := h.failed
  have hkept := failed_step hwell hstep hfailed
  cases stepped_of_step hwell hstep with
  | control faults _ ht hframes =>
    refine ⟨⟨⟨fault, hkept⟩, fun entry => ?_, fun frame hframe => ?_⟩, ht.state, ht.length⟩
    · rw [ht.statusOf]
      exact h.idle entry
    · have hnone := framesLeft_remaining (p := fun _ => False) (hframes .queue)
        (fun before hbefore next hnext => by simp [h.launched before hbefore] at hnext)
      exact List.eq_nil_iff_forall_not_mem.mpr (hnone frame hframe)
  | started hidle => simp [hfailed] at hidle
  | launched flow next rest outer hframes =>
    cases flow with
    | start => simp [frames_start_of_failed hfailed] at hframes
    | queue =>
      have := h.launched { awaiting := none, remaining := next :: rest } (by simp [hframes])
      cases this
  | settled sh hshown =>
    obtain ⟨queue, hin⟩ := shownIn_of_shown hshown
    exact absurd hin.statusOf_entry (h.idle sh.entry)
  | interrupted reason running hactive =>
    have := (hthreads.interrupting reason running hactive).1
    simp [hfailed] at this

theorem still_run {ls ms : List Label} (run : Run (step c) Free initial ls s) (h : Still s)
    (later : Run (step c) Free s ms t) : Still t ∧ Unmoved s t := by
  refine later.invariant_of (I := fun t => Still t ∧ Unmoved s t)
    (J := fun t => WellStarted t ∧ Threads t)
    (fun r => ⟨wellStarted_of_run (run.trans r), threads_of_run (run.trans r)⟩)
    ⟨h, rfl, rfl⟩ ?_
  rintro u l v - ⟨hwell, hthreads⟩ ⟨hu, hmoved⟩ hstep
  obtain ⟨hv, hmoved'⟩ := still_step hwell hthreads hu hstep
  exact ⟨hv, hmoved'.state.trans hmoved.state, hmoved'.nodes.trans hmoved.nodes⟩

/-! ## The step at which the start fails -/

theorem launching_of_run {ls : List Label} (run : Run (step c) Free initial ls s) :
    Launching s := by
  refine run.invariant_of wellStarted_of_run followed_initial.toLaunching ?_
  intro s l t _ hwell h hstep
  exact launching_step h (surroundings_step hwell hstep) (stepped_of_step hwell hstep)

/-- The step is one of the thread of `start()`. -/
def Label.starts (l : Label) : Prop :=
  l = .start ∨ l.continues .start

/-- A step of `start()` leaves the suspended calls of the queue. -/
theorem frames_queue_of_starts {l : Label} (h : Stepped c s l t) (hl : l.starts) :
    t.frames .queue = s.frames .queue := by
  cases h with
  | control _ _ _ _ _ hkept =>
    refine hkept .queue ?_
    rintro (rfl | ⟨reason, rfl⟩ | rfl) <;> simp [Label.starts, Label.continues] at hl
  | started _ _ _ _ _ _ hcall => exact hcall.2 .queue (by simp)
  | launched flow _ _ _ _ _ _ _ hcall =>
    refine hcall.2 .queue ?_
    rintro rfl
    simp [Label.starts, Label.continues] at hl
  | settled _ _ _ _ _ _ _ _ _ _ flow _ hcalls hcall =>
    refine hcall.2 .queue ?_
    rintro rfl
    cases hcalls <;> simp [Label.starts, Label.continues] at hl
  | interrupted => simp [Label.starts, Label.continues] at hl

/-- What runs after a step that ends the thread of `start()` ran before it. -/
theorem running_of_starts {l : Label} {index : Nat} (hlaunching : Launching s)
    (hthreads : Threads s) (h : Stepped c s l t) (hl : l.starts) (hframes : t.frames .start = [])
    (ht : t.statusOf index = some .running) : s.statusOf index = some .running := by
  rcases running_step h ht with hs | ⟨flow, remaining, outer, hflow⟩
  · exact hs
  · cases flow with
    | start => simp [hframes] at hflow
    | queue =>
      -- the queue was waiting for this launch before the step
      rw [frames_queue_of_starts h hl] at hflow
      have hhandle := hlaunching.handle .queue index ⟨remaining, outer, hflow⟩
      rw [WorkflowRunInstance.handles, List.getElem?_map] at hhandle
      obtain ⟨entry, hentry, -⟩ := Option.map_eq_some_iff.mp hhandle
      have hstatus : s.statusOf index = some entry.status := by
        rw [WorkflowRunInstance.statusOf, hentry, Option.map_some]
      by_cases hrunning : entry.status = .running
      · rw [hstatus, hrunning]
      · have hclosed := (closed_step hthreads h ⟨hstatus, hrunning⟩).1
        exact absurd (Option.some.inj (hclosed.symm.trans ht)) hrunning

/-- The step that ends `start()` deals with the only node that runs: its launch has failed, and
the implementation accepts that.  The queue has no launches left. -/
structure Contained (c : WorkflowStartRequest X) (s : WorkflowRunInstance X) (l : Label) :
    Prop where
  running : ∀ entry, s.statusOf entry = some .running →
    accepts c s l = true ∧ ∃ sh, shown s l = some sh ∧ sh.entry = entry
  launched : ∀ frame ∈ s.frames .queue, frame.remaining = []

/-- A failed start has told every node that runs to stop, and what comes later has no effect. -/
structure LeavesNothing (c : WorkflowStartRequest X) (s : WorkflowRunInstance X) : Prop where
  stopped : ∀ entry, s.statusOf entry = some .running →
    s.aborted.isSome = true ∨ .nodeInterrupted entry ∈ s.history
  unmoved : ∀ ms t, Run (step c) Free s ms t → Unmoved s t

/-- **A failed start leaves nothing running** when the launch that made it fail was the launch of
the only node that ran.  Then nothing submitted or settled later has an effect. -/
theorem failed_start {ls : List Label} {l : Label} {fault : Fault}
    (run : Run (step c) Free initial ls s) (hbefore : ∀ fault, s.startFlow ≠ .failed fault)
    (hstep : step c s l = some t) (hrejects : t.startFlow = .failed fault)
    (h : Contained c s l) : LeavesNothing c t := by
  have hwell := wellStarted_of_run run
  have hthreads := threads_of_run run
  have hstepped := stepped_of_step hwell hstep
  have hl : l.starts := by
    by_contra hnot
    rw [Label.starts, not_or] at hnot
    exact hbefore fault ((startFlow_step hwell hstep hnot.1 hnot.2).symm.trans hrejects)
  have hidle : ∀ entry, t.statusOf entry ≠ some .running := by
    intro entry hrunning
    have hran := running_of_starts (launching_of_run run) hthreads hstepped hl
      (frames_start_of_failed hrejects) hrunning
    obtain ⟨haccepts, sh, hshown, rfl⟩ := h.running entry hran
    have hclosed := closed_of_accepts hstepped hshown haccepts
    exact hclosed.2 (Option.some.inj (hclosed.1.symm.trans hrunning))
  have hstill : Still t := by
    refine ⟨⟨fault, hrejects⟩, hidle, ?_⟩
    rw [frames_queue_of_starts hstepped hl]
    exact h.launched
  refine ⟨fun entry hrunning => absurd hrunning (hidle entry), fun ms u later => ?_⟩
  exact (still_run (run.trans (Run.single trivial hstep)) hstill later).2

/-- One node; the workflow breaks when it evaluates its progress. -/
def broken : WorkflowStartRequest Unit :=
  batchRequest [anyNode "only"] acceptAll fun _ => .error "broken"

/-- The start is under way. -/
def StartFlow.isActive : StartFlow → Bool
  | .active _ => true
  | _ => false

/-- The start has failed. -/
def StartFlow.isFailed (flow : StartFlow) : Bool :=
  flow matches .failed _

theorem failed_start_broken :
    ∃ s t fault, Run (step broken) Free initial [.start] s ∧
      step broken s (.launchRejected .start "no capacity") = some t ∧
      t.startFlow = .failed fault ∧ s.runningNodes ≠ [] ∧ LeavesNothing broken t := by
  obtain ⟨s, hs, hp⟩ := exists_run (step broken) Free initial [.start]
    (fun s => s.nodes.length == 1 && !s.runningNodes.isEmpty && (s.frames .queue).isEmpty &&
      accepts broken s (.launchRejected .start "no capacity") &&
      (shown s (.launchRejected .start "no capacity")).map (·.entry) == some 0 &&
      s.startFlow.isActive &&
      (step broken s (.launchRejected .start "no capacity")).any (·.startFlow.isFailed))
    (by decide +kernel)
  simp only [Bool.and_eq_true, beq_iff_eq, Bool.not_eq_true', List.isEmpty_iff,
    Option.any_eq_true] at hp
  obtain ⟨⟨⟨⟨⟨⟨hlength, hrunning⟩, hqueue⟩, haccepts⟩, hshown⟩, hactive⟩, t, ht, hfailed⟩ := hp
  have hbefore : ∀ fault, s.startFlow ≠ .failed fault := by
    intro fault heq
    simp [heq, StartFlow.isActive] at hactive
  have hcontained : Contained broken s (.launchRejected .start "no capacity") := by
    refine ⟨fun entry hentry => ⟨haccepts, ?_⟩, by simp [hqueue]⟩
    obtain ⟨sh, hsh, hzero⟩ := Option.map_eq_some_iff.mp hshown
    obtain ⟨e, he, -⟩ := statusOf_eq_some_iff.mp hentry
    have hlt := (List.getElem?_eq_some_iff.mp he).1
    exact ⟨sh, hsh, by omega⟩
  unfold StartFlow.isFailed at hfailed
  split at hfailed
  · next fault heq =>
    refine ⟨s, t, fault, hs, ht, heq, ?_, failed_start hs hbefore ht heq hcontained⟩
    intro hnil
    simp [hnil] at hrunning
  · cases hfailed

/-- Two nodes; the workflow refuses a node that has failed, and goes on with a third one after
the first outcome. -/
def strict : WorkflowStartRequest Unit :=
  { batchRequest [] acceptAll .ok with
    implementation :=
      { batchImplementation [] acceptAll .ok with
        dispatch := fun _ _ state _ =>
          .ok (if state.version = 0 then [anyNode "first", anyNode "second"]
            else if state.version = 1 then [anyNode "third"] else [])
        validateNodeSettlement := fun _ _ settlement _ =>
          .ok (if settlement.status = .failed then .refused "not now" else .ok) } }

/-- A running node is told to stop. -/
def HistoryItem.isNodeInterrupted : HistoryItem X → Bool
  | .nodeInterrupted _ => true
  | _ => false

/-- **The start has failed, and its first node runs on**: nothing has told it to stop, its outcome
changes the state of the run, and a third node is launched. -/
theorem abandoned :
    ∃ s t, Run (step strict) Free initial
        [.start, .launchResolved .start, .resume .start, .launchRejected .start "no capacity"] s ∧
      Run (step strict) Free s [.submit 0 .null, .dequeue] t ∧
      (s.startFlow matches .failed _) = true ∧ s.statusOf 0 = some .running ∧
      s.aborted = none ∧ (∀ entry, .nodeInterrupted entry ∉ s.history) ∧
      s.state.map (·.version) = some 0 ∧ t.state.map (·.version) = some 1 ∧
      s.nodes.length = 2 ∧ t.nodes.length = 3 ∧ ¬ LeavesNothing strict s := by
  obtain ⟨s, t, hs, ht, hp⟩ := exists_run_run (step strict) Free initial
    [.start, .launchResolved .start, .resume .start, .launchRejected .start "no capacity"]
    [.submit 0 .null, .dequeue]
    (fun s t => s.startFlow.isFailed && s.statusOf 0 == some .running &&
      s.aborted == none && s.history.all (fun item => !item.isNodeInterrupted) &&
      s.state.map (·.version) == some 0 && t.state.map (·.version) == some 1 &&
      s.nodes.length == 2 && t.nodes.length == 3) (by decide +kernel)
  simp only [Bool.and_eq_true, beq_iff_eq, List.all_eq_true] at hp
  obtain ⟨⟨⟨⟨⟨⟨⟨hfailed, hrunning⟩, haborted⟩, htold⟩, hs₀⟩, ht₁⟩, hs₂⟩, ht₃⟩ := hp
  refine ⟨s, t, hs, ht, hfailed, hrunning, haborted, fun entry hmem => ?_, hs₀, ht₁, hs₂, ht₃,
    fun h => ?_⟩
  · cases htold _ hmem
  · have := (h.unmoved _ t ht).nodes
    omega

end EphemeralAgent.Workflow
