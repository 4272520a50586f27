import EphemeralAgent.Workflow.Frozen

/-!
# Launches and the end of a run

`#dispatch` looks at `is_workflow_done` once, before its launch loop.  A run can finish while a
loop still has dispatches left: a launch that throws, or an early submission, settles a node in
the middle of it.

* `no_launch_after_finish` — no node is launched after the end of a run that finishes between
  launch loops and is not reopened
* `launched_after_finish` — a run that finishes inside a launch loop launches the rest
-/

namespace EphemeralAgent.Workflow

open EphemeralAgent.Lib

variable {X : Type} {c : WorkflowStartRequest X} {s t u : WorkflowRunInstance X}

/-! ## The condition -/

/-- Some suspended call of `#dispatch` has dispatches left to launch. -/
def launchesLeft (s : WorkflowRunInstance X) : Bool :=
  (s.frames .start ++ s.frames .queue).any fun frame => !frame.remaining.isEmpty

/-- The state that `evaluateWorkflowProgress` returns for a settlement that is accepted. -/
def Shown.evaluated (c : WorkflowStartRequest X) (sh : Shown X) (state : WorkflowState X) :
    Option (WorkflowState X) :=
  match c.implementation.applyNodeSettlement sh.closed.clock state sh.settlement
      sh.closed.runtimeSnapshot with
  | .error _ => none
  | .ok applied =>
    let run := evaluating sh.entry sh.settlement applied sh.closed
    match c.implementation.evaluateWorkflowProgress run.clock applied.state run.runtimeSnapshot with
    | .error _ => none
    | .ok evaluated => some evaluated.state

/-- The step has a settlement accepted and evaluated to a state that is not done. -/
def reopens (c : WorkflowStartRequest X) (s : WorkflowRunInstance X) (l : Label) : Bool :=
  accepts c s l &&
    match shown s l, s.state with
    | some sh, some state => (sh.evaluated c state).any fun next => !next.isWorkflowDone
    | _, _ => false

/-- Once the run is finished, no launch loop has dispatches left and no settlement reopens it. -/
def ClosesCleanly (c : WorkflowStartRequest X) (s : WorkflowRunInstance X) (l : Label) : Prop :=
  s.finished = true → launchesLeft s = false ∧ reopens c s l = false

instance (s : WorkflowRunInstance X) (l : Label) : Decidable (ClosesCleanly c s l) :=
  inferInstanceAs (Decidable (s.finished = true → launchesLeft s = false ∧ reopens c s l = false))

theorem launchesLeft_of_frames {flow : FlowId} {next : WorkflowNodeDispatch}
    {rest : List WorkflowNodeDispatch} {outer : List Frame} {awaiting : Option Nat}
    (h : s.frames flow = { awaiting, remaining := next :: rest } :: outer) :
    launchesLeft s = true := by
  unfold launchesLeft
  rw [List.any_eq_true]
  refine ⟨{ awaiting, remaining := next :: rest }, ?_, rfl⟩
  cases flow <;> simp [h]

/-! ## The order of launches and the end -/

/-- The later item is no launch after an end. -/
def NotAfter : HistoryItem X → HistoryItem X → Prop
  | .finished _, .launched _ => False
  | _, _ => True

/-- No launch follows an end, and there is no end before the run is finished. -/
structure Ordered (s : WorkflowRunInstance X) : Prop where
  order : s.history.Pairwise NotAfter
  unfinished : s.finished = false → ∀ outcome, .finished outcome ∉ s.history

theorem Ordered.of_eq (h : Ordered s) (hhistory : t.history = s.history)
    (hfinished : t.finished = s.finished) : Ordered t :=
  ⟨hhistory ▸ h.order, fun ht => hhistory ▸ h.unfinished (hfinished ▸ ht)⟩

/-- Items that are neither a launch nor an end. -/
def HistoryItem.quiet : HistoryItem X → Bool
  | .launched _ | .finished _ => false
  | _ => true

theorem notAfter_of_quiet {a b : HistoryItem X} (h : b.quiet = true) : NotAfter a b := by
  cases a <;> cases b <;> trivial

theorem Ordered.quiet (items : List (HistoryItem X)) (h : Ordered s)
    (hitems : ∀ item ∈ items, item.quiet = true) (hhistory : t.history = s.history ++ items)
    (hfinished : t.finished = s.finished) : Ordered t := by
  refine ⟨?_, fun ht outcome hmem => ?_⟩
  · rw [hhistory, List.pairwise_append]
    refine ⟨h.order, List.pairwise_of_forall_mem_list ?_, ?_⟩
    · exact fun a _ b hb => notAfter_of_quiet (hitems b hb)
    · exact fun a _ b hb => notAfter_of_quiet (hitems b hb)
  · rw [hhistory] at hmem
    rcases List.mem_append.mp hmem with hmem | hmem
    · exact h.unfinished (hfinished ▸ ht) outcome hmem
    · cases hitems _ hmem

theorem Ordered.control {faults : List Fault} (h : Ordered s) (hc : Control faults s t) :
    Ordered t := by
  obtain ⟨items, hitems, -, hbook⟩ := hc.history
  refine h.quiet items (fun item hitem => ?_) hitems hc.finished
  have := hbook item hitem
  cases item <;> first | rfl | cases this

/-- A launch of an unfinished run. -/
theorem Ordered.launch {entry : Nat} (h : Ordered s) (hs : s.finished = false)
    (hhistory : t.history = s.history ++ [.launched entry]) : Ordered t := by
  refine ⟨?_, fun _ outcome hmem => ?_⟩
  · rw [hhistory, List.pairwise_append]
    refine ⟨h.order, List.pairwise_singleton _ _, fun a ha b hb => ?_⟩
    obtain rfl := List.mem_singleton.mp hb
    cases a with
    | finished outcome => exact absurd ha (h.unfinished hs outcome)
    | _ => trivial
  · rw [hhistory] at hmem
    rcases List.mem_append.mp hmem with hmem | hmem
    · exact h.unfinished hs outcome hmem
    · simp at hmem

theorem Finished.ordered {outcome : WorkflowOutcome} (h : Finished outcome s t) (hs : Ordered s) :
    Ordered t := by
  cases h with
  | already => exact hs
  | finished =>
    refine ⟨?_, fun ht => by cases ht⟩
    simp only [List.pairwise_append, List.pairwise_singleton, List.mem_singleton, true_and]
    refine ⟨hs.order, fun a _ b hb => ?_⟩
    subst hb
    cases a <;> trivial

theorem Idled.ordered {state : WorkflowState X} {r : Except Fault Unit}
    (h : Idled c state s r t) (hs : Ordered s) : Ordered t := by
  cases h with
  | deadlocked _ report _ _ _ _ hu =>
    exact hu.ordered (hs.quiet [.deadlocked report] (by simp [HistoryItem.quiet]) rfl rfl)
  | snapshotThrew _ report =>
    exact hs.quiet [.deadlocked report] (by simp [HistoryItem.quiet]) rfl rfl
  | _ => exact hs.of_eq rfl rfl

theorem Dispatched.ordered {state : WorkflowState X} {r : Except Fault (Option Frame)}
    (h : Dispatched c state s r t) (hopen : state.isWorkflowDone = false → s.finished = false)
    (hs : Ordered s) : Ordered t := by
  cases h with
  | launched hdone => exact hs.launch (hopen hdone) rfl
  | idle _ _ _ _ _ hu => exact hu.ordered (hs.of_eq rfl rfl)
  | idleThrew _ _ _ _ _ _ hu => exact hu.ordered (hs.of_eq rfl rfl)
  | _ => exact hs.of_eq rfl rfl

theorem Concluded.ordered {state : WorkflowState X} {r : Except Fault (Option Frame)}
    (h : Concluded c state s r t) (hopen : state.isWorkflowDone = false → s.finished = false)
    (hs : Ordered s) : Ordered t := by
  cases h with
  | finished _ _ _ _ _ _ _ hu => exact hu.ordered (hs.of_eq rfl rfl)
  | continued hdone _ _ _ _ _ hu => exact hu.ordered hopen (hs.of_eq rfl rfl)
  | _ => exact hs.of_eq rfl rfl

theorem Started.ordered {r : Except Fault (Option Frame)} (h : Started c s r t)
    (hopen : s.finished = false) (hs : Ordered s) : Ordered t := by
  cases h with
  | threw => exact hs.of_eq rfl rfl
  | created state _ _ _ _ _ hu =>
    exact hu.ordered (fun _ => hopen)
      (hs.quiet [.created state] (by simp [HistoryItem.quiet]) rfl rfl)

theorem Interrupted.ordered {reason : String} {running : List Nat} {state : WorkflowState X}
    {r : Except Fault Unit} (h : Interrupted reason running state s r t) (hs : Ordered s) :
    Ordered t := by
  cases h with
  | threw => exact hs.quiet [.interrupted reason] (by simp [HistoryItem.quiet]) rfl rfl
  | done _ _ _ _ _ hu =>
    exact hu.ordered (hs.quiet [.interrupted reason] (by simp [HistoryItem.quiet]) rfl rfl)

theorem Applied.ordered {sh : Shown X} {state : WorkflowState X} {r : Except Fault (Option Frame)}
    (h : Applied c sh.entry sh.settlement state sh.closed r t)
    (hopen : ∀ next, sh.evaluated c state = some next → next.isWorkflowDone = false →
      sh.closed.finished = false)
    (hs : Ordered sh.closed) : Ordered t := by
  cases h with
  | applyThrew =>
    exact hs.quiet [.applyCalled sh.entry sh.settlement _ _] (by simp [HistoryItem.quiet]) rfl rfl
  | evaluateThrew =>
    exact hs.quiet [.applyCalled sh.entry sh.settlement _ _, .evaluateCalled _ _]
      (by simp [HistoryItem.quiet]) (List.append_assoc ..) rfl
  | evaluated applied happly stamp hstamp runtime hruntime evaluated hevaluate _ _ _ _ hu =>
    have hevaluated : sh.evaluated c state = some evaluated.state := by
      simp [Shown.evaluated, happly, ← hstamp, ← hruntime, hevaluate]
    refine hu.ordered (hopen _ hevaluated) ?_
    exact hs.quiet [.applyCalled sh.entry sh.settlement _ _, .evaluateCalled _ _]
      (by simp [HistoryItem.quiet]) (List.append_assoc ..) rfl

/-! ## No launch after the end -/

theorem ordered_step {l : Label} (hthreads : Threads s) (hok : ClosesCleanly c s l)
    (h : Stepped c s l t) (hs : Ordered s) : Ordered t := by
  cases h with
  | control _ _ hc => exact hs.control hc
  | started hidle r u _ hu hc =>
    have hopen : s.finished = false := by rw [hthreads.idle hidle]; rfl
    exact (hu.ordered hopen hs).control hc
  | launched flow next rest outer hframes _ _ hc =>
    have hopen : s.finished = false := by
      by_contra hfinished
      have := (hok (by simpa using hfinished)).1
      rw [launchesLeft_of_frames hframes] at this
      cases this
    refine Ordered.control ?_ hc
    exact hs.launch hopen rfl
  | settled sh hshown state hstate hverdict r u _ hu hc =>
    obtain ⟨queue, hin⟩ := shownIn_of_shown hshown
    obtain ⟨_, _, _, hclosed, -⟩ := hin.closed
    refine Ordered.control (hu.ordered ?_ (hs.of_eq (by rw [hclosed]) (by rw [hclosed]))) hc
    intro next hnext hdone
    rw [hin.finished]
    by_contra hfinished
    have := (hok (by simpa using hfinished)).2
    simp [reopens, accepts_of_shown hshown hstate hverdict, hshown, hstate, hnext, hdone] at this
  | interrupted _ _ _ _ _ _ u _ hu hc => exact (hu.ordered hs).control hc

/-- **Nothing is launched after `workflow_finished`**, in a run that finishes between launch loops
and is not reopened. -/
theorem no_launch_after_finish {ls : List Label}
    (run : Run (step c) (ClosesCleanly c) initial ls s) : s.history.Pairwise NotAfter := by
  have h : Ordered s :=
    run.invariant_of (J := fun s => WellStarted s ∧ Threads s)
      (fun r => ⟨wellStarted_of_run r, threads_of_run r⟩) ⟨.nil, fun _ _ hmem => by cases hmem⟩
      fun s l t hok hJ hs hstep => ordered_step hJ.2 hok (stepped_of_step hJ.1 hstep) hs
  exact h.order

theorem no_launch_after_finish_pair :
    ∃ s, Run (step (pair refuseDone)) (ClosesCleanly (pair refuseDone)) initial pairFinishes s ∧
      s.finished = true ∧ s.history.Pairwise NotAfter := by
  obtain ⟨s, hs, hfinished⟩ := exists_run (step (pair refuseDone))
    (ClosesCleanly (pair refuseDone)) initial pairFinishes (·.finished) (by decide)
  exact ⟨s, hs, hfinished, no_launch_after_finish hs⟩

/-- The second node is launched after the end. -/
def launchesLate : List (HistoryItem X) → Bool
  | [.created _, .launched 0, .applyCalled .., .evaluateCalled .., .finished _, .launched 1] => true
  | _ => false

/-- The launch of the first node throws, its settlement finishes the run, and the second node is
launched all the same. -/
theorem launched_after_finish :
    ∃ s, Run (step (pair refuseDone)) Free initial
        [.start, .launchRejected .start "no capacity", .resume .start] s ∧
      ¬ s.history.Pairwise NotAfter := by
  obtain ⟨s, hs, hp⟩ := exists_run (step (pair refuseDone)) Free initial
    [.start, .launchRejected .start "no capacity", .resume .start]
    (fun s => launchesLate s.history) (by decide)
  refine ⟨s, hs, ?_⟩
  unfold launchesLate at hp
  split at hp
  · next hhistory =>
    rw [hhistory]
    simp [NotAfter]
  · cases hp

end EphemeralAgent.Workflow
