import EphemeralAgent.Workflow.Inversion

/-!
# Settlements on their way to the implementation

* `shown` — the settlement that a step is about to show to `validateNodeSettlement`, if any
* `Submission`, `Settlement` — how `submitNodeCompletion` and `settleNodeRun` end
-/

namespace EphemeralAgent.Workflow

open EphemeralAgent.Lib

variable {X : Type}

/-! ## Settlements shown to the implementation -/

/-- A settlement about to be validated. -/
structure Shown (X : Type) where
  entry : Nat
  settlement : WorkflowNodeSettlement
  /-- The run when the validator is called. -/
  run : WorkflowRunInstance X
  /-- The run once the entry is closed, if the validator accepts. -/
  closed : WorkflowRunInstance X

/-- The settlement that `submitNodeCompletion` validates. -/
def shownSubmission (index : Nat) (entry : WorkflowNodeRunEntry) (payload : Json)
    (s : WorkflowRunInstance X) : Option (Shown X) :=
  if entry.status = .running then
    match entry.start.outcome.safeParse payload with
    | .error _ => none
    | .ok parsed =>
      let outcome : NodeOutcome := { outcomeName := entry.start.outcome.name, outcome := parsed }
      let run : WorkflowRunInstance X :=
        { s with
          clock := s.clock + 1
          events := s.events ++
            [{ body := .workflowNodeOutcomeReceived entry.start.node.name, time := s.clock }] }
      some
        { entry := index
          settlement := completedSettlement entry outcome
          run
          closed :=
            { run with
              clock := run.clock + 1 + 1
              nodes := run.nodes.modify index fun entry =>
                { entry with
                  status := .completed
                  completedAt := some (run.clock + 1)
                  accepted := some outcome } } }
  else none

/-- The settlement that `settleNodeRun` validates. -/
def shownSettlement (index : Nat) (entry : WorkflowNodeRunEntry)
    (settlement : WorkflowNodeSettlement) (s : WorkflowRunInstance X) : Option (Shown X) :=
  if settlement.status = .completed ∨ entry.status ≠ .running then none
  else
    some
      { entry := index
        settlement
        run := s
        closed :=
          { s with
            clock := s.clock + 1 + 1
            nodes := s.nodes.modify index fun entry =>
              { entry with status := settlement.status, completedAt := some (s.clock + 1) } } }

/-- The settlement that a step shows to the implementation, if it gets that far. -/
def shown (s : WorkflowRunInstance X) : Label → Option (Shown X)
  | .dequeue =>
    match s.active, s.queue with
    | none, .submit index payload :: rest =>
      s.nodes[index]?.bind fun entry => shownSubmission index entry payload { s with queue := rest }
    | none, .settle index settlement :: rest =>
      s.nodes[index]?.bind fun entry =>
        shownSettlement index entry settlement { s with queue := rest }
    | _, _ => none
  | .launchRejected flow reason =>
    match s.frames flow with
    | { awaiting := some index, remaining := _ } :: _ =>
      s.nodes[index]?.bind fun entry =>
        shownSettlement index entry (failedLaunchSettlement entry reason) s
    | _ => none
  | _ => none

/-- What the validator says. -/
def Shown.verdict (c : WorkflowStartRequest X) (sh : Shown X) (state : WorkflowState X) :
    Except String ValidationResult :=
  c.implementation.validateNodeSettlement sh.run.clock state sh.settlement sh.run.runtimeSnapshot

/-- What a shown settlement has to do with the run. -/
structure ShownIn (s : WorkflowRunInstance X) (sh : Shown X) : Prop where
  running : ∃ entry, s.nodes[sh.entry]? = some entry ∧ entry.status = .running
  closes : sh.settlement.status ≠ .running
  run : ∃ clock events, sh.run = { s with clock, events }
  closed : ∃ clock events close,
    sh.closed = { s with clock, events, nodes := s.nodes.modify sh.entry close } ∧
    ∀ entry, (close entry).status = sh.settlement.status ∧
      (close entry).metadata = entry.metadata ∧ (close entry).start = entry.start ∧
      (close entry).handle = entry.handle ∧ (close entry).settled = entry.settled

theorem shownIn_submission {index : Nat} {entry : WorkflowNodeRunEntry} {payload : Json}
    {s : WorkflowRunInstance X} {sh : Shown X} (hentry : s.nodes[index]? = some entry)
    (h : shownSubmission index entry payload s = some sh) : ShownIn s sh := by
  unfold shownSubmission at h
  split at h
  · next hrunning =>
    cases hparse : entry.start.outcome.safeParse payload with
    | error issues => simp [hparse] at h
    | ok parsed =>
      simp only [hparse, Option.some.injEq] at h
      subst h
      refine ⟨⟨entry, hentry, hrunning⟩, ?_, ⟨_, _, rfl⟩, ⟨_, _, _, rfl, ?_⟩⟩
      · simp [completedSettlement, WorkflowNodeSettlement.status]
      · intro e
        exact ⟨rfl, rfl, rfl, rfl, rfl⟩
  · cases h

theorem shownSubmission_entry {index : Nat} {entry : WorkflowNodeRunEntry} {payload : Json}
    {s : WorkflowRunInstance X} {sh : Shown X}
    (h : shownSubmission index entry payload s = some sh) : sh.entry = index := by
  unfold shownSubmission at h
  split at h
  · split at h
    · cases h
    · simp only [Option.some.injEq] at h
      subst h
      rfl
  · cases h

theorem shownSettlement_entry {index : Nat} {entry : WorkflowNodeRunEntry}
    {settlement : WorkflowNodeSettlement} {s : WorkflowRunInstance X} {sh : Shown X}
    (h : shownSettlement index entry settlement s = some sh) : sh.entry = index := by
  unfold shownSettlement at h
  split at h
  · cases h
  · simp only [Option.some.injEq] at h
    subst h
    rfl

theorem status_ne_running (settlement : WorkflowNodeSettlement) :
    settlement.status ≠ .running := by
  cases settlement <;> simp [WorkflowNodeSettlement.status]

theorem shownIn_settlement {index : Nat} {entry : WorkflowNodeRunEntry}
    {settlement : WorkflowNodeSettlement} {s : WorkflowRunInstance X} {sh : Shown X}
    (hentry : s.nodes[index]? = some entry)
    (h : shownSettlement index entry settlement s = some sh) : ShownIn s sh := by
  unfold shownSettlement at h
  split at h
  · cases h
  · next hnot =>
    rw [not_or, not_not] at hnot
    simp only [Option.some.injEq] at h
    subst h
    refine ⟨⟨entry, hentry, hnot.2⟩, status_ne_running _, ⟨_, _, rfl⟩, ⟨_, _, _, rfl, ?_⟩⟩
    intro e
    exact ⟨rfl, rfl, rfl, rfl, rfl⟩

/-- The record of a shown settlement, whichever step shows it. -/
theorem shownIn_of_shown {s : WorkflowRunInstance X} {l : Label} {sh : Shown X}
    (h : shown s l = some sh) : ∃ queue, ShownIn { s with queue } sh := by
  unfold shown at h
  split at h
  · split at h
    · next rest _ _ =>
      obtain ⟨entry, hentry, hsh⟩ := Option.bind_eq_some_iff.mp h
      exact ⟨rest, shownIn_submission hentry hsh⟩
    · next rest _ _ =>
      obtain ⟨entry, hentry, hsh⟩ := Option.bind_eq_some_iff.mp h
      exact ⟨rest, shownIn_settlement hentry hsh⟩
    · cases h
  · split at h
    · obtain ⟨entry, hentry, hsh⟩ := Option.bind_eq_some_iff.mp h
      exact ⟨s.queue, shownIn_settlement hentry hsh⟩
    · cases h
  · cases h

/-! ## Submitting and settling -/

section Methods

variable {c : WorkflowStartRequest X} {s : WorkflowRunInstance X}

/-- How `submitNodeCompletion` ends. -/
inductive Submission (c : WorkflowStartRequest X) (index : Nat) (entry : WorkflowNodeRunEntry)
    (payload : Json) (state : WorkflowState X) (s : WorkflowRunInstance X) :
    Except Fault Submitted → WorkflowRunInstance X → Prop
  | rejected (reason : String) (h : shownSubmission index entry payload s = none) :
      Submission c index entry payload state s (.ok (.rejected reason)) s
  | validateThrew (sh : Shown X) (h : shownSubmission index entry payload s = some sh)
      (message : String) (hverdict : sh.verdict c state = .error message)
      (clock : Stamp) (events : List WorkflowRunEvent) :
      Submission c index entry payload state s (.error ⟨.validateSubmission, message⟩)
        { s with clock, events }
  | refused (sh : Shown X) (h : shownSubmission index entry payload s = some sh)
      (reason : String) (hverdict : sh.verdict c state = .ok (.refused reason))
      (clock : Stamp) (events : List WorkflowRunEvent) :
      Submission c index entry payload state s (.ok (.rejected reason)) { s with clock, events }
  | applied (sh : Shown X) (h : shownSubmission index entry payload s = some sh)
      (hverdict : sh.verdict c state = .ok .ok) (outcome : NodeOutcome) (frame : Option Frame)
      (t : WorkflowRunInstance X)
      (ht : Applied c sh.entry sh.settlement state sh.closed (.ok frame) t) :
      Submission c index entry payload state s (.ok (.applied outcome frame)) t
  | threw (sh : Shown X) (h : shownSubmission index entry payload s = some sh)
      (hverdict : sh.verdict c state = .ok .ok) (fault : Fault) (t : WorkflowRunInstance X)
      (ht : Applied c sh.entry sh.settlement state sh.closed (.error fault) t) :
      Submission c index entry payload state s (.error fault) t

theorem submitNodeCompletion_cases {state : WorkflowState X} (h : s.state = some state)
    (index : Nat) (entry : WorkflowNodeRunEntry) (payload : Json) :
    Submission c index entry payload state s (submitNodeCompletion c index entry payload s).1
      (submitNodeCompletion c index entry payload s).2 := by
  unfold submitNodeCompletion
  by_cases hrunning : entry.status = .running
  · rw [if_neg (not_not.mpr hrunning)]
    cases hparse : entry.start.outcome.safeParse payload with
    | error issues =>
      exact .rejected _ (by simp [shownSubmission, hrunning, hparse])
    | ok parsed =>
      have hshown := shownSubmission.eq_1 index entry payload s
      rw [if_pos hrunning, hparse] at hshown
      simp only [Sync.bind_run, emit_run, requireState_run (s := { s with
        clock := s.clock + 1
        events := s.events ++
          [{ body := .workflowNodeOutcomeReceived entry.start.node.name, time := s.clock }] }) h,
        Sync.get_run, callback_run]
      generalize hv : c.implementation.validateNodeSettlement _ state _ _ = verdict
      cases verdict with
      | error message => exact .validateThrew _ hshown message hv _ _
      | ok answer =>
        cases answer with
        | refused reason => exact .refused _ hshown reason hv _ _
        | ok =>
          simp only [Except.mapError, Sync.bind_run, now_run, updateEntry_run]
          generalize hu : (WorkflowRunInstance.mk .. : WorkflowRunInstance X) = u
          have happlied := applyValidatedSettlement_cases (c := c) (s := u)
            (by rw [← hu]; exact h) index
            (completedSettlement entry { outcomeName := entry.start.outcome.name, outcome := parsed })
          cases hr : applyValidatedSettlement c index (completedSettlement entry
              { outcomeName := entry.start.outcome.name, outcome := parsed }) u with
          | mk r t =>
            rw [hr] at happlied
            subst hu
            cases r with
            | error fault => exact .threw _ hshown hv fault t happlied
            | ok frame => exact .applied _ hshown hv _ frame t happlied
  · rw [if_pos hrunning]
    exact .rejected _ (by simp [shownSubmission, hrunning])

/-- How `settleNodeRun` ends. -/
inductive Settlement (c : WorkflowStartRequest X) (index : Nat) (entry : WorkflowNodeRunEntry)
    (settlement : WorkflowNodeSettlement) (state : WorkflowState X) (s : WorkflowRunInstance X) :
    Except Fault (Option Frame) → WorkflowRunInstance X → Prop
  | completed (h : shownSettlement index entry settlement s = none) :
      Settlement c index entry settlement state s (.ok none) s
  | stale (h : shownSettlement index entry settlement s = none) (message : String) :
      Settlement c index entry settlement state s (.error ⟨.staleNodeRun, message⟩) s
  | validateThrew (sh : Shown X) (h : shownSettlement index entry settlement s = some sh)
      (message : String) (hverdict : sh.verdict c state = .error message) (clock : Stamp) :
      Settlement c index entry settlement state s (.error ⟨.validateSettlement, message⟩)
        { s with clock }
  | refused (sh : Shown X) (h : shownSettlement index entry settlement s = some sh)
      (reason : String) (hverdict : sh.verdict c state = .ok (.refused reason)) (clock : Stamp) :
      Settlement c index entry settlement state s (.error ⟨.refusedSettlement, reason⟩)
        { s with clock }
  | applied (sh : Shown X) (h : shownSettlement index entry settlement s = some sh)
      (hverdict : sh.verdict c state = .ok .ok) (r : Except Fault (Option Frame))
      (t : WorkflowRunInstance X)
      (ht : Applied c sh.entry sh.settlement state sh.closed r t) :
      Settlement c index entry settlement state s r t

theorem settleNodeRun_cases {state : WorkflowState X} (h : s.state = some state)
    (index : Nat) (entry : WorkflowNodeRunEntry) (settlement : WorkflowNodeSettlement) :
    Settlement c index entry settlement state s (settleNodeRun c index entry settlement s).1
      (settleNodeRun c index entry settlement s).2 := by
  unfold settleNodeRun
  by_cases hcompleted : settlement.status = .completed
  · rw [if_pos hcompleted]
    exact .completed (by simp [shownSettlement, hcompleted])
  · rw [if_neg hcompleted]
    by_cases hrunning : entry.status = .running
    · have hshown := shownSettlement.eq_1 index entry settlement s
      rw [if_neg (by simp [hcompleted, hrunning])] at hshown
      simp only [Sync.bind_run, requireState_run h, Sync.get_run, callback_run, hrunning,
        ne_eq, not_true_eq_false, if_false]
      generalize hv : c.implementation.validateNodeSettlement _ state _ _ = verdict
      cases verdict with
      | error message => exact .validateThrew _ hshown message hv _
      | ok answer =>
        cases answer with
        | refused reason => exact .refused _ hshown reason hv _
        | ok =>
          simp only [Except.mapError, Sync.bind_run, now_run, updateEntry_run]
          exact .applied _ hshown hv _ _ (applyValidatedSettlement_cases (by exact h) _ _)
    · simp only [Sync.bind_run, ne_eq, hrunning, not_false_eq_true, if_true, Sync.throw_run]
      exact .stale (by simp [shownSettlement, hrunning]) _

end Methods

end EphemeralAgent.Workflow
