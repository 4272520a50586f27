import EphemeralAgent.Workflow.Stepped

/-!
# What a run emits

A relation between the states before and after that is kept by the four ways in which the code writes
to the events, the snapshots and the outcome is kept by every method and by every step.

* `TraceRule` — the four ways
* `TraceRule.step` — **a step keeps what the four ways keep**
* `Logged` — one such relation: nothing that was emitted changes, and what is new is accounted for
-/

namespace EphemeralAgent.Workflow

open EphemeralAgent.Lib Sync

variable {X : Type} {c : WorkflowStartRequest X} {s t : WorkflowRunInstance X}

/-! ## Events -/

/-- `workflow_snapshot_recorded`. -/
def WorkflowRunEventBody.isSnapshot : WorkflowRunEventBody → Bool
  | .workflowSnapshotRecorded _ => true
  | _ => false

/-- The outcome of a `workflow_finished`. -/
def WorkflowRunEventBody.outcome? : WorkflowRunEventBody → Option WorkflowOutcome
  | .workflowFinished outcome => some outcome
  | _ => none

/-- The relation is kept by whatever leaves events, snapshots and outcome alone, by an event of
another kind, by `#recordSnapshot` and by the first `#finish`. -/
structure TraceRule (R : WorkflowRunInstance X → WorkflowRunInstance X → Prop) : Prop where
  trans : ∀ {s t u}, R s t → R t u → R s u
  silent : ∀ {s t}, t.events = s.events → t.snapshots = s.snapshots → t.finished = s.finished →
    t.outcome = s.outcome → R s t
  emit : ∀ {s} body time, body.isSnapshot = false → body.outcome? = none →
    R s { s with events := s.events ++ [{ body, time }] }
  record : ∀ {s} snapshot version time, R s { s with
    snapshots := s.snapshots ++ [snapshot]
    events := s.events ++ [{ body := .workflowSnapshotRecorded version, time }] }
  finish : ∀ {s} outcome time, s.finished = false → R s { s with
    finished := true
    outcome := some outcome
    events := s.events ++ [{ body := .workflowFinished outcome, time }] }

namespace TraceRule

variable {R : WorkflowRunInstance X → WorkflowRunInstance X → Prop}

/-! ## The methods -/

section Methods

theorem refl (h : TraceRule R) (s : WorkflowRunInstance X) : R s s :=
  h.silent rfl rfl rfl rfl

theorem bind (h : TraceRule R) {α β : Type} {m : RunM X α} {f : α → RunM X β} (hm : Within R m)
    (hf : ∀ a, Within R (f a)) : Within R (m >>= f) :=
  within_bind (R := R) (fun h₁ h₂ => h.trans h₁ h₂) hm hf

theorem ite {α : Type} {p : Prop} [Decidable p] {m n : RunM X α} (hm : Within R m)
    (hn : Within R n) : Within R (if p then m else n) := by
  by_cases hp : p
  · rwa [if_pos hp]
  · rwa [if_neg hp]

theorem pure (h : TraceRule R) {α : Type} (a : α) : Within R (Pure.pure a : RunM X α) :=
  within_pure h.refl a

theorem throw (h : TraceRule R) {α : Type} (fault : Fault) :
    Within R (Sync.throw fault : RunM X α) :=
  within_throw h.refl fault

theorem get (h : TraceRule R) : Within R (Sync.get : RunM X (WorkflowRunInstance X)) :=
  within_get h.refl

/-- A write that leaves events, snapshots and outcome alone. -/
theorem modify (h : TraceRule R) {f : WorkflowRunInstance X → WorkflowRunInstance X}
    (hf : ∀ s, (f s).events = s.events ∧ (f s).snapshots = s.snapshots ∧
      (f s).finished = s.finished ∧ (f s).outcome = s.outcome) :
    Within R (Sync.modify f : RunM X Unit) := by
  intro s
  obtain ⟨hevents, hsnapshots, hfinished, houtcome⟩ := hf s
  exact h.silent hevents hsnapshots hfinished houtcome

theorem now (h : TraceRule R) : Within R (Workflow.now : RunM X Stamp) :=
  fun _ => h.silent rfl rfl rfl rfl

theorem lift (h : TraceRule R) {α : Type} (r : Except Fault α) :
    Within R (Sync.lift r : RunM X α) :=
  within_lift h.refl r

theorem note (h : TraceRule R) (item : HistoryItem X) : Within R (Workflow.note item) :=
  h.modify fun _ => ⟨rfl, rfl, rfl, rfl⟩

theorem noteCall (h : TraceRule R) (item : Stamp → HistoryItem X) :
    Within R (Workflow.noteCall item) :=
  h.bind h.now fun _ => h.bind (h.note _) fun _ => h.pure _

theorem callback (h : TraceRule R) {α : Type} (site : Site) (call : Stamp → Except String α) :
    Within R (Workflow.callback site call : RunM X α) :=
  h.bind h.now fun _ => h.lift _

theorem requireState (h : TraceRule R) :
    Within R (Workflow.requireState : RunM X (WorkflowState X)) := by
  refine h.bind h.get fun s => ?_
  cases s.state with
  | none => exact h.throw _
  | some state => exact h.pure _

theorem setState (h : TraceRule R) (state : WorkflowState X) : Within R (Workflow.setState state) :=
  h.modify fun _ => ⟨rfl, rfl, rfl, rfl⟩

theorem updateEntry (h : TraceRule R) (entry : Nat)
    (f : WorkflowNodeRunEntry → WorkflowNodeRunEntry) :
    Within R (Workflow.updateEntry entry f : RunM X Unit) :=
  h.modify fun _ => ⟨rfl, rfl, rfl, rfl⟩

theorem emitted (h : TraceRule R) {body : WorkflowRunEventBody} (hsnapshot : body.isSnapshot = false)
    (houtcome : body.outcome? = none) : Within R (Workflow.emit body : RunM X Unit) := by
  refine h.bind h.now fun time => ?_
  exact fun s => h.emit body time hsnapshot houtcome

/-- The snapshot and its event are one write. -/
theorem recordSnapshot (h : TraceRule R) : Within R (Workflow.recordSnapshot c) := by
  refine h.bind h.requireState fun state => ?_
  refine h.bind h.now fun recordedAt => ?_
  refine h.bind (h.lift _) fun json => ?_
  intro s
  exact h.trans (h.record { version := state.version, recordedAt, state := json } state.version s.clock)
    (h.silent rfl rfl rfl rfl)

/-- Only the first `#finish` writes, and its event and its outcome are one write. -/
theorem finished (h : TraceRule R) (outcome : WorkflowOutcome) :
    Within R (Workflow.finish (X := X) outcome) := by
  intro s
  simp only [Workflow.finish, Sync.bind_run, Sync.get_run, Sync.ite_run]
  cases hfinished : s.finished with
  | true => exact h.refl s
  | false => exact h.trans (h.finish outcome s.clock hfinished) (h.silent rfl rfl rfl rfl)

theorem finishIfDone (h : TraceRule R) : Within R (Workflow.finishIfDone c) := by
  refine h.bind h.requireState fun state => ite (h.pure _) ?_
  refine h.bind (h.callback _ _) fun outcome => ?_
  exact h.bind (h.finished _) fun _ => h.pure _

theorem applyTransition (h : TraceRule R) (result : StateTransitionResult X) :
    Within R (Workflow.applyTransition result) := by
  refine h.bind (h.setState _) fun _ => ?_
  cases result.transition with
  | none => exact h.pure _
  | some transition => exact h.emitted rfl rfl

theorem deadlockIfIdle (h : TraceRule R) : Within R (Workflow.deadlockIfIdle c) := by
  refine h.bind h.requireState fun state => h.bind h.get fun s => ite (h.pure _) ?_
  refine ite (h.pure _) (h.bind (h.callback _ _) fun report => ?_)
  cases report with
  | none => exact h.pure _
  | some report =>
    refine h.bind (h.setState _) fun _ => h.bind (h.note _) fun _ => ?_
    refine h.bind (h.emitted rfl rfl) fun _ => h.bind (h.emitted rfl rfl) fun _ => ?_
    exact h.bind h.recordSnapshot fun _ => h.finished _

theorem claimAndLaunch (h : TraceRule R) (next : WorkflowNodeDispatch) :
    Within R (Workflow.claimAndLaunch (X := X) next) :=
  fun _ => h.silent rfl rfl rfl rfl

theorem dispatch (h : TraceRule R) : Within R (Workflow.dispatch c) := by
  refine h.bind h.requireState fun state => ite (h.pure _) (h.bind h.get fun s => ?_)
  refine h.bind (h.callback _ _) fun dispatches => ?_
  refine h.bind (h.modify fun _ => ⟨rfl, rfl, rfl, rfl⟩) fun _ => ?_
  cases dispatches with
  | nil => exact h.bind h.deadlockIfIdle fun _ => h.pure _
  | cons first rest =>
    refine h.bind (h.emitted rfl rfl) fun _ => ?_
    exact h.bind (h.claimAndLaunch _) fun _ => h.pure _

/-- The end of `start()` and of every settlement. -/
theorem conclude (h : TraceRule R) : Within R (do
    Workflow.recordSnapshot c
    let done ← Workflow.finishIfDone c
    if done then return none
    Workflow.dispatch c : RunM X (Option Frame)) :=
  h.bind h.recordSnapshot fun _ => h.bind h.finishIfDone fun _ => ite (h.pure _) h.dispatch

theorem applyValidatedSettlement (h : TraceRule R) (entry : Nat)
    (settlement : WorkflowNodeSettlement) :
    Within R (Workflow.applyValidatedSettlement c entry settlement) := by
  refine h.bind h.requireState fun state => h.bind h.get fun s => ?_
  refine h.bind (h.noteCall _) fun stamp => h.bind (h.lift _) fun applied => ?_
  refine h.bind (h.applyTransition _) fun _ => ?_
  refine h.bind h.requireState fun state => h.bind h.get fun s => ?_
  refine h.bind (h.noteCall _) fun stamp => h.bind (h.lift _) fun evaluated => ?_
  exact h.bind (h.applyTransition _) fun _ => h.conclude

theorem submitNodeCompletion (h : TraceRule R) (index : Nat) (entry : WorkflowNodeRunEntry)
    (payload : Json) : Within R (Workflow.submitNodeCompletion c index entry payload) := by
  unfold Workflow.submitNodeCompletion
  refine ite (h.pure _) ?_
  cases entry.start.outcome.safeParse payload with
  | error issues => exact h.pure _
  | ok parsed =>
    refine h.bind (h.emitted rfl rfl) fun _ => h.bind h.requireState fun state => ?_
    refine h.bind h.get fun s => h.bind (h.callback _ _) fun validation => ?_
    cases validation with
    | refused reason => exact h.pure _
    | ok =>
      refine h.bind h.now fun completedAt => h.bind (h.updateEntry _ _) fun _ => ?_
      exact h.bind (h.applyValidatedSettlement _ _) fun _ => h.pure _

theorem settleNodeRun (h : TraceRule R) (index : Nat) (entry : WorkflowNodeRunEntry)
    (settlement : WorkflowNodeSettlement) :
    Within R (Workflow.settleNodeRun c index entry settlement) := by
  unfold Workflow.settleNodeRun
  refine ite (h.pure _) ?_
  -- the code after the guard on `status` stands in both branches
  refine ite (h.bind (h.throw _) fun _ => ?_) ?_
  all_goals
    refine h.bind h.requireState fun state => h.bind h.get fun s => ?_
    refine h.bind (h.callback _ _) fun validation => ?_
    cases validation with
    | refused reason => exact h.throw _
    | ok =>
      refine h.bind h.now fun completedAt => h.bind (h.updateEntry _ _) fun _ => ?_
      exact h.applyValidatedSettlement _ _

theorem completeInterrupt (h : TraceRule R) (reason : String) (running : List Nat) :
    Within R (Workflow.completeInterrupt c reason running) := by
  refine h.bind h.now fun completedAt => h.bind (h.modify fun _ => ⟨rfl, rfl, rfl, rfl⟩) fun _ => ?_
  refine h.bind h.requireState fun state => h.bind (h.setState _) fun _ => ?_
  refine h.bind (h.note _) fun _ => h.bind (h.emitted rfl rfl) fun _ => ?_
  exact h.bind h.recordSnapshot fun _ => h.finished _

theorem startRun (h : TraceRule R) : Within R (Workflow.startRun c) := by
  refine h.bind (h.callback _ _) fun state => h.bind (h.setState _) fun _ => ?_
  exact h.bind (h.note _) fun _ => h.bind (h.emitted rfl rfl) fun _ => h.conclude

end Methods

/-! ## The steps -/

theorem answer (h : TraceRule R) (entry : Nat) (result : SubmissionResult) (before : Observed X) :
    R s (Workflow.answer entry result before s) :=
  h.silent rfl rfl rfl rfl

theorem setFrames (h : TraceRule R) (flow : FlowId) (frames : List Frame) :
    R s (Workflow.setFrames flow frames s) := by
  cases flow with
  | start => cases frames <;> exact h.silent rfl rfl rfl rfl
  | queue =>
    unfold Workflow.setFrames
    simp only
    split
    · next task _ _ => cases task <;> exact h.silent rfl rfl rfl rfl
    · exact h.silent rfl rfl rfl rfl
    · exact h.refl s

/-- The thread goes on from a state that differs from `s` in control only. -/
theorem resumed (h : TraceRule R) {flow : FlowId} {frames : List Frame}
    (hevents : t.events = s.events) (hsnapshots : t.snapshots = s.snapshots)
    (hfinished : t.finished = s.finished) (houtcome : t.outcome = s.outcome) :
    R s (Workflow.setFrames flow frames t) :=
  h.trans (h.silent hevents hsnapshots hfinished houtcome) (h.setFrames _ _)

theorem failFlow (h : TraceRule R) (flow : FlowId) (fault : Fault) :
    R s (Workflow.failFlow flow fault s) := by
  cases flow with
  | start => exact h.silent rfl rfl rfl rfl
  | queue =>
    unfold Workflow.failFlow
    simp only
    split
    · next task _ _ => cases task <;> exact h.silent rfl rfl rfl rfl
    · exact h.refl s

theorem proceed (h : TraceRule R) {flow : FlowId}
    {x : Except Fault (Option Frame) × WorkflowRunInstance X} (hx : R s x.2) (outer : List Frame) :
    R s (Workflow.proceed flow outer x) := by
  obtain ⟨r, u⟩ := x
  cases r with
  | error fault => exact h.trans hx (h.failFlow _ _)
  | ok frame => exact h.trans hx (h.setFrames _ _)

theorem stepSubmit (h : TraceRule R) (index : Nat) (entry : WorkflowNodeRunEntry) (payload : Json) :
    R s (Workflow.stepSubmit c index entry payload s) := by
  have hm := h.submitNodeCompletion (c := c) index entry payload s
  unfold Workflow.stepSubmit
  cases hr : Workflow.submitNodeCompletion c index entry payload s with
  | mk r u =>
    rw [hr] at hm
    rcases r with fault | reason | ⟨outcome, frame⟩
    · exact h.trans hm (h.silent rfl rfl rfl rfl)
    · exact h.trans hm (h.answer _ _ _)
    · refine h.trans hm ?_
      exact h.resumed rfl rfl rfl rfl

theorem stepSettle (h : TraceRule R) (index : Nat) (entry : WorkflowNodeRunEntry)
    (settlement : WorkflowNodeSettlement) : R s (Workflow.stepSettle c index entry settlement s) := by
  have hm := h.settleNodeRun (c := c) index entry settlement s
  unfold Workflow.stepSettle
  cases hr : Workflow.settleNodeRun c index entry settlement s with
  | mk r u =>
    rw [hr] at hm
    cases r with
    | error fault => exact h.trans hm (h.silent rfl rfl rfl rfl)
    | ok frame =>
      refine h.trans hm ?_
      exact h.resumed rfl rfl rfl rfl

theorem stepInterrupt (h : TraceRule R) (reason : String) : R s (Workflow.stepInterrupt reason s) := by
  unfold Workflow.stepInterrupt beginInterrupt
  simp only [Sync.bind_run, Sync.get_run, Sync.ite_run]
  cases s.finished with
  | true => exact h.refl s
  | false => exact h.silent rfl rfl rfl rfl

/-- **A step keeps what the four ways of writing keep.** -/
theorem step (h : TraceRule R) {l : Label} (hstep : Workflow.step c s l = some t) : R s t := by
  have hqueue : ∀ queue, R s { s with queue } := fun queue => h.silent rfl rfl rfl rfl
  cases fired_of_step hstep with
  | start hidle =>
    rw [stepStart_eq]
    exact h.proceed (h.startRun s) []
  | launchResolved flow index remaining outer hframes =>
    exact h.resumed rfl rfl rfl rfl
  | launchRejected flow reason index entry remaining outer hframes hentry =>
    rw [stepLaunchRejected_eq]
    exact h.proceed (h.settleNodeRun index entry _ s) _
  | resume flow remaining outer hframes =>
    cases remaining with
    | nil => exact h.setFrames _ _
    | cons next rest =>
      simp only [stepResume, claimAndLaunch_run]
      exact h.resumed rfl rfl rfl rfl
  | submit index payload hlt => exact hqueue _
  | nodeSettled index entry settlement hentry hhandle hopen =>
    unfold stepNodeSettled
    simp only
    split
    · exact h.silent rfl rfl rfl rfl
    · split <;> exact h.silent rfl rfl rfl rfl
  | interrupt reason hreturned => exact hqueue _
  | takesSubmit index entry payload rest hactive hqueue' hentry =>
    exact h.trans (hqueue rest) (h.stepSubmit _ _ _)
  | takesSettle index entry settlement rest hactive hqueue' hentry =>
    exact h.trans (hqueue rest) (h.stepSettle _ _ _)
  | takesInterrupt reason rest hactive hqueue' => exact h.trans (hqueue rest) (h.stepInterrupt reason)
  | interruptsResolved reason running hactive =>
    have hm := h.completeInterrupt (c := c) reason running s
    unfold stepInterruptsResolved
    cases hr : Workflow.completeInterrupt c reason running s with
    | mk r u =>
      rw [hr] at hm
      cases r with
      | error fault => exact h.trans hm (h.silent rfl rfl rfl rfl)
      | ok _ => exact h.trans hm (h.silent rfl rfl rfl rfl)
  | interruptsRejected message reason running hactive => exact h.silent rfl rfl rfl rfl

end TraceRule

/-! ## The log of a run -/

/-- The outcomes of the events. -/
def finishes (events : List WorkflowRunEvent) : List WorkflowOutcome :=
  events.filterMap (·.body.outcome?)

/-- How many snapshots the events tell of. -/
def snapshotEvents (events : List WorkflowRunEvent) : Nat :=
  events.countP (·.body.isSnapshot)

/-- The log agrees with the run: `workflow_finished` tells its outcome, once, and every snapshot has
its event. -/
structure Whole (s : WorkflowRunInstance X) : Prop where
  told : finishes s.events = s.outcome.toList
  finished : s.outcome.isSome = s.finished
  snapshots : snapshotEvents s.events = s.snapshots.length

theorem whole_initial : Whole (initial : WorkflowRunInstance X) :=
  ⟨rfl, rfl, rfl⟩

/-- Events and snapshots are added, the outcome stays, and the log goes on agreeing with the run. -/
structure Logged (s t : WorkflowRunInstance X) : Prop where
  events : s.events <+: t.events
  snapshots : s.snapshots <+: t.snapshots
  outcome : Whole s → ∀ outcome, s.outcome = some outcome → t.outcome = some outcome
  whole : Whole s → Whole t

theorem Whole.emit (h : Whole s) {body : WorkflowRunEventBody} {time : Stamp}
    (hsnapshot : body.isSnapshot = false) (houtcome : body.outcome? = none) :
    Whole { s with events := s.events ++ [{ body, time }] } := by
  refine ⟨?_, h.finished, ?_⟩
  · show finishes (s.events ++ [_]) = s.outcome.toList
    have hnone : finishes [{ body, time }] = [] := by simp [finishes, houtcome]
    unfold finishes at hnone ⊢
    rw [List.filterMap_append, hnone, List.append_nil]
    exact h.told
  · show snapshotEvents (s.events ++ [_]) = s.snapshots.length
    unfold snapshotEvents
    rw [List.countP_append, List.countP_singleton, if_neg (by simp [hsnapshot])]
    exact h.snapshots

theorem Whole.record (h : Whole s) (snapshot : StateSnapshot) (version : Nat) (time : Stamp) :
    Whole { s with
      snapshots := s.snapshots ++ [snapshot]
      events := s.events ++ [{ body := .workflowSnapshotRecorded version, time }] } := by
  refine ⟨?_, h.finished, ?_⟩
  · show finishes (s.events ++ [_]) = s.outcome.toList
    unfold finishes
    rw [List.filterMap_append]
    exact (List.append_nil _).trans h.told
  · show snapshotEvents (s.events ++ [_]) = (s.snapshots ++ [snapshot]).length
    unfold snapshotEvents
    rw [List.countP_append, List.length_append, ← h.snapshots]
    rfl

theorem Whole.finish (h : Whole s) (hopen : s.finished = false) (outcome : WorkflowOutcome)
    (time : Stamp) :
    Whole { s with
      finished := true
      outcome := some outcome
      events := s.events ++ [{ body := .workflowFinished outcome, time }] } := by
  have hnone : s.outcome = none := by
    have := h.finished
    rw [hopen] at this
    simpa using this
  refine ⟨?_, rfl, ?_⟩
  · show finishes (s.events ++ [_]) = [outcome]
    have hold := h.told
    unfold finishes at hold ⊢
    rw [List.filterMap_append, hold, hnone]
    rfl
  · show snapshotEvents (s.events ++ [_]) = s.snapshots.length
    unfold snapshotEvents
    rw [List.countP_append]
    exact h.snapshots

/-- **The log of a run only grows, and agrees with the run.** -/
theorem logged_rule : TraceRule (Logged (X := X)) where
  trans h₁ h₂ :=
    { events := h₁.events.trans h₂.events
      snapshots := h₁.snapshots.trans h₂.snapshots
      outcome := fun hs o ho => h₂.outcome (h₁.whole hs) o (h₁.outcome hs o ho)
      whole := fun hs => h₂.whole (h₁.whole hs) }
  silent hevents hsnapshots hfinished houtcome :=
    { events := hevents ▸ List.prefix_refl _
      snapshots := hsnapshots ▸ List.prefix_refl _
      outcome := fun _ o ho => houtcome.trans ho
      whole := fun hs => ⟨by rw [hevents, houtcome]; exact hs.told,
        by rw [houtcome, hfinished]; exact hs.finished,
        by rw [hevents, hsnapshots]; exact hs.snapshots⟩ }
  emit body time hsnapshot houtcome :=
    { events := List.prefix_append _ _
      snapshots := List.prefix_refl _
      outcome := fun _ _ ho => ho
      whole := fun hs => hs.emit hsnapshot houtcome }
  record snapshot version time :=
    { events := List.prefix_append _ _
      snapshots := List.prefix_append _ _
      outcome := fun _ _ ho => ho
      whole := fun hs => hs.record snapshot version time }
  finish outcome time hopen :=
    { events := List.prefix_append _ _
      snapshots := List.prefix_refl _
      outcome := fun hs o ho => by
        have hsome := hs.finished
        rw [ho, hopen] at hsome
        cases hsome
      whole := fun hs => hs.finish hopen outcome time }

theorem logged_step {l : Label} (hstep : step c s l = some t) : Logged s t :=
  logged_rule.step hstep

end EphemeralAgent.Workflow
