import EphemeralAgent.Workflow.Frozen

/-!
# What a state version tells

An implementation raises `state.version` whenever it changes the state.  The runtime itself does
not: a deadlock and an interrupt replace the state under the version it had.

* `Versioned` — the versions of an implementation
* `Preserved` — what a property of states and snapshots needs to survive the code of a run
* `Quiet` — a step that makes no transition of the runtime's own over a recorded version
* `snapshot_versions` — versions never go back, and in quiet runs one version is one state
-/

namespace EphemeralAgent.Workflow

open EphemeralAgent.Lib

variable {X : Type} {c : WorkflowStartRequest X} {s t : WorkflowRunInstance X}

/-- An implementation whose `applyNodeSettlement` and `evaluateWorkflowProgress` raise the version
of the state whenever they change it. -/
structure Versioned (implementation : WorkflowImplementation X) : Prop where
  apply : ∀ {stamp state settlement runtime result},
    implementation.applyNodeSettlement stamp state settlement runtime = .ok result →
    result.state ≠ state → state.version < result.state.version
  evaluate : ∀ {stamp state runtime result},
    implementation.evaluateWorkflowProgress stamp state runtime = .ok result →
    result.state ≠ state → state.version < result.state.version

/-- The item of a deadlock that the implementation has reported. -/
def HistoryItem.isDeadlock : HistoryItem X → Bool
  | .deadlocked _ => true
  | _ => false

/-- The number of deadlocks reported so far. -/
def WorkflowRunInstance.deadlocks (s : WorkflowRunInstance X) : Nat :=
  s.history.countP HistoryItem.isDeadlock

theorem deadlocks_append {items : List (HistoryItem X)}
    (h : ∀ item ∈ items, item.isDeadlock = false) :
    (s.history ++ items).countP HistoryItem.isDeadlock = s.deadlocks := by
  have hnone : items.countP HistoryItem.isDeadlock = 0 :=
    List.countP_eq_zero.mpr fun item hitem => by simp [h item hitem]
  rw [List.countP_append, hnone]
  rfl

/-! ## What the code preserves -/

/-- The two states agree in what versions are about. -/
structure Alike (s t : WorkflowRunInstance X) : Prop where
  state : t.state = s.state
  snapshots : t.snapshots = s.snapshots
  deadlocks : t.deadlocks = s.deadlocks

theorem Alike.trans {u : WorkflowRunInstance X} (h : Alike s t) (h' : Alike t u) : Alike s u :=
  ⟨h'.state.trans h.state, h'.snapshots.trans h.snapshots, h'.deadlocks.trans h.deadlocks⟩

/-- A property of the state, the snapshots and the deadlocks. -/
def Stable (P : WorkflowRunInstance X → Prop) : Prop :=
  ∀ s t, Alike s t → P s → P t

/-- `P` holds after the code when it holds before, however the code ends. -/
def Keeps {α : Type} (P : WorkflowRunInstance X → Prop) (m : RunM X α) : Prop :=
  Sync.Spec P m (fun _ => P) fun _ => P

theorem Keeps.run {α : Type} {P : WorkflowRunInstance X → Prop} {m : RunM X α} (h : Keeps P m)
    (hs : P s) : P (m s).2 := by
  have hm := h s hs
  cases hr : m s with
  | mk r t =>
    rw [hr] at hm
    cases r with
    | error fault => exact hm
    | ok value => exact hm

/-- What a property needs to survive the code of a run. -/
structure Preserved (c : WorkflowStartRequest X) (P : WorkflowRunInstance X → Prop) : Prop where
  stable : Stable P
  /-- The current state is recorded. -/
  record : ∀ {s state recordedAt json}, P s → s.state = some state →
    c.toJsonObject state = .ok json →
    P { s with snapshots := s.snapshots ++ [{ version := state.version, recordedAt, state := json }] }
  /-- The first state. -/
  create : ∀ {s} state, P s → s.state = none → P { s with state := some state }
  /-- The state stays, or gets a higher version. -/
  advance : ∀ {s state state'}, P s → s.state = some state →
    (state' ≠ state → state.version < state'.version) → P { s with state := some state' }
  /-- The implementation reports a deadlock. -/
  deadlock : ∀ {s state} report, P s → s.state = some state →
    P { s with
      state := some (deadlockState state report)
      history := s.history ++ [.deadlocked report] }

section Code

variable {P : WorkflowRunInstance X → Prop} {α : Type}

theorem keeps_modify (hP : Stable P) {f : WorkflowRunInstance X → WorkflowRunInstance X}
    (h : ∀ s, Alike s (f s)) : Keeps P (Sync.modify f) :=
  Sync.spec_modify fun s hs => hP s _ (h s) hs

theorem keeps_now (hP : Stable P) : Keeps P now := by
  intro s hs
  exact hP s _ ⟨rfl, rfl, rfl⟩ hs

theorem alike_note {item : HistoryItem X} {active : Option (Active X)}
    (h : item.isDeadlock = false) :
    Alike s { s with active, history := s.history ++ [item] } := by
  refine ⟨rfl, rfl, deadlocks_append fun item' hitem => ?_⟩
  rw [List.mem_singleton.mp hitem]
  exact h

theorem keeps_note (hP : Stable P) {item : HistoryItem X} (h : item.isDeadlock = false) :
    Keeps P (note item) :=
  keeps_modify hP fun _ => alike_note h

theorem keeps_noteCall (hP : Stable P) {item : Stamp → HistoryItem X}
    (h : ∀ stamp, (item stamp).isDeadlock = false) : Keeps P (noteCall item) := by
  intro s hs
  have hnow : P { s with clock := s.clock + 1 } := hP s _ ⟨rfl, rfl, rfl⟩ hs
  exact hP _ _ (alike_note (h s.clock)) hnow

theorem keeps_callback (hP : Stable P) (site : Site) (call : Stamp → Except String α) :
    Keeps P (callback site call) := by
  refine Sync.spec_bind (keeps_now hP) fun stamp => ?_
  exact Sync.spec_lift (fun _ _ _ hs => hs) fun _ _ _ hs => hs

theorem keeps_emit (hP : Stable P) (body : WorkflowRunEventBody) : Keeps P (emit body) :=
  Sync.spec_bind (keeps_now hP) fun _ => keeps_modify hP (by exact fun _ => ⟨rfl, rfl, rfl⟩)

theorem keeps_updateEntry (hP : Stable P) (entry : Nat)
    (f : WorkflowNodeRunEntry → WorkflowNodeRunEntry) : Keeps P (updateEntry entry f) :=
  keeps_modify hP (by exact fun _ => ⟨rfl, rfl, rfl⟩)

theorem keeps_pure (a : α) : Keeps P (pure a : RunM X α) :=
  Sync.spec_pure fun _ hs => hs

theorem keeps_get : Keeps P (Sync.get : RunM X (WorkflowRunInstance X)) :=
  Sync.spec_get fun _ hs => hs

theorem keeps_throw (fault : Fault) : Keeps P (Sync.throw fault : RunM X α) :=
  Sync.spec_throw fun _ hs => hs

theorem Keeps.bind {β : Type} {m : RunM X α} {f : α → RunM X β} (hm : Keeps P m)
    (hf : ∀ a, Keeps P (f a)) : Keeps P (m >>= f) :=
  Sync.spec_bind hm hf

theorem keeps_ite {p : Prop} [Decidable p] {m n : RunM X α} (hm : Keeps P m) (hn : Keeps P n) :
    Keeps P (if p then m else n) :=
  Sync.spec_ite (fun _ => hm) fun _ => hn

/-- `P` holds, and this is the state. -/
def At (P : WorkflowRunInstance X → Prop) (state : WorkflowState X)
    (s : WorkflowRunInstance X) : Prop :=
  P s ∧ s.state = some state

theorem stable_at (hP : Stable P) (state : WorkflowState X) : Stable (At P state) :=
  fun s t h hs => ⟨hP s t h hs.1, h.state.trans hs.2⟩

/-- `requireState` gives the state. -/
theorem spec_requireState : Sync.Spec P requireState (At P) fun _ => P := by
  intro s hs
  cases hstate : s.state with
  | none =>
    rw [requireState_run_none hstate]
    exact hs
  | some state =>
    rw [requireState_run hstate]
    exact ⟨hs, hstate⟩

/-- The state is read, and what follows keeps the property. -/
theorem keeps_requireState {f : WorkflowState X → RunM X α} (h : ∀ state, Keeps P (f state)) :
    Keeps P (requireState >>= f) :=
  Sync.spec_bind spec_requireState fun state =>
    (h state).imp (fun _ hs => hs.1) (fun _ _ hs => hs) fun _ _ hs => hs

theorem keeps_recordSnapshot (h : Preserved c P) : Keeps P (recordSnapshot c) := by
  refine Sync.spec_bind spec_requireState fun state => ?_
  refine Sync.spec_bind (Q := fun _ => At P state) ?_ fun recordedAt => ?_
  · exact (keeps_now (stable_at h.stable state)).imp (fun _ hs => hs) (fun _ _ hs => hs)
      fun _ _ hs => hs.1
  · -- the JSON projection of the state that was read
    refine Sync.spec_bind (Q := fun json s => At P state s ∧ c.toJsonObject state = .ok json) ?_
      fun json => ?_
    · refine Sync.spec_lift (fun json s hjson hs => ⟨hs, ?_⟩) fun _ _ _ hs => hs.1
      cases hobject : c.toJsonObject state with
      | error message =>
        rw [hobject] at hjson
        cases hjson
      | ok value =>
        rw [hobject] at hjson
        cases hjson
        rfl
    · refine Sync.spec_bind (Q := fun _ => P) ?_ fun _ => keeps_emit h.stable _
      exact Sync.spec_modify fun s hs => h.record hs.1.1 hs.1.2 hs.2

theorem keeps_finish (hP : Stable P) (outcome : WorkflowOutcome) : Keeps P (finish outcome) := by
  refine keeps_get.bind fun s => keeps_ite (keeps_pure ()) ?_
  refine (keeps_modify hP (by exact fun _ => ⟨rfl, rfl, rfl⟩)).bind fun _ => ?_
  exact (keeps_emit hP _).bind fun _ => keeps_note hP rfl

theorem keeps_finishIfDone (hP : Stable P) : Keeps P (finishIfDone c) := by
  refine keeps_requireState fun state => keeps_ite (keeps_pure false) ?_
  refine (keeps_callback hP _ _).bind fun outcome => ?_
  exact (keeps_finish hP _).bind fun _ => keeps_pure true

theorem keeps_deadlockIfIdle (h : Preserved c P) : Keeps P (deadlockIfIdle c) := by
  refine Sync.spec_bind spec_requireState fun state => ?_
  have hstable := stable_at h.stable state
  have hleave : ∀ {β : Type} {m : RunM X β}, Keeps P m →
      Sync.Spec (At P state) m (fun _ => P) fun _ => P := fun hm =>
    hm.imp (fun _ hs => hs.1) (fun _ _ hs => hs) fun _ _ hs => hs
  refine Sync.spec_bind (keeps_get.imp (fun _ hs => hs) (fun _ _ hs => hs) fun _ _ hs => hs.1)
    fun s => ?_
  refine Sync.spec_ite (fun _ => hleave (keeps_pure ())) fun _ => ?_
  refine Sync.spec_ite (fun _ => hleave (keeps_pure ())) fun _ => ?_
  refine Sync.spec_bind ((keeps_callback hstable _ _).imp (fun _ hs => hs) (fun _ _ hs => hs)
    fun _ _ hs => hs.1) fun report => ?_
  cases report with
  | none => exact hleave (keeps_pure ())
  | some report =>
    -- the state and the note of the deadlock are written together
    have hrest : Keeps P (do
        emit (.workflowDeadlocked report)
        emit (.workflowTransitionApplied (deadlockTransition report) state.version)
        recordSnapshot c
        finish (.deadlocked report.reason report.details)) :=
      (keeps_emit h.stable _).bind fun _ => (keeps_emit h.stable _).bind fun _ =>
        (keeps_recordSnapshot h).bind fun _ => keeps_finish h.stable _
    intro u hu
    have hafter := hrest _ (h.deadlock report hu.1 hu.2)
    exact hafter

theorem keeps_claimAndLaunch (hP : Stable P) (d : WorkflowNodeDispatch) :
    Keeps P (claimAndLaunch d) := by
  refine (keeps_now hP).bind fun startedAt => keeps_get.bind fun s => ?_
  refine (keeps_modify hP (by exact fun _ => ⟨rfl, rfl, rfl⟩)).bind fun _ => ?_
  exact (keeps_note hP rfl).bind fun _ => keeps_pure _

theorem keeps_dispatch (h : Preserved c P) : Keeps P (dispatch c) := by
  refine keeps_requireState fun state => keeps_ite (keeps_pure none) ?_
  refine keeps_get.bind fun s => (keeps_callback h.stable _ _).bind fun dispatches => ?_
  refine (keeps_modify h.stable (by exact fun _ => ⟨rfl, rfl, rfl⟩)).bind fun _ => ?_
  cases dispatches with
  | nil => exact (keeps_deadlockIfIdle h).bind fun _ => keeps_pure none
  | cons first rest =>
    refine (keeps_emit h.stable _).bind fun _ => ?_
    exact (keeps_claimAndLaunch h.stable first).bind fun _ => keeps_pure _

/-- A transition of the implementation. -/
theorem spec_applyTransition (h : Preserved c P) {state : WorkflowState X}
    {result : StateTransitionResult X}
    (hversion : result.state ≠ state → state.version < result.state.version) :
    Sync.Spec (At P state) (applyTransition result) (fun _ => P) fun _ => P := by
  have hset : Sync.Spec (At P state) (setState result.state) (fun _ => P) fun _ => P :=
    Sync.spec_modify fun s hs => h.advance hs.1 hs.2 hversion
  refine Sync.spec_bind hset fun _ => ?_
  cases result.transition with
  | none => exact keeps_pure ()
  | some transition => exact keeps_emit h.stable _

/-- The answer of a callback that has been noted. -/
theorem spec_lift_eq {β : Type} {state : WorkflowState X} (r : Except String β) (site : Site) :
    Sync.Spec (At P state) (Sync.lift (r.mapError (Fault.mk site)))
      (fun value s => At P state s ∧ r = .ok value) fun _ => P := by
  refine Sync.spec_lift (fun value s hvalue hs => ⟨hs, ?_⟩) fun _ _ _ hs => hs.1
  cases r with
  | error message => cases hvalue
  | ok answer =>
    cases hvalue
    rfl

theorem keeps_applyValidatedSettlement (h : Preserved c P) (hversioned : Versioned c.implementation)
    (entry : Nat) (settlement : WorkflowNodeSettlement) :
    Keeps P (applyValidatedSettlement c entry settlement) := by
  have hassume : ∀ {β : Type} {p : Prop} {Q : WorkflowRunInstance X → Prop} {m : RunM X β},
      (p → Sync.Spec Q m (fun _ => P) fun _ => P) →
      Sync.Spec (fun s => Q s ∧ p) m (fun _ => P) fun _ => P :=
    fun hm s hs => hm hs.2 s hs.1
  have hat : ∀ {β : Type} {state : WorkflowState X} {m : RunM X β}, Keeps (At P state) m →
      Sync.Spec (At P state) m (fun _ => At P state) fun _ => P := fun hm =>
    hm.imp (fun _ hs => hs) (fun _ _ hs => hs) fun _ _ hs => hs.1
  refine Sync.spec_bind spec_requireState fun state => ?_
  have hstable := stable_at h.stable state
  refine Sync.spec_bind (hat keeps_get) fun s => ?_
  refine Sync.spec_bind (hat (keeps_noteCall hstable fun _ => rfl)) fun stamp => ?_
  refine Sync.spec_bind (spec_lift_eq _ _) fun applied => hassume fun happly => ?_
  refine Sync.spec_bind (spec_applyTransition h (hversioned.apply happly)) fun _ => ?_
  refine Sync.spec_bind spec_requireState fun state => ?_
  have hstable := stable_at h.stable state
  refine Sync.spec_bind (hat keeps_get) fun s => ?_
  refine Sync.spec_bind (hat (keeps_noteCall hstable fun _ => rfl)) fun stamp => ?_
  refine Sync.spec_bind (spec_lift_eq _ _) fun evaluated => hassume fun hevaluate => ?_
  refine Sync.spec_bind (spec_applyTransition h (hversioned.evaluate hevaluate)) fun _ => ?_
  refine (keeps_recordSnapshot h).bind fun _ => (keeps_finishIfDone h.stable).bind fun done => ?_
  exact keeps_ite (keeps_pure none) (keeps_dispatch h)

theorem keeps_submitNodeCompletion (h : Preserved c P) (hversioned : Versioned c.implementation)
    (index : Nat) (entry : WorkflowNodeRunEntry) (payload : Json) :
    Keeps P (submitNodeCompletion c index entry payload) := by
  refine keeps_ite (keeps_pure _) ?_
  cases entry.start.outcome.safeParse payload with
  | error issues => exact keeps_pure _
  | ok parsed =>
    refine (keeps_emit h.stable _).bind fun _ => keeps_requireState fun state => ?_
    refine keeps_get.bind fun s => (keeps_callback h.stable _ _).bind fun validation => ?_
    cases validation with
    | refused reason => exact keeps_pure _
    | ok =>
      refine (keeps_now h.stable).bind fun completedAt => ?_
      refine (keeps_updateEntry h.stable _ _).bind fun _ => ?_
      exact (keeps_applyValidatedSettlement h hversioned _ _).bind fun _ => keeps_pure _

theorem keeps_settleNodeRun (h : Preserved c P) (hversioned : Versioned c.implementation)
    (index : Nat) (entry : WorkflowNodeRunEntry) (settlement : WorkflowNodeSettlement) :
    Keeps P (settleNodeRun c index entry settlement) := by
  refine keeps_ite (keeps_pure none) (keeps_ite (keeps_throw _) ?_)
  refine keeps_requireState fun state => keeps_get.bind fun s => ?_
  refine (keeps_callback h.stable _ _).bind fun validation => ?_
  cases validation with
  | refused reason => exact keeps_throw _
  | ok =>
    refine (keeps_now h.stable).bind fun completedAt => ?_
    refine (keeps_updateEntry h.stable _ _).bind fun _ => ?_
    exact keeps_applyValidatedSettlement h hversioned _ _

/-- The start of a run that has no state yet. -/
theorem startRun_preserves (h : Preserved c P) (hs : P s) (hnone : s.state = none) :
    P (startRun c s).2 := by
  have hcreate : Sync.Spec (fun s => P s ∧ s.state = none) (startRun c) (fun _ => P)
      fun _ => P := by
    have hstable : Stable fun s => P s ∧ s.state = none :=
      fun s t halike hs => ⟨h.stable s t halike hs.1, halike.state.trans hs.2⟩
    refine Sync.spec_bind ((keeps_callback hstable _ _).imp (fun _ hs => hs) (fun _ _ hs => hs)
      fun _ _ hs => hs.1) fun state => ?_
    refine Sync.spec_bind (Q := fun _ => P) ?_ fun _ => ?_
    · exact Sync.spec_modify fun s hs => h.create state hs.1 hs.2
    · refine (keeps_note h.stable rfl).bind fun _ => (keeps_emit h.stable _).bind fun _ => ?_
      refine (keeps_recordSnapshot h).bind fun _ => (keeps_finishIfDone h.stable).bind fun _ => ?_
      exact keeps_ite (keeps_pure none) (keeps_dispatch h)
  have hrun := hcreate s ⟨hs, hnone⟩
  cases hr : startRun c s with
  | mk r t =>
    rw [hr] at hrun
    cases r with
    | error fault => exact hrun
    | ok frame => exact hrun

/-- The end of an interrupt, which replaces the state under its version. -/
theorem completeInterrupt_preserves (h : Preserved c P) {reason : String} (running : List Nat)
    {state : WorkflowState X} (hstate : s.state = some state)
    (hafter : P { s with state := some (interruptState state reason) }) :
    P (completeInterrupt c reason running s).2 := by
  have hrest : Keeps P (do
      note (.interrupted reason)
      emit (.workflowTransitionApplied (interruptTransition reason) state.version)
      recordSnapshot c
      finish (.cancelled reason)) :=
    (keeps_note h.stable rfl).bind fun _ => (keeps_emit h.stable _).bind fun _ =>
      (keeps_recordSnapshot h).bind fun _ => keeps_finish h.stable _
  have hcode : completeInterrupt c reason running s = (do
      note (.interrupted reason)
      emit (.workflowTransitionApplied (interruptTransition reason) state.version)
      recordSnapshot c
      finish (.cancelled reason)) { s with
        clock := s.clock + 1
        nodes := cancelEntries s.clock running s.nodes
        state := some (interruptState state reason) } := by
    simp only [completeInterrupt, Sync.bind_run, now_run, Sync.modify_run, requireState,
      Sync.get_run, hstate, Sync.pure_run, setState_run]
  rw [hcode]
  exact hrest.run (h.stable { s with state := some (interruptState state reason) } _
    ⟨rfl, rfl, rfl⟩ hafter)

end Code

/-! ## What a step preserves -/

theorem isDeadlock_of_bookkeeping {item : HistoryItem X} (h : item.bookkeeping = true) :
    item.isDeadlock = false := by
  cases item with
  | deadlocked report => cases h
  | _ => rfl

/-- Control is not about versions. -/
theorem Control.alike {faults : List Fault} (h : Control faults s t) : Alike s t := by
  obtain ⟨items, hitems, -, hbookkeeping⟩ := h.history
  refine ⟨h.state, h.snapshots, ?_⟩
  unfold WorkflowRunInstance.deadlocks
  rw [hitems]
  exact deadlocks_append fun item hitem => isDeadlock_of_bookkeeping (hbookkeeping item hitem)

theorem alike_failFlow (flow : FlowId) (fault : Fault) : Alike s (failFlow flow fault s) := by
  cases flow with
  | start =>
    have hnote : Alike s { s with history := s.history ++ [.fault .start fault] } := alike_note rfl
    exact hnote.trans ⟨rfl, rfl, rfl⟩
  | queue =>
    unfold failFlow
    cases hactive : s.active with
    | none => exact ⟨rfl, rfl, rfl⟩
    | some active =>
      cases active with
      | flow task frames => exact (control_failTask task fault).alike
      | interrupting reason running => exact ⟨rfl, rfl, rfl⟩

section Steps

variable {P : WorkflowRunInstance X → Prop}

theorem proceed_preserves (h : Preserved c P) {flow : FlowId}
    {x : Except Fault (Option Frame) × WorkflowRunInstance X} (hx : P x.2) (outer : List Frame) :
    P (proceed flow outer x) := by
  obtain ⟨r, u⟩ := x
  cases r with
  | error fault => exact h.stable _ _ (alike_failFlow _ _) hx
  | ok frame => exact h.stable _ _ (control_setFrames _ _).alike hx

theorem stepResume_preserves (h : Preserved c P) (hs : P s) (flow : FlowId)
    (remaining : List WorkflowNodeDispatch) (outer : List Frame) :
    P (stepResume flow remaining outer s) := by
  cases remaining with
  | nil => exact h.stable _ _ (control_setFrames _ _).alike hs
  | cons next rest =>
    have hrun := (keeps_claimAndLaunch h.stable next).run hs
    rw [claimAndLaunch_run] at hrun
    simp only [stepResume, claimAndLaunch_run]
    exact h.stable _ _ (control_setFrames _ _).alike hrun

theorem stepSubmit_preserves (h : Preserved c P) (hversioned : Versioned c.implementation)
    (hs : P s) (index : Nat) (entry : WorkflowNodeRunEntry) (payload : Json) :
    P (stepSubmit c index entry payload s) := by
  have hrun := (keeps_submitNodeCompletion h hversioned index entry payload).run hs
  unfold stepSubmit
  cases hr : submitNodeCompletion c index entry payload s with
  | mk r t =>
    rw [hr] at hrun
    cases r with
    | error fault =>
      refine h.stable _ _ (control_answer _ _ _).alike ?_
      exact h.stable _ _ (alike_note rfl) hrun
    | ok submitted =>
      cases submitted with
      | rejected reason => exact h.stable _ _ (control_answer _ _ _).alike hrun
      | applied outcome frame =>
        refine h.stable _ _ (control_setFrames _ _).alike ?_
        exact h.stable t _ ⟨rfl, rfl, rfl⟩ hrun

theorem stepSettle_preserves (h : Preserved c P) (hversioned : Versioned c.implementation)
    (hs : P s) (index : Nat) (entry : WorkflowNodeRunEntry) (settlement : WorkflowNodeSettlement) :
    P (stepSettle c index entry settlement s) := by
  have hrun := (keeps_settleNodeRun h hversioned index entry settlement).run hs
  unfold stepSettle
  cases hr : settleNodeRun c index entry settlement s with
  | mk r t =>
    rw [hr] at hrun
    cases r with
    | error fault => exact h.stable _ _ (alike_note rfl) hrun
    | ok frame =>
      refine h.stable _ _ (control_setFrames _ _).alike ?_
      exact h.stable t _ ⟨rfl, rfl, rfl⟩ hrun

/-- **What the code preserves, every step of a run preserves**, but for an interrupt that ends. -/
theorem preserved_step (h : Preserved c P) (hversioned : Versioned c.implementation)
    (hwell : WellStarted s) (hthreads : Threads s) (hs : P s) {l : Label}
    (hinterrupt : ∀ reason running state, l = .interruptsResolved →
      s.active = some (.interrupting reason running) → s.state = some state →
      P { s with state := some (interruptState state reason) })
    (hstep : step c s l = some t) : P t := by
  have hrest : ∀ queue, P { s with queue } := fun queue => h.stable s _ ⟨rfl, rfl, rfl⟩ hs
  cases fired_of_step hstep with
  | start hidle =>
    have hnone : s.state = none := by
      rw [hthreads.idle hidle]
      rfl
    rw [stepStart_eq]
    exact proceed_preserves h (startRun_preserves h hs hnone) []
  | launchResolved flow index remaining outer hframes =>
    refine h.stable _ _ (control_setFrames _ _).alike ?_
    exact h.stable s _ ⟨rfl, rfl, rfl⟩ hs
  | launchRejected flow reason index entry remaining outer hframes hentry =>
    rw [stepLaunchRejected_eq]
    exact proceed_preserves h ((keeps_settleNodeRun h hversioned index entry
      (failedLaunchSettlement entry reason)).run hs) _
  | resume flow remaining outer hframes => exact stepResume_preserves h hs _ _ _
  | submit index payload hlt => exact hrest _
  | nodeSettled index entry settlement hentry hhandle hopen =>
    exact h.stable _ _ (control_nodeSettled _ _ _).alike hs
  | interrupt reason hreturned => exact hrest _
  | takesSubmit index entry payload rest hactive hqueue hentry =>
    exact stepSubmit_preserves h hversioned (hrest _) _ _ _
  | takesSettle index entry settlement rest hactive hqueue hentry =>
    exact stepSettle_preserves h hversioned (hrest _) _ _ _
  | takesInterrupt reason rest hactive hqueue =>
    exact h.stable _ _ (control_interrupt _).alike (hrest _)
  | interruptsResolved reason running hactive =>
    obtain ⟨state, hstate⟩ := hwell.state_of_active hactive
    have hafter := hinterrupt reason running state rfl hactive hstate
    have hrun := completeInterrupt_preserves h running hstate hafter
    unfold stepInterruptsResolved
    cases hr : completeInterrupt c reason running s with
    | mk r t =>
      rw [hr] at hrun
      cases r with
      | error fault => exact h.stable t _ (alike_note rfl) hrun
      | ok value => exact h.stable t _ ⟨rfl, rfl, rfl⟩ hrun
  | interruptsRejected message reason running hactive => exact h.stable _ _ (alike_note rfl) hs

end Steps

/-! ## Versions never go back -/

/-- The snapshots are in the order of their versions, and none is ahead of the state. -/
structure InOrder (s : WorkflowRunInstance X) : Prop where
  sorted : s.snapshots.Pairwise fun a b => a.version ≤ b.version
  behind : ∀ snapshot ∈ s.snapshots, ∃ state, s.state = some state ∧
    snapshot.version ≤ state.version

theorem InOrder.raise {state state' : WorkflowState X} (h : InOrder s)
    (hstate : s.state = some state) (hversion : state.version ≤ state'.version)
    (ht : t.state = some state') (hsnapshots : t.snapshots = s.snapshots) : InOrder t := by
  refine ⟨by rw [hsnapshots]; exact h.sorted, fun snapshot hmem => ⟨state', ht, ?_⟩⟩
  rw [hsnapshots] at hmem
  obtain ⟨_, heq, hle⟩ := h.behind snapshot hmem
  rw [hstate, Option.some.injEq] at heq
  subst heq
  exact Nat.le_trans hle hversion

theorem inOrder_preserved : Preserved c (InOrder (X := X)) where
  stable s t halike hs := by
    refine ⟨by rw [halike.snapshots]; exact hs.sorted, fun snapshot hmem => ?_⟩
    rw [halike.snapshots] at hmem
    obtain ⟨state, hstate, hle⟩ := hs.behind snapshot hmem
    exact ⟨state, halike.state.trans hstate, hle⟩
  record {s state recordedAt json} hs hstate hjson := by
    have hbehind : ∀ snapshot ∈ s.snapshots, snapshot.version ≤ state.version := by
      intro snapshot hmem
      obtain ⟨_, heq, hle⟩ := hs.behind snapshot hmem
      rw [hstate, Option.some.injEq] at heq
      subst heq
      exact hle
    refine ⟨List.pairwise_append.mpr ⟨hs.sorted, List.pairwise_singleton _ _, ?_⟩, ?_⟩
    · intro a ha b hb
      rw [List.mem_singleton.mp hb]
      exact hbehind a ha
    · intro snapshot hmem
      refine ⟨state, hstate, ?_⟩
      rcases List.mem_append.mp hmem with hmem | hmem
      · exact hbehind snapshot hmem
      · rw [List.mem_singleton.mp hmem]
  create {s} state hs hnone := by
    refine ⟨hs.sorted, fun snapshot hmem => ?_⟩
    obtain ⟨_, heq, -⟩ := hs.behind snapshot hmem
    rw [hnone] at heq
    cases heq
  advance {s state state'} hs hstate hversion := by
    refine hs.raise hstate ?_ rfl rfl
    by_cases hsame : state' = state
    · rw [hsame]
    · exact Nat.le_of_lt (hversion hsame)
  deadlock {s state} report hs hstate := by
    have hversion : state.version ≤ (deadlockState state report).version := Nat.le_refl _
    exact hs.raise hstate hversion rfl rfl

/-! ## One version, one state -/

/-- The snapshots of one version show one state, and those of the current version the current
state. -/
structure Identified (c : WorkflowStartRequest X) (s : WorkflowRunInstance X) : Prop where
  ordered : InOrder s
  current : ∀ snapshot ∈ s.snapshots, ∀ state, s.state = some state →
    snapshot.version = state.version → c.toJsonObject state = .ok snapshot.state
  same : ∀ a ∈ s.snapshots, ∀ b ∈ s.snapshots, a.version = b.version → a.state = b.state

/-- A state that no snapshot has the version of. -/
theorem Identified.fresh {state state' : WorkflowState X} (h : Identified c s)
    (hstate : s.state = some state) (hversion : state.version ≤ state'.version)
    (hnew : ∀ snapshot ∈ s.snapshots, snapshot.version ≠ state'.version) :
    Identified c { s with state := some state' } := by
  refine ⟨h.ordered.raise hstate hversion rfl rfl, ?_, h.same⟩
  intro snapshot hmem _ heq hsame
  rw [Option.some.injEq] at heq
  subst heq
  exact absurd hsame (hnew snapshot hmem)

/-- No further deadlock has been reported, and versions tell the states apart. -/
def QuietSince (c : WorkflowStartRequest X) (n : Nat) (s : WorkflowRunInstance X) : Prop :=
  n ≤ s.deadlocks ∧ (s.deadlocks = n → Identified c s)

theorem quietSince_preserved (n : Nat) : Preserved c (QuietSince c n) where
  stable s t halike hs := by
    refine ⟨by rw [halike.deadlocks]; exact hs.1, fun hn => ?_⟩
    obtain ⟨hordered, hcurrent, hsame⟩ := hs.2 (halike.deadlocks.symm.trans hn)
    refine ⟨(inOrder_preserved (c := c)).stable s t halike hordered, ?_, ?_⟩
    · rw [halike.state, halike.snapshots]
      exact hcurrent
    · rw [halike.snapshots]
      exact hsame
  record {s state recordedAt json} hs hstate hjson := by
    refine ⟨hs.1, fun hn => ?_⟩
    have h := hs.2 hn
    -- an older snapshot of the same version is of the same state
    have hnew : ∀ snapshot ∈ s.snapshots, snapshot.version = state.version →
        snapshot.state = json := by
      intro snapshot hmem hversion
      have hold := h.current snapshot hmem state hstate hversion
      rw [hjson] at hold
      exact (Except.ok.inj hold).symm
    refine ⟨(inOrder_preserved (c := c)).record h.ordered hstate hjson, ?_, ?_⟩
    · intro snapshot hmem state' heq hversion
      rcases List.mem_append.mp hmem with hmem | hmem
      · exact h.current snapshot hmem state' heq hversion
      · rw [List.mem_singleton.mp hmem]
        have hsame : state = state' := Option.some.inj (hstate.symm.trans heq)
        rw [← hsame]
        exact hjson
    · intro a ha b hb hversion
      rcases List.mem_append.mp ha with ha | ha
      · rcases List.mem_append.mp hb with hb | hb
        · exact h.same a ha b hb hversion
        · rw [List.mem_singleton.mp hb] at hversion ⊢
          exact hnew a ha hversion
      · rw [List.mem_singleton.mp ha] at hversion ⊢
        rcases List.mem_append.mp hb with hb | hb
        · exact (hnew b hb hversion.symm).symm
        · rw [List.mem_singleton.mp hb]
  create {s} state hs hnone := by
    refine ⟨hs.1, fun hn => ?_⟩
    have h := hs.2 hn
    refine ⟨(inOrder_preserved (c := c)).create state h.ordered hnone, ?_, h.same⟩
    intro snapshot hmem
    obtain ⟨_, heq, -⟩ := h.ordered.behind snapshot hmem
    rw [hnone] at heq
    cases heq
  advance {s state state'} hs hstate hversion := by
    refine ⟨hs.1, fun hn => ?_⟩
    have h := hs.2 hn
    by_cases hsame : state' = state
    · rw [hsame, ← hstate]
      exact h
    · -- a new state has a version above every snapshot
      have hlt := hversion hsame
      refine h.fresh hstate (Nat.le_of_lt hlt) fun snapshot hmem heq => ?_
      obtain ⟨_, hcurrent, hle⟩ := h.ordered.behind snapshot hmem
      rw [hstate, Option.some.injEq] at hcurrent
      subst hcurrent
      omega
  deadlock {s state} report hs hstate := by
    -- a deadlock ends the stretch: the count moves on
    have hmore : (s.history ++ [HistoryItem.deadlocked report]).countP HistoryItem.isDeadlock =
        s.deadlocks + 1 := by
      rw [List.countP_append]
      rfl
    have hle := hs.1
    refine ⟨?_, fun hn => ?_⟩
    · show n ≤ (s.history ++ [HistoryItem.deadlocked report]).countP HistoryItem.isDeadlock
      omega
    · have hn' : (s.history ++ [HistoryItem.deadlocked report]).countP HistoryItem.isDeadlock = n := hn
      omega

/-! ## Runs -/

/-- The step makes no transition of the runtime's own under a version that has been recorded: the
implementation reports no deadlock, and no interrupt ends over such a state. -/
def Quiet (c : WorkflowStartRequest X) (s : WorkflowRunInstance X) (l : Label) : Prop :=
  (∀ t, step c s l = some t → t.deadlocks = s.deadlocks) ∧
  (l = .interruptsResolved → ∀ state, s.state = some state →
    ∀ snapshot ∈ s.snapshots, snapshot.version ≠ state.version)

theorem inOrder_of_run (hversioned : Versioned c.implementation) {ls : List Label}
    (run : Run (step c) Free initial ls s) : InOrder s := by
  have hstart : InOrder (initial : WorkflowRunInstance X) :=
    ⟨List.Pairwise.nil, fun _ h => absurd h List.not_mem_nil⟩
  refine run.invariant_of (J := fun u => WellStarted u ∧ Threads u)
    (fun r => ⟨wellStarted_of_run r, threads_of_run r⟩) hstart ?_
  intro u l v _ hJ hu hstep
  refine preserved_step (inOrder_preserved (c := c)) hversioned hJ.1 hJ.2 hu ?_ hstep
  intro reason running state _ _ hstate
  have hversion : state.version ≤ (interruptState state reason).version := Nat.le_refl _
  exact hu.raise hstate hversion rfl rfl

theorem identified_of_run (hversioned : Versioned c.implementation) {ls : List Label}
    (run : Run (step c) (Quiet c) initial ls s) : Identified c s := by
  have hstart : Identified c (initial : WorkflowRunInstance X) :=
    ⟨⟨List.Pairwise.nil, fun _ h => absurd h List.not_mem_nil⟩,
      fun _ h => absurd h List.not_mem_nil, fun _ h => absurd h List.not_mem_nil⟩
  refine run.invariant_of (J := fun u => WellStarted u ∧ Threads u)
    (fun r => ⟨wellStarted_of_run r, threads_of_run r⟩) hstart ?_
  intro u l v hquiet hJ hu hstep
  have hbefore : QuietSince c u.deadlocks u := ⟨Nat.le_refl _, fun _ => hu⟩
  have hafter := preserved_step (quietSince_preserved u.deadlocks) hversioned hJ.1 hJ.2 hbefore
    (fun reason running state hl _ hstate => ⟨Nat.le_refl _, fun _ =>
      hu.fresh hstate (Nat.le_refl state.version) (hquiet.2 hl state hstate)⟩) hstep
  exact hafter.2 (hquiet.1 v hstep)

/-- **A version identifies a state, but for the runtime's own transitions.**  For an implementation
that raises the version whenever it changes the state, the versions of the snapshots never go back;
and in a run without a deadlock, and without an interrupt over a recorded version, snapshots of one
version show one state. -/
theorem snapshot_versions (hversioned : Versioned c.implementation) {ls : List Label} :
    (Run (step c) Free initial ls s →
      s.snapshots.Pairwise fun a b => a.version ≤ b.version) ∧
    (Run (step c) (Quiet c) initial ls s →
      ∀ a ∈ s.snapshots, ∀ b ∈ s.snapshots, a.version = b.version → a.state = b.state) :=
  ⟨fun run => (inOrder_of_run hversioned run).sorted,
    fun run => (identified_of_run hversioned run).same⟩

/-- What a state of a test shows. -/
def statusJson (state : WorkflowState Unit) : Json :=
  .obj [("version", .num state.version), ("is_workflow_done", .bool state.isWorkflowDone),
    ("workflow_status", .str state.workflowStatus.toString)]

/-- One node, and snapshots that show the status. -/
def shownOnly : WorkflowStartRequest Unit :=
  { batchRequest [anyNode "only"] refuseDone .ok with toJsonObject := fun s => .ok (statusJson s) }

theorem versioned_shownOnly : Versioned shownOnly.implementation where
  apply {_ state _ _ result} happly _ := by
    cases happly
    exact Nat.lt_succ_self state.version
  evaluate {_ state _ result} hevaluate hne := by
    cases hevaluate
    exact absurd rfl hne

/-- The one node completes. -/
def onlyCompletes : List Label :=
  [.start, .launchResolved .start, .resume .start, .submit 0 .null, .dequeue]

theorem snapshot_versions_only :
    ∃ s, Run (step shownOnly) (Quiet shownOnly) initial onlyCompletes s ∧
      s.snapshots.length = 2 ∧ (s.snapshots.Pairwise fun a b => a.version ≤ b.version) ∧
      ∀ a ∈ s.snapshots, ∀ b ∈ s.snapshots, a.version = b.version → a.state = b.state := by
  obtain ⟨s, run, htest⟩ := exists_run (step shownOnly)
    (fun s l => ((step shownOnly s l).all fun t => t.deadlocks == s.deadlocks) = true ∧
      (l matches .interruptsResolved) = false)
    initial onlyCompletes (fun s => s.snapshots.length == 2) (by decide +kernel)
  have hquiet : Run (step shownOnly) (Quiet shownOnly) initial onlyCompletes s := by
    refine run.mono fun s l hok => ⟨fun t hstep => ?_, fun hl => ?_⟩
    · have hall := hok.1
      rw [hstep, Option.all_some, beq_iff_eq] at hall
      exact hall
    · rw [hl] at hok
      cases hok.2
  exact ⟨s, hquiet, beq_iff_eq.mp htest,
    (snapshot_versions versioned_shownOnly).1 hquiet.free,
    (snapshot_versions versioned_shownOnly).2 hquiet⟩

/-- `state.is_workflow_done` of a snapshot. -/
def showsDone (snapshot : StateSnapshot) : Option Bool :=
  match snapshot.state with
  | .obj fields => (fields.lookup "is_workflow_done").bind fun value =>
    match value with
    | .bool done => some done
    | _ => none
  | _ => none

/-- The run is interrupted, and the interrupt ends. -/
def onlyStopped : List Label :=
  [.start, .launchResolved .start, .resume .start, .interrupt "stop", .dequeue,
    .interruptsResolved]

/-- **An interrupt records a second state under the version of the first.** -/
theorem version_reused :
    Versioned shownOnly.implementation ∧
    ∃ s, Run (step shownOnly) Free initial onlyStopped s ∧
      ∃ a ∈ s.snapshots, ∃ b ∈ s.snapshots, a.version = b.version ∧ a.state ≠ b.state := by
  refine ⟨versioned_shownOnly, ?_⟩
  obtain ⟨s, run, htest⟩ := exists_run (step shownOnly) Free initial onlyStopped
    (fun s => s.snapshots.any fun a => s.snapshots.any fun b =>
      a.version == b.version && showsDone a != showsDone b) (by decide +kernel)
  obtain ⟨a, ha, htest⟩ := List.any_eq_true.mp htest
  obtain ⟨b, hb, htest⟩ := List.any_eq_true.mp htest
  rw [Bool.and_eq_true, beq_iff_eq, bne_iff_ne] at htest
  refine ⟨s, run, a, ha, b, hb, htest.1, fun hsame => htest.2 ?_⟩
  unfold showsDone
  rw [hsame]

end EphemeralAgent.Workflow
