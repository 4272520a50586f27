import EphemeralAgent.Workflow.Step

/-!
# What the code between two awaits can do

For each method of `WorkflowRunInstance`, the ways it can end: its answer, the state it leaves
and the callback answers that lead there.  Every theorem about runs goes through these lists, so
that no other proof unfolds a method.

`clock` and `events` are left open in the states: they grow, and nothing else depends on them.
-/

namespace EphemeralAgent.Workflow

open EphemeralAgent.Lib

variable {X : Type} {c : WorkflowStartRequest X} {s t : WorkflowRunInstance X}

/-! ## Primitives -/

@[simp] theorem now_run : (now : RunM X Stamp) s = (.ok s.clock, { s with clock := s.clock + 1 }) :=
  rfl

@[simp] theorem note_run (item : HistoryItem X) :
    note item s = (.ok (), { s with history := s.history ++ [item] }) := rfl

@[simp] theorem noteCall_run (item : Stamp → HistoryItem X) :
    noteCall item s =
      (.ok s.clock, { s with clock := s.clock + 1, history := s.history ++ [item s.clock] }) := rfl

@[simp] theorem setState_run (state : WorkflowState X) :
    setState state s = (.ok (), { s with state := some state }) := rfl

@[simp] theorem emit_run (body : WorkflowRunEventBody) :
    (emit body : RunM X Unit) s = (.ok (),
      { s with
        clock := s.clock + 1
        events := s.events ++ [{ body, time := s.clock }] }) := rfl

@[simp] theorem updateEntry_run (entry : Nat) (f : WorkflowNodeRunEntry → WorkflowNodeRunEntry) :
    (updateEntry entry f : RunM X Unit) s =
      (.ok (), { s with nodes := s.nodes.modify entry f }) := rfl

@[simp] theorem callback_run {α : Type} (site : Site) (call : Stamp → Except String α) :
    (callback site call : RunM X α) s =
      ((call s.clock).mapError (Fault.mk site), { s with clock := s.clock + 1 }) := rfl

theorem requireState_run {state : WorkflowState X} (h : s.state = some state) :
    requireState s = (.ok state, s) := by
  simp [requireState, h]

theorem requireState_run_none (h : s.state = none) :
    requireState s = (.error ⟨.requireState, "workflow run has not started"⟩, s) := by
  simp [requireState, h]

@[simp] theorem claimAndLaunch_run (d : WorkflowNodeDispatch) :
    claimAndLaunch d s = (.ok s.nodes.length,
      { s with
        clock := s.clock + 1
        nodes := s.nodes ++
          [{ start := d.start, metadata := d.metadata, status := .running, startedAt := s.clock }]
        history := s.history ++ [.launched s.nodes.length] }) := rfl

theorem applyTransition_run (result : StateTransitionResult X) :
    ∃ clock events, applyTransition result s =
      (.ok (), { s with state := some result.state, clock, events }) := by
  unfold applyTransition
  cases result.transition with
  | none => exact ⟨s.clock, s.events, rfl⟩
  | some transition => exact ⟨_, _, rfl⟩

/-! ## Snapshots and the end of a run -/

/-- How `recordSnapshot` ends. -/
inductive Recorded (s : WorkflowRunInstance X) :
    Except Fault Unit → WorkflowRunInstance X → Prop
  | threw (message : String) (clock : Stamp) :
      Recorded s (.error ⟨.toJsonObject, message⟩) { s with clock }
  | recorded (snapshot : StateSnapshot) (clock : Stamp) (events : List WorkflowRunEvent) :
      Recorded s (.ok ()) { s with snapshots := s.snapshots ++ [snapshot], clock, events }

theorem recordSnapshot_cases {state : WorkflowState X} (h : s.state = some state) :
    Recorded s (recordSnapshot c s).1 (recordSnapshot c s).2 := by
  simp only [recordSnapshot, Sync.bind_run, requireState_run h, now_run, Sync.lift_run]
  cases c.toJsonObject state with
  | error message => exact .threw message _
  | ok json => exact .recorded _ _ _

/-- A snapshot fails only when the state has no JSON projection. -/
theorem recordSnapshot_fst {state : WorkflowState X} (h : s.state = some state) :
    (recordSnapshot c s).1 =
      ((c.toJsonObject state).mapError (Fault.mk .toJsonObject)).map fun _ => () := by
  simp only [recordSnapshot, Sync.bind_run, requireState_run h, now_run, Sync.lift_run]
  cases c.toJsonObject state <;> rfl

theorem recordSnapshot_threw {state : WorkflowState X} (h : s.state = some state) {fault : Fault}
    (hthrew : (recordSnapshot c s).1 = .error fault) :
    c.toJsonObject state = .error fault.message := by
  rw [recordSnapshot_fst h] at hthrew
  cases hjson : c.toJsonObject state with
  | error message =>
    rw [hjson] at hthrew
    cases hthrew
    rfl
  | ok json =>
    rw [hjson] at hthrew
    cases hthrew

/-- What `finish` leaves. -/
inductive Finished (outcome : WorkflowOutcome) (s : WorkflowRunInstance X) :
    WorkflowRunInstance X → Prop
  | already (h : s.finished = true) : Finished outcome s s
  | finished (h : s.finished = false) (clock : Stamp) (events : List WorkflowRunEvent) :
      Finished outcome s
        { s with
          finished := true
          outcome := some outcome
          clock
          events
          history := s.history ++ [.finished outcome] }

theorem finish_cases (outcome : WorkflowOutcome) :
    (finish outcome s).1 = .ok () ∧ Finished outcome s (finish outcome s).2 := by
  simp only [finish, Sync.bind_run, Sync.get_run, Sync.ite_run]
  cases h : s.finished with
  | true => exact ⟨rfl, .already h⟩
  | false => exact ⟨rfl, .finished h _ _⟩

/-- How `finishIfDone` ends. -/
inductive FinishedIfDone (c : WorkflowStartRequest X) (state : WorkflowState X)
    (s : WorkflowRunInstance X) : Except Fault Bool → WorkflowRunInstance X → Prop
  | notDone (h : state.isWorkflowDone = false) : FinishedIfDone c state s (.ok false) s
  | threw (h : state.isWorkflowDone = true) (message : String) (clock : Stamp)
      (hanswer : c.implementation.getWorkflowOutcome s.clock state = .error message) :
      FinishedIfDone c state s (.error ⟨.getWorkflowOutcome, message⟩) { s with clock }
  | done (h : state.isWorkflowDone = true) (outcome : WorkflowOutcome) (clock : Stamp)
      (houtcome : ∃ stamp, ∃ answer,
        c.implementation.getWorkflowOutcome stamp state = .ok answer ∧
          outcome = answer.getD (defaultOutcome state))
      (t : WorkflowRunInstance X) (ht : Finished outcome { s with clock } t) :
      FinishedIfDone c state s (.ok true) t

theorem finishIfDone_cases {state : WorkflowState X} (h : s.state = some state) :
    FinishedIfDone c state s (finishIfDone c s).1 (finishIfDone c s).2 := by
  simp only [finishIfDone, Sync.bind_run, requireState_run h, Sync.ite_run, Bool.not_eq_true',
    callback_run]
  cases hd : state.isWorkflowDone with
  | false => exact .notDone hd
  | true =>
    rw [if_neg (by simp)]
    cases ho : c.implementation.getWorkflowOutcome s.clock state with
    | error message => exact .threw hd message _ ho
    | ok answer =>
      simp only [Except.mapError]
      obtain ⟨hok, hfin⟩ :=
        finish_cases (s := { s with clock := s.clock + 1 }) (answer.getD (defaultOutcome state))
      cases hr : finish (answer.getD (defaultOutcome state)) { s with clock := s.clock + 1 } with
      | mk r t =>
        rw [hr] at hok hfin
        obtain rfl : r = .ok () := hok
        exact .done hd _ _ ⟨_, _, ho, rfl⟩ t hfin

/-! ## Dispatching -/

/-- What `deadlockIfIdle` leaves, and how it ends, after a dispatch of nothing. -/
inductive Idled (c : WorkflowStartRequest X) (state : WorkflowState X)
    (s : WorkflowRunInstance X) : Except Fault Unit → WorkflowRunInstance X → Prop
  | waiting (h : s.runningNodes ≠ []) : Idled c state s (.ok ()) s
  | threw (message : String) (clock : Stamp) (h : s.runningNodes = [])
      (hanswer : c.implementation.deadlock s.clock state s.runtimeSnapshot [] = .error message) :
      Idled c state s (.error ⟨.deadlock, message⟩) { s with clock }
  | noReport (clock : Stamp) (h : s.runningNodes = [])
      (hanswer : c.implementation.deadlock s.clock state s.runtimeSnapshot [] = .ok none) :
      Idled c state s (.ok ()) { s with clock }
  | snapshotThrew (h : s.runningNodes = []) (report : DeadlockReport) (message : String)
      (clock : Stamp) (events : List WorkflowRunEvent)
      (hjson : c.toJsonObject (deadlockState state report) = .error message) :
      Idled c state s (.error ⟨.toJsonObject, message⟩)
        { s with
          state := some (deadlockState state report)
          clock
          events
          history := s.history ++ [.deadlocked report] }
  | deadlocked (h : s.runningNodes = []) (report : DeadlockReport) (snapshot : StateSnapshot)
      (clock : Stamp) (events : List WorkflowRunEvent) (t : WorkflowRunInstance X)
      (ht : Finished (.deadlocked report.reason report.details)
        { s with
          state := some (deadlockState state report)
          snapshots := s.snapshots ++ [snapshot]
          clock
          events
          history := s.history ++ [.deadlocked report] } t) :
      Idled c state s (.ok ()) t

theorem deadlockIfIdle_cases {state : WorkflowState X} (h : s.state = some state)
    (hdone : state.isWorkflowDone = false) (hlast : s.lastDispatches = []) :
    Idled c state s (deadlockIfIdle c s).1 (deadlockIfIdle c s).2 := by
  simp only [deadlockIfIdle, Sync.bind_run, requireState_run h, Sync.get_run, Sync.ite_run, hdone,
    Bool.false_or, hlast]
  by_cases hrun : s.runningNodes = []
  · rw [if_neg (by simp [hrun]), if_neg (by simp)]
    simp only [callback_run]
    cases hanswer : c.implementation.deadlock s.clock state s.runtimeSnapshot [] with
    | error message => exact .threw message _ hrun hanswer
    | ok answer =>
      cases answer with
      | none => exact .noReport _ hrun hanswer
      | some report =>
        simp only [Except.mapError, Sync.bind_run, setState_run, note_run, emit_run]
        set u : WorkflowRunInstance X :=
          { s with
            state := some (deadlockState state report)
            clock := s.clock + 1 + 1 + 1
            events := s.events ++ [{ body := .workflowDeadlocked report, time := s.clock + 1 }] ++
              [{ body := .workflowTransitionApplied (deadlockTransition report) state.version,
                 time := s.clock + 1 + 1 }]
            history := s.history ++ [.deadlocked report] } with hu
        have hstate : u.state = some (deadlockState state report) := rfl
        have hrec := recordSnapshot_cases (c := c) hstate
        cases hr : recordSnapshot c u with
        | mk r v =>
          rw [hr] at hrec
          cases hrec with
          | threw message clock =>
            have hthrew : (recordSnapshot c u).1 = .error ⟨.toJsonObject, message⟩ := by rw [hr]
            exact .snapshotThrew hrun report message clock u.events
              (recordSnapshot_threw hstate hthrew)
          | recorded snapshot clock events =>
            obtain ⟨hok, hfin⟩ :=
              finish_cases (s := { u with snapshots := u.snapshots ++ [snapshot], clock, events })
                (.deadlocked report.reason report.details)
            simp only
            cases hr' : finish (X := X) (.deadlocked report.reason report.details)
                { u with snapshots := u.snapshots ++ [snapshot], clock, events } with
            | mk r w =>
              rw [hr'] at hok hfin
              obtain rfl : r = .ok () := hok
              exact .deadlocked hrun report snapshot clock events w hfin
  · rw [if_pos (by simpa using hrun)]
    exact .waiting hrun

/-- How `dispatch` ends. -/
inductive Dispatched (c : WorkflowStartRequest X) (state : WorkflowState X)
    (s : WorkflowRunInstance X) : Except Fault (Option Frame) → WorkflowRunInstance X → Prop
  | done (h : state.isWorkflowDone = true) : Dispatched c state s (.ok none) s
  | threw (h : state.isWorkflowDone = false) (message : String) (clock : Stamp)
      (hdispatch : c.implementation.dispatch s.clock c.definition state s.runtimeSnapshot =
        .error message) :
      Dispatched c state s (.error ⟨.dispatch, message⟩) { s with clock }
  | launched (h : state.isWorkflowDone = false) (stamp : Stamp) (first : WorkflowNodeDispatch)
      (rest : List WorkflowNodeDispatch)
      (hdispatch : c.implementation.dispatch stamp c.definition state s.runtimeSnapshot =
        .ok (first :: rest))
      (clock startedAt : Stamp) (events : List WorkflowRunEvent) :
      Dispatched c state s (.ok (some { awaiting := some s.nodes.length, remaining := rest }))
        { s with
          lastDispatches := first :: rest
          clock
          events
          nodes := s.nodes ++
            [{ start := first.start, metadata := first.metadata, status := .running, startedAt }]
          history := s.history ++ [.launched s.nodes.length] }
  | idle (h : state.isWorkflowDone = false) (stamp : Stamp)
      (hdispatch : c.implementation.dispatch stamp c.definition state s.runtimeSnapshot = .ok [])
      (clock : Stamp) (t : WorkflowRunInstance X)
      (ht : Idled c state { s with lastDispatches := [], clock } (.ok ()) t) :
      Dispatched c state s (.ok none) t
  | idleThrew (h : state.isWorkflowDone = false) (stamp : Stamp)
      (hdispatch : c.implementation.dispatch stamp c.definition state s.runtimeSnapshot = .ok [])
      (clock : Stamp) (fault : Fault) (t : WorkflowRunInstance X)
      (ht : Idled c state { s with lastDispatches := [], clock } (.error fault) t) :
      Dispatched c state s (.error fault) t

theorem dispatch_cases {state : WorkflowState X} (h : s.state = some state) :
    Dispatched c state s (dispatch c s).1 (dispatch c s).2 := by
  simp only [dispatch, Sync.bind_run, requireState_run h, Sync.ite_run, Sync.get_run]
  cases hd : state.isWorkflowDone with
  | true => exact .done hd
  | false =>
    rw [if_neg (by simp)]
    simp only [callback_run]
    cases hdispatch : c.implementation.dispatch s.clock c.definition state s.runtimeSnapshot with
    | error message => exact .threw hd message _ hdispatch
    | ok dispatches =>
      cases dispatches with
      | cons first rest => exact .launched hd _ first rest hdispatch _ _ _
      | nil =>
        simp only [Except.mapError, Sync.bind_run, Sync.modify_run]
        have hidle := deadlockIfIdle_cases (c := c)
          (s := { s with lastDispatches := [], clock := s.clock + 1 }) h hd rfl
        cases hr : deadlockIfIdle c { s with lastDispatches := [], clock := s.clock + 1 } with
        | mk r t =>
          rw [hr] at hidle
          cases r with
          | error fault => exact .idleThrew hd _ hdispatch _ fault t hidle
          | ok u => exact .idle hd _ hdispatch _ t hidle

/-! ## Applying a settlement -/

/-- The common end of `startRun` and `applyValidatedSettlement`. -/
inductive Concluded (c : WorkflowStartRequest X) (state : WorkflowState X)
    (s : WorkflowRunInstance X) : Except Fault (Option Frame) → WorkflowRunInstance X → Prop
  | snapshotThrew (message : String) (clock : Stamp)
      (hjson : c.toJsonObject state = .error message) :
      Concluded c state s (.error ⟨.toJsonObject, message⟩) { s with clock }
  | outcomeThrew (h : state.isWorkflowDone = true) (snapshot : StateSnapshot) (message : String)
      (clock : Stamp) (events : List WorkflowRunEvent)
      (hanswer : ∃ stamp, c.implementation.getWorkflowOutcome stamp state = .error message) :
      Concluded c state s (.error ⟨.getWorkflowOutcome, message⟩)
        { s with snapshots := s.snapshots ++ [snapshot], clock, events }
  | finished (h : state.isWorkflowDone = true) (snapshot : StateSnapshot) (clock : Stamp)
      (events : List WorkflowRunEvent) (outcome : WorkflowOutcome)
      (houtcome : ∃ stamp, ∃ answer,
        c.implementation.getWorkflowOutcome stamp state = .ok answer ∧
          outcome = answer.getD (defaultOutcome state))
      (t : WorkflowRunInstance X)
      (ht : Finished outcome
        { s with snapshots := s.snapshots ++ [snapshot], clock, events } t) :
      Concluded c state s (.ok none) t
  | continued (h : state.isWorkflowDone = false) (snapshot : StateSnapshot) (clock : Stamp)
      (events : List WorkflowRunEvent) (r : Except Fault (Option Frame))
      (t : WorkflowRunInstance X)
      (ht : Dispatched c state
        { s with snapshots := s.snapshots ++ [snapshot], clock, events } r t) :
      Concluded c state s r t

/-- `recordSnapshot`, `finishIfDone` and, in a state that is not done, `dispatch`. -/
theorem conclude_cases {state : WorkflowState X} (h : s.state = some state)
    {m : RunM X (Option Frame)}
    (hm : m = do
      recordSnapshot c
      let done ← finishIfDone c
      if done then return none
      dispatch c) :
    Concluded c state s (m s).1 (m s).2 := by
  subst hm
  simp only [Sync.bind_run]
  have hrec := recordSnapshot_cases (c := c) h
  cases hr : recordSnapshot c s with
  | mk r u =>
    rw [hr] at hrec
    cases hrec with
    | threw message clock =>
      have hthrew : (recordSnapshot c s).1 = .error ⟨.toJsonObject, message⟩ := by rw [hr]
      exact .snapshotThrew message clock (recordSnapshot_threw h hthrew)
    | recorded snapshot clock events =>
      simp only
      have hfin := finishIfDone_cases (c := c)
        (s := { s with snapshots := s.snapshots ++ [snapshot], clock, events }) h
      cases hr' : finishIfDone c
          { s with snapshots := s.snapshots ++ [snapshot], clock, events } with
      | mk r v =>
        rw [hr'] at hfin
        simp only at hfin
        cases hfin with
        | threw hd message clock hanswer =>
          exact .outcomeThrew (s := s) hd snapshot message clock events ⟨_, hanswer⟩
        | done hd outcome clock houtcome _ ht =>
          exact .finished (s := s) hd snapshot clock events outcome houtcome v ht
        | notDone hd =>
          exact .continued (s := s) hd snapshot clock events _ _ (dispatch_cases h)

/-- The run when `evaluateWorkflowProgress` is called, after `applyNodeSettlement` has answered. -/
def evaluating (entry : Nat) (settlement : WorkflowNodeSettlement)
    (applied : StateTransitionResult X) (s : WorkflowRunInstance X) : WorkflowRunInstance X :=
  (applyTransition applied
    { s with
      clock := s.clock + 1
      history := s.history ++ [.applyCalled entry settlement s.clock s.runtimeSnapshot] }).2

theorem evaluating_runningNodes (entry : Nat) (settlement : WorkflowNodeSettlement)
    (applied : StateTransitionResult X) :
    (evaluating entry settlement applied s).runtimeSnapshot.runningNodes = s.runningNodes := by
  obtain ⟨clock, events, hu⟩ := applyTransition_run
    (s := { s with
      clock := s.clock + 1
      history := s.history ++ [.applyCalled entry settlement s.clock s.runtimeSnapshot] }) applied
  unfold evaluating
  rw [hu]
  rfl

/-- How `applyValidatedSettlement` ends. -/
inductive Applied (c : WorkflowStartRequest X) (entry : Nat) (settlement : WorkflowNodeSettlement)
    (state : WorkflowState X) (s : WorkflowRunInstance X) :
    Except Fault (Option Frame) → WorkflowRunInstance X → Prop
  | applyThrew (message : String) (clock : Stamp)
      (happly : c.implementation.applyNodeSettlement s.clock state settlement s.runtimeSnapshot =
        .error message) :
      Applied c entry settlement state s (.error ⟨.applyNodeSettlement, message⟩)
        { s with
          clock
          history := s.history ++ [.applyCalled entry settlement s.clock s.runtimeSnapshot] }
  | evaluateThrew (applied : StateTransitionResult X)
      (happly : c.implementation.applyNodeSettlement s.clock state settlement s.runtimeSnapshot =
        .ok applied)
      (stamp : Stamp) (hstamp : stamp = (evaluating entry settlement applied s).clock)
      (runtime : RuntimeSnapshot)
      (hruntime : runtime = (evaluating entry settlement applied s).runtimeSnapshot)
      (message : String)
      (hevaluate : c.implementation.evaluateWorkflowProgress stamp applied.state runtime =
        .error message)
      (clock : Stamp) (events : List WorkflowRunEvent) :
      Applied c entry settlement state s (.error ⟨.evaluateWorkflowProgress, message⟩)
        { s with
          state := some applied.state
          clock
          events
          history := s.history ++ [.applyCalled entry settlement s.clock s.runtimeSnapshot] ++
            [.evaluateCalled stamp runtime] }
  | evaluated (applied : StateTransitionResult X)
      (happly : c.implementation.applyNodeSettlement s.clock state settlement s.runtimeSnapshot =
        .ok applied)
      (stamp : Stamp) (hstamp : stamp = (evaluating entry settlement applied s).clock)
      (runtime : RuntimeSnapshot)
      (hruntime : runtime = (evaluating entry settlement applied s).runtimeSnapshot)
      (evaluated : StateTransitionResult X)
      (hevaluate : c.implementation.evaluateWorkflowProgress stamp applied.state runtime =
        .ok evaluated)
      (clock : Stamp) (events : List WorkflowRunEvent) (r : Except Fault (Option Frame))
      (t : WorkflowRunInstance X)
      (ht : Concluded c evaluated.state
        { s with
          state := some evaluated.state
          clock
          events
          history := s.history ++ [.applyCalled entry settlement s.clock s.runtimeSnapshot] ++
            [.evaluateCalled stamp runtime] } r t) :
      Applied c entry settlement state s r t

theorem applyValidatedSettlement_cases {state : WorkflowState X} (h : s.state = some state)
    (entry : Nat) (settlement : WorkflowNodeSettlement) :
    Applied c entry settlement state s (applyValidatedSettlement c entry settlement s).1
      (applyValidatedSettlement c entry settlement s).2 := by
  simp only [applyValidatedSettlement, Sync.bind_run, requireState_run h, Sync.get_run,
    noteCall_run, Sync.lift_run]
  cases happly : c.implementation.applyNodeSettlement s.clock state settlement
      s.runtimeSnapshot with
  | error message => exact .applyThrew message _ happly
  | ok applied =>
    simp only [Except.mapError]
    obtain ⟨clock, events, hu⟩ := applyTransition_run
      (s := { s with
        clock := s.clock + 1
        history := s.history ++ [.applyCalled entry settlement s.clock s.runtimeSnapshot] }) applied
    have hevaluating := congrArg Prod.snd hu
    simp only [hu]
    simp only [requireState, Sync.bind_run, Sync.get_run, Sync.pure_run]
    generalize hruntime : (WorkflowRunInstance.runtimeSnapshot _ : RuntimeSnapshot) = runtime
    have hstamp : clock = (evaluating entry settlement applied s).clock := by
      rw [evaluating, hevaluating]
    have hruntime' : runtime = (evaluating entry settlement applied s).runtimeSnapshot := by
      rw [evaluating, hevaluating, ← hruntime]
    cases hevaluate : c.implementation.evaluateWorkflowProgress clock applied.state runtime with
    | error message =>
      exact .evaluateThrew applied happly clock hstamp runtime hruntime' message hevaluate _ _
    | ok evaluated =>
      simp only
      obtain ⟨clock', events', hv⟩ := applyTransition_run
        (s := { s with
          state := some applied.state
          clock := clock + 1
          events
          history := s.history ++ [.applyCalled entry settlement s.clock s.runtimeSnapshot] ++
            [.evaluateCalled clock runtime] }) evaluated
      simp only [hv]
      exact .evaluated applied happly clock hstamp runtime hruntime' evaluated hevaluate _ _ _ _
        (conclude_cases rfl rfl)

end EphemeralAgent.Workflow
