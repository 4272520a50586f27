import EphemeralAgent.Lib.Sync
import EphemeralAgent.Workflow.Types

/-!
# The synchronous code of a workflow run

`src/agentic-workflows/workflow-runtime.ts`, class `WorkflowRunInstance`: the fields of a run and
the code that runs between two awaits.  The awaits themselves are the steps of
`EphemeralAgent/Workflow/Step.lean`.

An entry of `nodes` is addressed by its position, which never changes.  `history` is a record for
the theorems; no code reads it.
-/

namespace EphemeralAgent.Workflow

open EphemeralAgent.Lib

/-! ## Fields -/

/-- `WorkflowNodeRunEntry`.  `handle` says that the launch has resolved, `settled` that the
settlement of that handle has resolved. -/
structure WorkflowNodeRunEntry where
  start : NodeStartSpec
  metadata : Option JsonObject
  status : NodeRunStatus
  startedAt : Stamp
  completedAt : Option Stamp := none
  accepted : Option NodeOutcome := none
  handle : Bool := false
  settled : Bool := false

inductive WorkflowRunEventBody where
  | workflowStarted (metadata : Option JsonObject)
  | workflowSnapshotRecorded (stateVersion : Nat)
  | workflowDispatched (nodeRuns : List (NodeKind × String × Option JsonObject))
  | workflowNodeOutcomeReceived (nodeName : String)
  | workflowTransitionApplied (transition : StateTransitionRecord) (stateVersion : Nat)
  | workflowDeadlocked (report : DeadlockReport)
  | workflowFinished (outcome : WorkflowOutcome)

/-- `event.type`. -/
def WorkflowRunEventBody.type : WorkflowRunEventBody → String
  | .workflowStarted _ => "workflow_started"
  | .workflowSnapshotRecorded _ => "workflow_snapshot_recorded"
  | .workflowDispatched _ => "workflow_dispatched"
  | .workflowNodeOutcomeReceived _ => "workflow_node_outcome_received"
  | .workflowTransitionApplied _ _ => "workflow_transition_applied"
  | .workflowDeadlocked _ => "workflow_deadlocked"
  | .workflowFinished _ => "workflow_finished"

/-- `WorkflowRunEvent`; `seq` is its position. -/
structure WorkflowRunEvent where
  body : WorkflowRunEventBody
  time : Stamp

/-- The call or the check that an exception comes from. -/
inductive Site where
  | createInitialState
  | dispatch
  | validateSubmission
  | validateSettlement
  | applyNodeSettlement
  | evaluateWorkflowProgress
  | deadlock
  | getWorkflowOutcome
  | toJsonObject
  | requireState
  | staleNodeRun
  | refusedSettlement
  | interruptNode
  deriving DecidableEq, Repr

/-- A thrown error. -/
structure Fault where
  site : Site
  message : String
  deriving DecidableEq, Repr

/-- A suspended call of `#dispatch`: the launch it awaits, if any, and what is left to launch. -/
structure Frame where
  awaiting : Option Nat
  remaining : List WorkflowNodeDispatch

/-- The two threads of a run: the un-queued `start()` and the operation the queue is running. -/
inductive FlowId where
  | start
  | queue
  deriving DecidableEq, Repr

/-- Where `start()` stands. -/
inductive StartFlow where
  | idle
  | active (frames : List Frame)
  | returned
  | failed (fault : Fault)

/-- What a submitter can observe of a run. -/
structure Observed (X : Type) where
  state : Option (WorkflowState X)
  snapshots : List StateSnapshot
  statuses : List NodeRunStatus

/-- How the promise of `submit` settled. -/
inductive SubmissionResult where
  | accept (outcome : NodeOutcome)
  | reject (reason : String)
  | error (fault : Fault)

/-- Operations waiting in the queue. -/
inductive Operation where
  | submit (entry : Nat) (payload : Json)
  | settle (entry : Nat) (settlement : WorkflowNodeSettlement)
  | interrupt (reason : String)

/-- What the running operation does once its dispatches are launched. -/
inductive QueueTask (X : Type) where
  | submit (entry : Nat) (outcome : NodeOutcome) (before : Observed X)
  | settle (entry : Nat)

/-- The operation the queue is running. -/
inductive Active (X : Type) where
  | flow (task : QueueTask X) (frames : List Frame)
  | interrupting (reason : String) (running : List Nat)

inductive HistoryItem (X : Type) where
  | created (state : WorkflowState X)
  | launched (entry : Nat)
  | applyCalled (entry : Nat) (settlement : WorkflowNodeSettlement) (stamp : Stamp)
      (runtime : RuntimeSnapshot)
  | evaluateCalled (stamp : Stamp) (runtime : RuntimeSnapshot)
  | deadlocked (report : DeadlockReport)
  | interrupted (reason : String)
  | nodeInterrupted (entry : Nat)
  | finished (outcome : WorkflowOutcome)
  | answered (entry : Nat) (result : SubmissionResult) (before after : Observed X)
  | fault (flow : FlowId) (fault : Fault)

/-- `WorkflowRunInstance`. -/
structure WorkflowRunInstance (X : Type) where
  state : Option (WorkflowState X) := none
  nodes : List WorkflowNodeRunEntry := []
  snapshots : List StateSnapshot := []
  events : List WorkflowRunEvent := []
  finished : Bool := false
  outcome : Option WorkflowOutcome := none
  aborted : Option String := none
  lastDispatches : List WorkflowNodeDispatch := []
  queue : List Operation := []
  active : Option (Active X) := none
  startFlow : StartFlow := .idle
  clock : Stamp := 0
  history : List (HistoryItem X) := []

/-- `WorkflowStartRequest`, with the JSON projection of the implementation's states. -/
structure WorkflowStartRequest (X : Type) where
  definition : WorkflowDefinition
  implementation : WorkflowImplementation X
  args : JsonObject
  toJsonObject : WorkflowState X → Except String Json

abbrev RunM (X : Type) := Sync (WorkflowRunInstance X) Fault

/-! ## Reading a run -/

def nodeSnapshot (entry : WorkflowNodeRunEntry) : NodeRunSnapshot where
  nodeName := entry.start.node.name
  metadata := entry.metadata
  status := entry.status
  startedAt := entry.startedAt
  completedAt := entry.completedAt

namespace WorkflowRunInstance

variable {X : Type}

def runningNodes (s : WorkflowRunInstance X) : List NodeRunSnapshot :=
  (s.nodes.filter (·.status = .running)).map nodeSnapshot

def finishedNodes (s : WorkflowRunInstance X) : List NodeRunSnapshot :=
  (s.nodes.filter (·.status ≠ .running)).map nodeSnapshot

def timeline (s : WorkflowRunInstance X) : List WorkflowTimelineEntry :=
  s.events.map fun event => { type := event.body.type, time := event.time }

def runtimeSnapshot (s : WorkflowRunInstance X) : RuntimeSnapshot where
  runningNodes := s.runningNodes
  finishedNodes := s.finishedNodes
  timeline := s.timeline

def observed (s : WorkflowRunInstance X) : Observed X where
  state := s.state
  snapshots := s.snapshots
  statuses := s.nodes.map (·.status)

/-- `state.is_workflow_done`, false before the start. -/
def isDone (s : WorkflowRunInstance X) : Bool :=
  match s.state with
  | some state => state.isWorkflowDone
  | none => false

end WorkflowRunInstance

/-! ## Primitive writes -/

section Code

variable {X : Type} (c : WorkflowStartRequest X)

/-- Note an item in the history. -/
def note (item : HistoryItem X) : RunM X Unit :=
  Sync.modify fun s => { s with history := s.history ++ [item] }

/-- `this.#clock.now()`. -/
def now : RunM X Stamp := do
  let s ← Sync.get
  Sync.modify fun s => { s with clock := s.clock + 1 }
  return s.clock

/-- Note a call of the implementation under a new stamp. -/
def noteCall (item : Stamp → HistoryItem X) : RunM X Stamp := do
  let stamp ← now
  note (item stamp)
  return stamp

/-- A call of the implementation: it gets a new stamp and may throw. -/
def callback {α : Type} (site : Site) (call : Stamp → Except String α) : RunM X α := do
  let stamp ← now
  Sync.lift ((call stamp).mapError (Fault.mk site))

/-- `#requireState`. -/
def requireState : RunM X (WorkflowState X) := do
  let s ← Sync.get
  match s.state with
  | some state => return state
  | none => Sync.throw ⟨.requireState, "workflow run has not started"⟩

/-- `#emit`; the stream drops what comes after `close()`, the timeline keeps it. -/
def emit (body : WorkflowRunEventBody) : RunM X Unit := do
  let time ← now
  Sync.modify fun s => { s with events := s.events ++ [{ body, time }] }

def setState (state : WorkflowState X) : RunM X Unit :=
  Sync.modify fun s => { s with state := some state }

def updateEntry (entry : Nat) (f : WorkflowNodeRunEntry → WorkflowNodeRunEntry) : RunM X Unit :=
  Sync.modify fun s => { s with nodes := s.nodes.modify entry f }

/-! ## The methods -/

/-- `#recordSnapshot`. -/
def recordSnapshot : RunM X Unit := do
  let state ← requireState
  let recordedAt ← now
  let json ← Sync.lift ((c.toJsonObject state).mapError (Fault.mk .toJsonObject))
  Sync.modify fun s =>
    { s with snapshots := s.snapshots ++ [{ version := state.version, recordedAt, state := json }] }
  emit (.workflowSnapshotRecorded state.version)

/-- `#finish`: only the first call has an effect. -/
def finish (outcome : WorkflowOutcome) : RunM X Unit := do
  let s ← Sync.get
  if s.finished then return
  Sync.modify fun s => { s with finished := true, outcome := some outcome }
  emit (.workflowFinished outcome)
  note (.finished outcome)

/-- The outcome of a done state for which the implementation names none. -/
def defaultOutcome (state : WorkflowState X) : WorkflowOutcome :=
  if state.workflowStatus = .deadlocked then
    .deadlocked state.workflowStatus.toString none
  else
    .failure (some state.workflowStatus.toString) none

/-- `#finishIfDone`. -/
def finishIfDone : RunM X Bool := do
  let state ← requireState
  if !state.isWorkflowDone then return false
  let outcome ← callback .getWorkflowOutcome (c.implementation.getWorkflowOutcome · state)
  finish (outcome.getD (defaultOutcome state))
  return true

/-- `#applyTransition`. -/
def applyTransition (result : StateTransitionResult X) : RunM X Unit := do
  setState result.state
  match result.transition with
  | none => return
  | some transition => emit (.workflowTransitionApplied transition result.state.version)

/-- The transition `#deadlockIfIdle` records. -/
def deadlockTransition (report : DeadlockReport) : StateTransitionRecord where
  type := "workflow_deadlocked"
  rest := ("reason", .str report.reason) ::
    match report.details with
    | some details => [("details", .obj details)]
    | none => []

/-- The state `#deadlockIfIdle` leaves. -/
def deadlockState (state : WorkflowState X) (report : DeadlockReport) : WorkflowState X :=
  { state with
    isWorkflowDone := true
    workflowStatus := .deadlocked
    lastTransition := some (deadlockTransition report) }

/-- `#deadlockIfIdle`. -/
def deadlockIfIdle : RunM X Unit := do
  let state ← requireState
  let s ← Sync.get
  if state.isWorkflowDone || !s.runningNodes.isEmpty then return
  if !s.lastDispatches.isEmpty then return
  let report ← callback .deadlock
    (c.implementation.deadlock · state s.runtimeSnapshot s.lastDispatches)
  match report with
  | none => return
  | some report =>
    setState (deadlockState state report)
    note (.deadlocked report)
    emit (.workflowDeadlocked report)
    emit (.workflowTransitionApplied (deadlockTransition report) state.version)
    recordSnapshot c
    finish (.deadlocked report.reason report.details)

/-- `#claimDispatch`, followed by the call of `nodeRunner.launch`. -/
def claimAndLaunch (dispatch : WorkflowNodeDispatch) : RunM X Nat := do
  let startedAt ← now
  let s ← Sync.get
  Sync.modify fun s =>
    { s with nodes := s.nodes ++
        [{ start := dispatch.start, metadata := dispatch.metadata, status := .running,
           startedAt }] }
  note (.launched s.nodes.length)
  return s.nodes.length

/-- `#dispatch` up to its first await: nothing is left to await, or a launch is in flight. -/
def dispatch : RunM X (Option Frame) := do
  let state ← requireState
  if state.isWorkflowDone then return none
  let s ← Sync.get
  let dispatches ← callback .dispatch
    (c.implementation.dispatch · c.definition state s.runtimeSnapshot)
  Sync.modify fun s => { s with lastDispatches := dispatches }
  match dispatches with
  | [] =>
    deadlockIfIdle c
    return none
  | first :: rest =>
    emit (.workflowDispatched ((first :: rest).map fun d =>
      (d.start.node.kind, d.start.node.name, d.metadata)))
    let entry ← claimAndLaunch first
    return some { awaiting := some entry, remaining := rest }

/-- `#applyValidatedSettlement` up to its first await. -/
def applyValidatedSettlement (entry : Nat) (settlement : WorkflowNodeSettlement) :
    RunM X (Option Frame) := do
  let state ← requireState
  let runtime := (← Sync.get).runtimeSnapshot
  let stamp ← noteCall (.applyCalled entry settlement · runtime)
  let applied ← Sync.lift
    ((c.implementation.applyNodeSettlement stamp state settlement runtime).mapError
      (Fault.mk .applyNodeSettlement))
  applyTransition applied
  let state ← requireState
  let runtime := (← Sync.get).runtimeSnapshot
  let stamp ← noteCall (.evaluateCalled · runtime)
  let evaluated ← Sync.lift
    ((c.implementation.evaluateWorkflowProgress stamp state runtime).mapError
      (Fault.mk .evaluateWorkflowProgress))
  applyTransition evaluated
  recordSnapshot c
  let done ← finishIfDone c
  if done then return none
  dispatch c

/-- The settlement of an accepted submission. -/
def completedSettlement (entry : WorkflowNodeRunEntry) (outcome : NodeOutcome) :
    WorkflowNodeSettlement :=
  .completed
    { node := entry.start.node
      metadata := entry.metadata
      outcomeName := outcome.outcomeName
      outcome := outcome.outcome }

/-- The settlement of a launch that threw. -/
def failedLaunchSettlement (entry : WorkflowNodeRunEntry) (reason : String) :
    WorkflowNodeSettlement :=
  .failed entry.start.node entry.metadata reason

/-- The settlement the monitor enqueues; `none` for a completed handle. -/
def monitoredSettlement (entry : WorkflowNodeRunEntry) :
    NodeSettlement → Option WorkflowNodeSettlement
  | .completed _ => none
  | .rejected reason => some (.rejected entry.start.node entry.metadata reason)
  | .failed reason => some (.failed entry.start.node entry.metadata reason)
  | .cancelled reason => some (.cancelled entry.start.node entry.metadata reason)

/-- How the synchronous part of `#submitNodeCompletion` ends. -/
inductive Submitted where
  | rejected (reason : String)
  | applied (outcome : NodeOutcome) (frame : Option Frame)

/-- `#submitNodeCompletion` up to its first await. -/
def submitNodeCompletion (index : Nat) (entry : WorkflowNodeRunEntry) (payload : Json) :
    RunM X Submitted := do
  if entry.status ≠ .running then return .rejected "node run is already finished"
  match entry.start.outcome.safeParse payload with
  | .error issues =>
    return .rejected ("invalid " ++ entry.start.outcome.name ++ ": " ++ issues)
  | .ok parsed =>
    let outcome : NodeOutcome := { outcomeName := entry.start.outcome.name, outcome := parsed }
    emit (.workflowNodeOutcomeReceived entry.start.node.name)
    let settlement := completedSettlement entry outcome
    let state ← requireState
    let runtime := (← Sync.get).runtimeSnapshot
    let validation ← callback .validateSubmission
      (c.implementation.validateNodeSettlement · state settlement runtime)
    match validation with
    | .refused reason => return .rejected reason
    | .ok =>
      let completedAt ← now
      updateEntry index fun entry =>
        { entry with
          status := .completed
          completedAt := some completedAt
          accepted := some outcome }
      let frame ← applyValidatedSettlement c index settlement
      return .applied outcome frame

/-- `#settleNodeRun` up to its first await. -/
def settleNodeRun (index : Nat) (entry : WorkflowNodeRunEntry)
    (settlement : WorkflowNodeSettlement) : RunM X (Option Frame) := do
  if settlement.status = .completed then return none
  if entry.status ≠ .running then Sync.throw ⟨.staleNodeRun, "node run is already finished"⟩
  let state ← requireState
  let runtime := (← Sync.get).runtimeSnapshot
  let validation ← callback .validateSettlement
    (c.implementation.validateNodeSettlement · state settlement runtime)
  match validation with
  | .refused reason => Sync.throw ⟨.refusedSettlement, reason⟩
  | .ok =>
    let completedAt ← now
    updateEntry index fun entry =>
      { entry with status := settlement.status, completedAt := some completedAt }
    applyValidatedSettlement c index settlement

/-- The transition `#interrupt` records. -/
def interruptTransition (reason : String) : StateTransitionRecord where
  type := "workflow_interrupted"
  rest := [("reason", .str reason)]

/-- The state `#interrupt` leaves. -/
def interruptState (state : WorkflowState X) (reason : String) : WorkflowState X :=
  { state with
    isWorkflowDone := true
    workflowStatus := .failure
    lastTransition := some (interruptTransition reason) }

/-- The positions of the entries that are running. -/
def runningEntries (s : WorkflowRunInstance X) : List Nat :=
  (List.range s.nodes.length).filter fun index =>
    match s.nodes[index]? with
    | some entry => entry.status = .running
    | none => false

/-- The running entries whose handle `#interrupt` calls. -/
def interruptedHandles (s : WorkflowRunInstance X) : List Nat :=
  (runningEntries s).filter fun index =>
    match s.nodes[index]? with
    | some entry => entry.handle
    | none => false

/-- `#interrupt` up to `Promise.all`: `none` when the run is already finished. -/
def beginInterrupt (reason : String) : RunM X (Option (List Nat)) := do
  let s ← Sync.get
  if s.finished then return none
  Sync.modify fun s =>
    { s with
      aborted := some reason
      history := s.history ++ (interruptedHandles s).map .nodeInterrupted }
  return some (runningEntries s)

/-- `entry.status = "cancelled"` for every entry of the list. -/
def cancelEntries (completedAt : Stamp) (running : List Nat) (nodes : List WorkflowNodeRunEntry) :
    List WorkflowNodeRunEntry :=
  running.foldl (fun nodes index => nodes.modify index fun entry =>
    { entry with status := .cancelled, completedAt := some completedAt }) nodes

/-- `#interrupt` after `Promise.all`. -/
def completeInterrupt (reason : String) (running : List Nat) : RunM X Unit := do
  let completedAt ← now
  Sync.modify fun s => { s with nodes := cancelEntries completedAt running s.nodes }
  let state ← requireState
  setState (interruptState state reason)
  note (.interrupted reason)
  emit (.workflowTransitionApplied (interruptTransition reason) state.version)
  recordSnapshot c
  finish (.cancelled reason)

/-- `start()` up to its first await. -/
def startRun : RunM X (Option Frame) := do
  let state ← callback .createInitialState
    (c.implementation.createInitialState · c.definition c.args)
  setState state
  note (.created state)
  emit (.workflowStarted c.definition.metadata)
  recordSnapshot c
  let done ← finishIfDone c
  if done then return none
  dispatch c

end Code

end EphemeralAgent.Workflow
