import EphemeralAgent.Contracts.Message

/-!
# What the workflow runtime and its implementations exchange

`src/nodes/*.ts` and `src/agentic-workflows/workflow-implementation.ts`: nodes and their outcome
contracts, settlements, the base of every workflow state, and the callbacks of a
`WorkflowImplementation`.

A callback may throw, so its answer is an `Except`.  It may also depend on more than its
arguments (`randomUUID`, `new Date()`, a closure), so it gets a `Stamp`, a number that is new at
every call: a callback of the source is then a function of its arguments and of the stamp.
-/

namespace EphemeralAgent.Workflow

/-- A point in the life of a run: a clock reading, or the identity of one callback call. -/
abbrev Stamp := Nat

/-! ## Nodes -/

inductive NodeKind where
  | agent
  | workflow
  deriving DecidableEq, Repr

structure NodeDefinition where
  kind : NodeKind
  name : String
  description : Option String := none
  deriving DecidableEq, Repr

/-- `NodeOutcomeContract`; `safeParse` is the schema, its error the summary of the Zod issues. -/
structure NodeOutcomeContract where
  name : String
  description : String
  safeParse : Json → Except String Json

/-- `AgentNodeInput` or `WorkflowNodeInput`. -/
inductive NodeInput where
  | agent (messages : List Message) (metadata : Option JsonObject)
  | workflow (args : JsonObject) (metadata : Option JsonObject)

structure NodeStartSpec where
  node : NodeDefinition
  input : NodeInput
  outcome : NodeOutcomeContract

structure WorkflowNodeDispatch where
  start : NodeStartSpec
  metadata : Option JsonObject

structure NodeOutcome where
  outcomeName : String
  outcome : Json

/-- `NodeSettlement`: how a node handle ended. -/
inductive NodeSettlement where
  | completed (outcome : NodeOutcome)
  | rejected (reason : String)
  | failed (reason : String)
  | cancelled (reason : Option String)

/-- `WorkflowNodeOutcome`. -/
structure WorkflowNodeOutcome where
  node : NodeDefinition
  metadata : Option JsonObject
  outcomeName : String
  outcome : Json

/-- `WorkflowNodeSettlement`: what an implementation is asked to validate and to apply. -/
inductive WorkflowNodeSettlement where
  | completed (accepted : WorkflowNodeOutcome)
  | rejected (node : NodeDefinition) (metadata : Option JsonObject) (reason : String)
  | failed (node : NodeDefinition) (metadata : Option JsonObject) (reason : String)
  | cancelled (node : NodeDefinition) (metadata : Option JsonObject) (reason : Option String)

/-- The metadata a settlement carries. -/
def WorkflowNodeSettlement.metadata : WorkflowNodeSettlement → Option JsonObject
  | .completed accepted => accepted.metadata
  | .rejected _ metadata _ => metadata
  | .failed _ metadata _ => metadata
  | .cancelled _ metadata _ => metadata

inductive NodeRunStatus where
  | running
  | completed
  | rejected
  | cancelled
  | failed
  deriving DecidableEq, Repr

/-- `settlement.status`. -/
def WorkflowNodeSettlement.status : WorkflowNodeSettlement → NodeRunStatus
  | .completed _ => .completed
  | .rejected .. => .rejected
  | .failed .. => .failed
  | .cancelled .. => .cancelled

structure NodeRunSnapshot where
  nodeName : String
  metadata : Option JsonObject
  status : NodeRunStatus
  startedAt : Stamp
  completedAt : Option Stamp

/-! ## Workflow state -/

inductive WorkflowStatus where
  | running
  | success
  | failure
  | deadlocked
  deriving DecidableEq, Repr

/-- The status as the source spells it. -/
def WorkflowStatus.toString : WorkflowStatus → String
  | .running => "running"
  | .success => "success"
  | .failure => "failure"
  | .deadlocked => "deadlocked"

/-- `StateTransitionRecord`: a type and further JSON fields. -/
structure StateTransitionRecord where
  type : String
  rest : JsonObject := []

/-- `WorkflowStateBase`, with the implementation's own fields in `ext`. -/
structure WorkflowState (X : Type) where
  version : Nat
  isWorkflowDone : Bool
  workflowStatus : WorkflowStatus
  lastTransition : Option StateTransitionRecord := none
  ext : X

structure WorkflowDefinition where
  description : Option String := none
  nodes : List NodeDefinition := []
  args : JsonObject := []
  metadata : Option JsonObject := none

structure WorkflowTimelineEntry where
  type : String
  time : Stamp

structure StateSnapshot where
  version : Nat
  recordedAt : Stamp
  state : Json

structure RuntimeSnapshot where
  runningNodes : List NodeRunSnapshot
  finishedNodes : List NodeRunSnapshot
  timeline : List WorkflowTimelineEntry

inductive ValidationResult where
  | ok
  | refused (reason : String)

structure StateTransitionResult (X : Type) where
  state : WorkflowState X
  transition : Option StateTransitionRecord := none

structure DeadlockReport where
  reason : String
  details : Option JsonObject := none

inductive WorkflowOutcome where
  | success (output : Option Json)
  | failure (reason : Option String) (output : Option Json)
  | deadlocked (reason : String) (report : Option JsonObject)
  | cancelled (reason : String)

/-! ## Implementations -/

/-- `WorkflowImplementation`. -/
structure WorkflowImplementation (X : Type) where
  createInitialState : Stamp → WorkflowDefinition → JsonObject → Except String (WorkflowState X)
  dispatch : Stamp → WorkflowDefinition → WorkflowState X → RuntimeSnapshot →
    Except String (List WorkflowNodeDispatch)
  validateNodeSettlement : Stamp → WorkflowState X → WorkflowNodeSettlement → RuntimeSnapshot →
    Except String ValidationResult
  applyNodeSettlement : Stamp → WorkflowState X → WorkflowNodeSettlement → RuntimeSnapshot →
    Except String (StateTransitionResult X)
  evaluateWorkflowProgress : Stamp → WorkflowState X → RuntimeSnapshot →
    Except String (StateTransitionResult X)
  deadlock : Stamp → WorkflowState X → RuntimeSnapshot → List WorkflowNodeDispatch →
    Except String (Option DeadlockReport)
  getWorkflowOutcome : Stamp → WorkflowState X → Except String (Option WorkflowOutcome)

end EphemeralAgent.Workflow
