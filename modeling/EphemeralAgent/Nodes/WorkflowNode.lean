import EphemeralAgent.Nodes.Records
import EphemeralAgent.Workflow.Operations

/-!
# Nodes that are workflow runs

`#launchWorkflowNode` of `src/nodes/node-runner.ts`: the node behind one entry of a workflow run is
a workflow run of its own.

Three machines go on beside each other, and a schedule interleaves them.

* the workflow run, with the launches and the ends of all its other nodes left free
* the delegated workflow run, whose own nodes are left free, and the write of its outcome
* the node handle: its abort listener, `settle()`, and what `createNodeHandle` does with its result

An interrupt of the workflow run reaches the delegated run twice: `controller.abort` fires the
listener, and `entry.handle.interrupt` is called and awaited.
-/

namespace EphemeralAgent.Nodes

open Lib Workflow

/-- Where the call of `entry.handle.interrupt` stands that the workflow run awaits: so many
operations of the delegated run come first. -/
inductive Stopping where
  | due (before : Nat)
  | resolved
  | rejected
  deriving DecidableEq, Repr

/-- The call is made: it comes after the operations that have not ended. -/
def Stopping.called {Y : Type} (r : WorkflowRunInstance Y) : Stopping :=
  .due r.operations.length

/-- The delegated run goes on: the call settles when its operation ends. -/
def Stopping.after {Y : Type} (s t : WorkflowRunInstance Y) : Stopping → Stopping
  | .due before =>
    if t.operations.length < s.operations.length then
      match before with
      | 0 => if throws s t then .rejected else .resolved
      | before + 1 => .due before
    else .due before
  | settled => settled

/-- What `createWorkflow` assembles for a node; `missing` is what the schema of the node's outcome
makes of an output that is `undefined`. -/
structure WorkflowDelegation (Y : Type) where
  request : WorkflowStartRequest Y
  missing : Except String Json

/-- `request.start.outcome.schema.safeParse(outcome.output)`. -/
def WorkflowDelegation.parse {Y : Type} (d : WorkflowDelegation Y) (contract : NodeOutcomeContract) :
    Option Json → Except String Json
  | some output => contract.safeParse output
  | none => d.missing

/-- One workflow node: the workflow run that it is part of, the delegated run, and its handle.
`recorded` is how `delegatedWorkflowRun.outcome()` has settled, which waits for the store of the
delegated run and rejects with what that throws.  `signal` is the reason of the signal of the
workflow run, and `listening` says that the abort listener is registered; `heard` counts the answers
of the port that have been heard. -/
structure WorkflowNode (X Y : Type) where
  workflow : WorkflowRunInstance X := Workflow.initial
  delegatedWorkflowRun : Option (WorkflowRunInstance Y) := none
  recorded : Option (Except String Unit) := none
  handle : Option Settling := none
  heard : Nat := 0
  signal : Option String := none
  listening : Bool := false
  stopping : Option Stopping := none

inductive WorkflowNodeLabel where
  /-- The workflow run goes on. -/
  | workflow (label : Label)
  /-- `await this.#workflowFactory().createWorkflow(..).start(..)`. -/
  | starts
  /-- The delegated run goes on. -/
  | delegated (label : Label)
  /-- `createNodeHandle`. -/
  | handles
  /-- `input.store.finish` of `bridgeWorkflowRun` settles, for the outcome of the delegated run. -/
  | records (written : Except String Unit)
  /-- `settle()` goes on after `await delegatedWorkflowRun.outcome()`. -/
  | settles
  /-- `settle()` goes on after `await request.completion.submit(parsed.data)`. -/
  | replies
  /-- `createNodeHandle` goes on after its writes, of which one may have thrown. -/
  | stores (written : Bool)
  /-- The listener is removed. -/
  | releases
  /-- The monitor of the workflow run hears of the settlement. -/
  | observes

/-- The interrupt that the queue takes and begins. -/
def begun {X : Type} (s : WorkflowRunInstance X) : Label → Option String
  | .dequeue =>
    match s.active, s.queue with
    | none, .interrupt reason :: _ => if s.finished then none else some reason
    | _, _ => none
  | _ => none

/-- `settle()` after its own submission. -/
def settleSubmission : SubmissionResult → NodeSettlement
  | .accept outcome => .completed outcome
  | .reject reason => .rejected reason
  | .error fault => .failed fault.message

namespace WorkflowNode

variable {X Y : Type} (c : WorkflowStartRequest X) (d : WorkflowDelegation Y) (index : Nat)

/-- The launch of the node is under way. -/
def launching (s : WorkflowNode X Y) : Bool :=
  awaitsLaunch s.workflow index .start || awaitsLaunch s.workflow index .queue

/-- The port and the monitor of the entry are this node's; its launch resolves with a handle, and
rejects at any time.  An interrupt goes on when the call of this node's handle has resolved. -/
def permits (s : WorkflowNode X Y) : Label → Bool
  | .submit entry _ => entry != index
  | .nodeSettled entry _ => entry != index
  | .launchResolved flow => !awaitsLaunch s.workflow index flow || s.handle.isSome
  | .interruptsResolved => s.stopping.all (· == .resolved)
  | _ => true

/-- What the delegated run has ended with. -/
def outcome (s : WorkflowNode X Y) : Option WorkflowOutcome :=
  s.delegatedWorkflowRun.bind (·.outcome)

/-- `request.start.outcome`. -/
def contract (s : WorkflowNode X Y) : Option NodeOutcomeContract :=
  s.workflow.nodes[index]?.map (·.start.outcome)

/-- The answer to the call of the port that waits. -/
def reply (s : WorkflowNode X Y) : Option SubmissionResult :=
  (s.workflow.answersFor index)[s.heard]?

/-- `request.completion.submit(payload)` is called. -/
def submit (payload : Json) (s : WorkflowNode X Y) : Option (WorkflowNode X Y) :=
  (Workflow.step c s.workflow (.submit index payload)).map fun workflow => { s with workflow }

/-- `delegatedWorkflowRun.interrupt(reason)`. -/
def tell (reason : String) (s : WorkflowNode X Y) : WorkflowNode X Y :=
  { s with
    delegatedWorkflowRun := s.delegatedWorkflowRun.map fun r =>
      (Workflow.step d.request r (.interrupt reason)).getD r }

/-- `controller.abort(reason)`: the first time, the listener is called. -/
def abort (reason : String) (s : WorkflowNode X Y) : WorkflowNode X Y :=
  match s.signal with
  | some _ => s
  | none =>
    if s.listening then { s with signal := some reason, listening := false }.tell d reason
    else { s with signal := some reason }

/-- `entry.handle?.interrupt(reason)`, of a running entry. -/
def stop (reason : String) (s : WorkflowNode X Y) : WorkflowNode X Y :=
  if (interruptedHandles s.workflow).contains index then
    { s with stopping := s.delegatedWorkflowRun.map .called }.tell d reason
  else { s with stopping := none }

/-- A block of the delegated run. -/
def advance (label : Label) (s : WorkflowNode X Y) : Option (WorkflowNode X Y) :=
  s.delegatedWorkflowRun.bind fun r =>
    (Workflow.step d.request r label).map fun next =>
      { s with
        delegatedWorkflowRun := some next
        stopping := s.stopping.map (·.after r next) }

/-- `settle()` after `await delegatedWorkflowRun.outcome()`. -/
def settle (s : WorkflowNode X Y) : WorkflowOutcome → Option (WorkflowNode X Y)
  | .cancelled reason => some { s with handle := some (.finishing (.cancelled (some reason))) }
  | .failure reason _ => some { s with
      handle := some (.finishing (.failed (reason.getD "workflow ended with failure"))) }
  | .deadlocked reason _ => some { s with handle := some (.finishing (.failed reason)) }
  | .success output =>
    (s.contract index).bind fun contract =>
      match d.parse contract output with
      | .error _ => some { s with
          handle := some (.finishing
            (.rejected ("delegated workflow output did not satisfy " ++ contract.name))) }
      | .ok payload => { s with handle := some (.submitting payload) }.submit c index payload

/-- **One step.** -/
def step (s : WorkflowNode X Y) : WorkflowNodeLabel → Option (WorkflowNode X Y)
  | .workflow label =>
    if s.permits index label then
      (Workflow.step c s.workflow label).map fun workflow =>
        match begun s.workflow label with
        | some reason => ({ s with workflow }.abort d reason).stop d index reason
        | none => { s with workflow }
    else none
  | .starts =>
    if s.launching index && s.delegatedWorkflowRun.isNone && s.handle.isNone then
      some { s with delegatedWorkflowRun := some Workflow.initial }
    else none
  | .delegated label => s.advance d label
  | .handles =>
    match s.delegatedWorkflowRun.map WorkflowRunInstance.startFlow with
    | some .returned =>
      if s.launching index && s.handle.isNone then
        match s.signal with
        | some reason => some ({ s with handle := some .outcome }.tell d reason)
        | none => some { s with handle := some .outcome, listening := true }
      else none
    | _ => none
  | .records written =>
    if s.outcome.isSome && s.recorded.isNone then some { s with recorded := some written } else none
  | .settles =>
    match s.handle, s.outcome, s.recorded with
    | some .outcome, some outcome, some (.ok _) => s.settle c d index outcome
    | some .outcome, some _, some (.error message) =>
      some { s with handle := some (.finishing (.failed message)) }
    | _, _, _ => none
  | .replies =>
    match s.handle with
    | some (.submitting _) =>
      (s.reply index).map fun result =>
        { s with
          heard := s.heard + 1
          handle := some (.finishing (settleSubmission result)) }
    | _ => none
  | .stores written =>
    match s.handle with
    | some (.finishing result) =>
      some { s with handle := some (if written then .stored result else .broken) }
    | _ => none
  | .releases =>
    match s.handle with
    | some (.stored _) | some .broken => some { s with listening := false }
    | _ => none
  | .observes =>
    match s.handle with
    | some (.stored result) =>
      (Workflow.step c s.workflow (.nodeSettled index result)).map fun workflow =>
        { s with workflow }
    | _ => none

end WorkflowNode

end EphemeralAgent.Nodes
