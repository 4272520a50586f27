import EphemeralAgent.Engine.Loop
import EphemeralAgent.Tool.BatchStep
import EphemeralAgent.Tool.Pipeline

/-!
# One run of an agent

`src/agents/agent-runtime.ts` assembles a run: the loop, its batch executor, the pipelines of the
calls, the terminal binding and the gate that it reads.

* `AgentSystem` — the loop with its current batch, the calls of the batch, and the submission
* `blockers` — the gate, over the live state of the run
* `AgentSystem.step` — one synchronous block of any of them
-/

namespace EphemeralAgent.Runtime

open Engine Tool

/-- What a run is assembled from; `parse` is the `safeParse` of the tool that a call names. -/
structure RunSpec where
  tools : List String
  terminal : Option String
  parse : ToolUseBlock → ParseOutcome
  maxTurns : Nat
  completionTimeoutMs : Nat
  stringify : Json → String

namespace RunSpec

/-- The mode is fixed by the presence of a terminal tool. -/
def loop (spec : RunSpec) : LoopConfig :=
  { mode := if spec.terminal.isSome then .terminal else .text
    terminalToolName := spec.terminal
    maxTurns := spec.maxTurns
    completionTimeoutMs := spec.completionTimeoutMs
    stringify := spec.stringify }

/-- The names that the batch executor knows: the tools and the terminal tool. -/
def bound (spec : RunSpec) : List String :=
  spec.tools ++ spec.terminal.toList

/-- `call.name === input.terminalName`. -/
def isTerminal (spec : RunSpec) (call : ToolUseBlock) : Bool :=
  spec.terminal == some call.name

end RunSpec

/-- What a block of the run shows. -/
inductive SystemItem (T : Type) where
  | run (item : RunItem T)
  | batch (item : BatchItem)
  /-- The `preToolUse` hooks of a call are started. -/
  | preToolUse (index : Nat) (facts : ToolCallFacts)
  /-- An ordinary tool's `execute()` is called. -/
  | executed (index : Nat) (data : Json)
  /-- A submission has passed the gate. -/
  | gatePassed (index : Nat)
  /-- `onSubmit` is called, with the gates as they are then. -/
  | submitted (index : Nat) (data : Json) (gate : GateState)
  /-- `onSubmit` has returned `{ accept: value }`. -/
  | accepted (index : Nat) (value : T)

/-- A run with its current batch. -/
structure AgentSystem (T : Type) where
  run : AgentRun T
  /-- The last `executeBatch`, once there has been one. -/
  batch : Option BatchRun
  /-- Its calls, by index. -/
  stages : List CallStage
  /-- `accepted` of the terminal binding. -/
  accepted : Option T
  /-- `submitting` of the gate. -/
  submitting : Bool

/-- Which part of the batch goes on. -/
inductive BatchPart where
  | spawn
  | resolve (lane : Nat)
  | resume (lane : Nat)
  | proceed
  | resolveTerminal
  | resumeTerminal

inductive SystemLabel (T : Type) where
  /-- A block of the loop, or of what surrounds it. -/
  | run (label : RunLabel T)
  /-- The batch goes on; `instant` is what `Date.now()` gives. -/
  | block (part : BatchPart) (instant : Nat)
  | preHookReturns (index : Nat) (decision : HookDecision) (instant : Nat)
  /-- `execute()` returns or throws. -/
  | executeReturns (index : Nat) (result : Except String ToolResult) (instant : Nat)
  | postHookReturns (index : Nat) (decision : HookDecision) (instant : Nat)
  | submitReturns (index : Nat) (verdict : SubmitVerdict T) (instant : Nat)
  /-- The loop goes on after `await ctx.tools.executeBatch(..)`. -/
  | batchReturns (instant : Nat)

/-- `interrupt()` has aborted the signal. -/
def SystemItem.isInterrupt : SystemItem T → Bool
  | .run .interrupted => true
  | _ => false

/-- `interrupt()`. -/
def SystemLabel.isInterrupt : SystemLabel T → Bool
  | .run .interrupt => true
  | _ => false

/-- The labels of the loop that do not belong to its executor or to the terminal binding. -/
def free {T : Type} (s : AgentRun T) : RunLabel T → Bool
  | .beginFinishing => false
  | .cancelFinishing => false
  | .batchReturns .. => false
  | .throws _ =>
    match s.phase with
    | .batch _ => false
    | _ => true
  | _ => true

namespace AgentSystem

variable {T : Type}

/-- `gate.blockers()`. -/
def blockers (s : AgentSystem T) : List String :=
  let tasks := s.run.tasks.count
  let notes := s.run.inbox.count
  (if tasks > 0 then [s!"{tasks} background task(s) still open"] else []) ++
    (if notes > 0 then [s!"{notes} undrained notification(s)"] else []) ++
    (if s.run.handle.hasPendingSteers then ["a queued user message is pending"] else []) ++
    if s.submitting then ["a submission was already accepted"] else []

/-- The call of the current batch with this index. -/
def call (s : AgentSystem T) (index : Nat) : Option ToolUseBlock :=
  s.batch.bind fun b => b.batch.calls[index]?

/-- The part of the batch, with the outcome of the call that it waits for. -/
def batchLabel (s : AgentSystem T) (b : BatchRun) (instant : Nat) : BatchPart → Option BatchLabel
  | .spawn => some .spawn
  | .resolve lane =>
    match b.batch.lanes[lane]? with
    | some (.running index) =>
      match s.stages[index]? with
      | some (.settled outcome) => some (.resolve lane outcome instant)
      | _ => none
    | _ => none
  | .resume lane => some (.resume lane)
  | .proceed => some (.proceed instant)
  | .resolveTerminal =>
    match b.batch.phase with
    | .terminalRunning position =>
      match (b.batch.terminal[position]?).bind fun index => s.stages[index]? with
      | some (.settled outcome) => some (.resolveTerminal outcome instant)
      | _ => none
    | _ => none
  | .resumeTerminal => some (.resumeTerminal instant)

/-- `executeCall` up to its first `await`, for a call that the batch dispatches. -/
def dispatch (spec : RunSpec) (s : AgentSystem T) (index instant : Nat) :
    AgentSystem T × List (SystemItem T) :=
  match s.call index with
  | some call =>
    if spec.bound.contains call.name then
      let stage := enter spec.parse (spec.isTerminal call) s.run.handle.aborted call instant
      let facts : ToolCallFacts :=
        { toolUseId := call.toolUseId, toolName := call.name, input := call.input
          backgroundTaskCount := s.run.tasks.count }
      ({ s with stages := s.stages.set index stage },
        match stage with
        | .preHook _ => [.preToolUse index facts]
        | _ => [])
    -- an unknown name: `executeCall` answers by itself
    else ({ s with stages := s.stages.set index (.settled (.error "")) }, [])
  | none => (s, [])

/-- A block of the batch; a call that it dispatches enters its pipeline in the same block. -/
def block (spec : RunSpec) (s : AgentSystem T) (b : BatchRun) (label : BatchLabel)
    (instant : Nat) : Option (AgentSystem T × List (SystemItem T)) :=
  (b.batch.step spec.bound b.aborted label).map fun next =>
    let moved := { s with
      batch := some { b with batch := next.1, history := b.history ++ next.2 } }
    let dispatched :=
      match next.2 with
      | [.started index] => moved.dispatch spec index instant
      | _ => (moved, [])
    (dispatched.1, next.2.map .batch ++ dispatched.2)

/-- `executeBatch(calls, ..)` is called. -/
def openBatch (spec : RunSpec) (s : AgentSystem T) : AgentSystem T :=
  match s.run.phase with
  | .batch calls =>
    { s with
      batch := some (.initial calls spec.terminal s.run.handle.aborted)
      stages := List.replicate calls.length .waiting }
  | _ => s

/-- The signal of the batch is the signal of the run. -/
def forwardAbort (spec : RunSpec) (s : AgentSystem T) : AgentSystem T :=
  if s.run.handle.aborted then
    { s with batch := s.batch.map fun b => (b.step spec.bound .abort).getD b }
  else s

/-- After `await scope.hooks.preToolUse(facts)`. -/
def afterPreHook (spec : RunSpec) (s : AgentSystem T) (index : Nat) (call : ToolUseBlock)
    (data : Json) (decision : HookDecision) (instant : Nat) :
    AgentSystem T × List (SystemItem T) :=
  match decision with
  | .deny reason =>
    ({ s with stages := s.stages.set index (.settled (.ok (rejectedResult reason instant))) }, [])
  | .passthrough =>
    if spec.isTerminal call then
      if s.blockers = [] then
        ({ s with stages := s.stages.set index (.vetting data) }, [.gatePassed index])
      else
        let denial := "submission denied: " ++ "; ".intercalate s.blockers
        ({ s with stages := s.stages.set index (.settled (.ok (rejectedResult denial instant))) },
          [])
    else
      ({ s with stages := s.stages.set index (.executing instant) }, [.executed index data])

/-- After `await scope.hooks.postToolUse(..)`. -/
def afterPostHook (spec : RunSpec) (s : AgentSystem T) (index : Nat) (decision : HookDecision)
    (instant : Nat) : CallStage → Option (AgentSystem T × List (SystemItem T))
  | .postHook result startedAt endedAt =>
    let final :=
      match decision with
      | .deny reason => .error reason
      | .passthrough => result
    some ({ s with stages :=
        s.stages.set index (.settled (.ok (stamp final startedAt endedAt))) }, [])
  | .vetting data =>
    match decision with
    | .deny reason =>
      some ({ s with stages :=
          s.stages.set index (.settled (.ok (rejectedResult reason instant))) }, [])
    | .passthrough =>
      (s.run.step spec.loop .beginFinishing).map fun next =>
        ({ s with
            run := next.1
            stages := s.stages.set index (.submitting instant)
            submitting := true },
          next.2.map .run ++ [.submitted index data s.run.gate])
  | _ => none

/-- `takeAccepted()` is called, and the submission gone, when a result of the batch is terminal. -/
def takeAccepted (s : AgentSystem T) (results : List ToolCallResult) (instant : Nat) : Option T :=
  match s.run.phase with
  | .batch calls =>
    if (normalizeBatch calls results instant).any (·.isTerminal) then none else s.accepted
  | _ => s.accepted

/-- After `await fn.onSubmit(..)`. -/
def afterSubmit (spec : RunSpec) (s : AgentSystem T) (index : Nat) (verdict : SubmitVerdict T)
    (startedAt instant : Nat) : Option (AgentSystem T × List (SystemItem T)) :=
  let stages := s.stages.set index (.settled (.ok (Tool.submitted verdict startedAt instant)))
  match verdict with
  | .accept value =>
    some ({ s with stages, accepted := some value }, [.accepted index value])
  | _ =>
    (s.run.step spec.loop .cancelFinishing).map fun next =>
      ({ s with run := next.1, stages, submitting := false }, next.2.map .run)

/-- One synchronous block; `none` when nothing waits for this label. -/
def step (spec : RunSpec) (s : AgentSystem T) :
    SystemLabel T → Option (AgentSystem T × List (SystemItem T))
  | .run label =>
    if free s.run label then
      (s.run.step spec.loop label).map fun next =>
        let moved := { s with run := next.1 }
        let opened :=
          match label with
          | .boundaryReturns => moved.openBatch spec
          | .interrupt => moved.forwardAbort spec
          | _ => moved
        (opened, next.2.map .run)
    else none
  | .block part instant =>
    s.batch.bind fun b => (s.batchLabel b instant part).bind fun label => s.block spec b label instant
  | .preHookReturns index decision instant =>
    match s.stages[index]?, s.call index with
    | some (.preHook data), some call =>
      some (s.afterPreHook spec index call data decision instant)
    | _, _ => none
  | .executeReturns index result instant =>
    match s.stages[index]? with
    | some (.executing startedAt) =>
      let final :=
        match result with
        | .ok result => result
        | .error message => .error message
      some ({ s with stages := s.stages.set index (.postHook final startedAt instant) }, [])
    | _ => none
  | .postHookReturns index decision instant =>
    (s.stages[index]?).bind (s.afterPostHook spec index decision instant)
  | .submitReturns index verdict instant =>
    match s.stages[index]? with
    | some (.submitting startedAt) => s.afterSubmit spec index verdict startedAt instant
    | _ => none
  | .batchReturns instant =>
    match s.batch with
    | some b =>
      match b.batch.phase with
      | .returned results =>
        (s.run.step spec.loop (.batchReturns results s.accepted instant)).map fun next =>
          ({ s with run := next.1, accepted := s.takeAccepted results instant },
            next.2.map .run)
      | _ => none
    | none => none

/-- `start(..)` of an agent. -/
def start (spec : RunSpec) (messages : List UserMessage) :
    Lib.Recorded (AgentSystem T) (SystemItem T) :=
  let first : Lib.Recorded (AgentRun T) (RunItem T) := AgentRun.start spec.loop messages
  { state := { run := first.state, batch := none, stages := [], accepted := none
               submitting := false }
    history := first.history.map .run }

end AgentSystem

end EphemeralAgent.Runtime
