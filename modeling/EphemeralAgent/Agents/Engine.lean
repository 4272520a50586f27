import EphemeralAgent.Agents.Advisory
import EphemeralAgent.Runtime.SystemStep

/-!
# The runs of the agent factory

`src/agents/agent-factory.ts` with the tools that start another agent, `run-subagent.ts` and
`ask-advisor.ts`.  Any number of runs share one pass registry; a child run is known by what its
parent's call does with it, and may itself be one of the runs.

* `ChildCall` — one call of `run_subagent` or `ask_advisor`, from its start to its result
* `EngineRun` — an assembled run with the hooks and the child calls of the engine
* `EngineRun.step`, `Engine.step` — one synchronous block of a run, and of all of them
-/

namespace EphemeralAgent.Agents

open Json Engine Tool EphemeralAgent.Runtime

/-! ## The calls that start a child -/

inductive Verdict where
  | pass
  | fail
  deriving DecidableEq, Repr

/-- `AdvisorVerdict`. -/
structure AdvisorVerdict where
  verdict : Verdict
  reason : String

/-- `AgentOutcome` of a child run, without its usage and turns. -/
inductive ChildOutcome (V : Type) where
  | completed (outcome : V)
  | cancelled
  | failed (message : String)

/-- The input of a call that starts a child. -/
inductive ChildTask where
  | subagent (agentName : String) (wait : Bool)
  | advisor (submission : AdvisorSubmission)

/-- The call awaits the outcome of its child. -/
def ChildTask.foreground : ChildTask → Bool
  | .subagent _ wait => wait
  | .advisor _ => true

/-- The parsed input of `run_subagent`; `wait` has a default. -/
def subagentTask (fields : JsonObject) : Option ChildTask :=
  (stringField fields "agent_name").map fun agentName =>
    let wait :=
      match field fields "wait" with
      | some (.bool wait) => wait
      | _ => true
    .subagent agentName wait

/-- The parsed input of `ask_advisor`. -/
def advisorTask (fields : JsonObject) : Option ChildTask :=
  (stringField fields "tool_name").bind fun toolName =>
    ((field fields "payload").bind asObject).map fun payload => .advisor { toolName, payload }

/-- What a call with this name and input starts; only an advisory binding brings `ask_advisor`. -/
def childTask (advisory : Bool) (name : String) (data : Json) : Option ChildTask :=
  data.asObject.bind fun fields =>
    if name = "run_subagent" then subagentTask fields
    else if name = "ask_advisor" ∧ advisory = true then advisorTask fields
    else none

/-- `renderAgentOutcome`. -/
def renderAgentOutcome : ChildOutcome String → String
  | .completed outcome => outcome
  | .cancelled => "subagent cancelled"
  | .failed message => s!"subagent failed: {message}"

/-- `renderAdvisorVerdict`. -/
def renderAdvisorVerdict : ChildOutcome AdvisorVerdict → String
  | .completed outcome =>
    let verdict :=
      match outcome.verdict with
      | .pass => "pass"
      | .fail => "fail"
    s!"{verdict}: {outcome.reason}"
  | .cancelled => "advisor did not complete (cancelled)"
  | .failed _ => "advisor did not complete (failed)"

/-- The verdict is `pass`. -/
def ChildOutcome.passes : ChildOutcome AdvisorVerdict → Bool
  | .completed outcome => outcome.verdict == .pass
  | _ => false

/-- Where `execute` of the call is. -/
inductive ChildStage where
  /-- `await child.start(..)`. -/
  | starting
  /-- `await run.outcome()`. -/
  | waiting
  /-- The child runs in the background; the call goes on with `register`. -/
  | detached
  | returned
  deriving DecidableEq, Repr

/-- One call that starts a child, by the index of the call in its batch. -/
structure ChildCall where
  index : Nat
  task : ChildTask
  stage : ChildStage
  /-- `sdkAgent.start(..)` has been called: there is a child run. -/
  running : Bool
  /-- The call has added its listener to the signal of the batch. -/
  listening : Bool
  /-- The listener has called `run.interrupt()`. -/
  interrupted : Bool

/-- The call of `execute` up to its first `await`. -/
def ChildCall.start (index : Nat) (task : ChildTask) : ChildCall :=
  { index, task, stage := .starting, running := false, listening := false, interrupted := false }

/-- The abort of the signal calls the listener, when there is one. -/
def ChildCall.abort (call : ChildCall) : ChildCall :=
  { call with interrupted := call.interrupted || call.listening }

/-- After `await child.start(..)`: a listener that is added to an aborted signal never fires. -/
def ChildCall.started (call : ChildCall) : ChildCall :=
  { call with
    listening := true
    stage := if call.task.foreground then .waiting else .detached }

/-- The result of the call is still to come from its child. -/
def ChildCall.pending (call : ChildCall) : Bool :=
  match call.stage with
  | .starting | .waiting => true
  | .detached | .returned => false

/-! ## One run -/

/-- A run of the factory. -/
structure EngineRun (T : Type) where
  agentRunId : AgentRunId
  spec : RunSpec
  /-- The outcome binding is advisory. -/
  advisory : Bool
  system : AgentSystem T
  /-- What the engine's hooks have decided on the call with this index. -/
  decisions : Nat → List HookDecision
  calls : List ChildCall

/-- What a block of the engine shows. -/
inductive EngineItem where
  /-- The advisor that this run has asked has an outcome for the submission. -/
  | advised (agentRunId : AgentRunId) (submission : AdvisorSubmission)
      (outcome : ChildOutcome AdvisorVerdict)
  /-- `onSubmit` is called for this call of the run. -/
  | submitted (agentRunId : AgentRunId) (call : Option ToolUseBlock)

/-- What wakes a part of a run. -/
inductive RunEvent (T : Type) where
  /-- A block of the assembled run that is not the engine's. -/
  | system (label : SystemLabel T)
  /-- All `preToolUse` hooks have decided; `globals` are those of the configuration. -/
  | hooksReturn (index : Nat) (globals : List HookDecision) (instant : Nat)
  /-- `child.start(..)` calls `sdkAgent.start(..)`. -/
  | childRuns (call : Nat)
  /-- `child.start(..)` resolves, or rejects with this message. -/
  | startReturns (call : Nat) (result : Except String Unit) (instant : Nat)
  | subagentReturns (call : Nat) (outcome : ChildOutcome String) (instant : Nat)
  | advisorReturns (call : Nat) (outcome : ChildOutcome AdvisorVerdict) (instant : Nat)

namespace EngineRun

variable {T : Type}

/-- `start(..)` of a run with this id. -/
def start (agentRunId : AgentRunId) (spec : RunSpec) (advisory : Bool)
    (messages : List UserMessage) : EngineRun T :=
  { agentRunId, spec, advisory, system := (AgentSystem.start spec messages).state
    decisions := fun _ => [], calls := [] }

/-- The `hooks` of `buildAgentSpec`. -/
def hooks (n : NumberText) (passes : AdvisorPassRegistry) (run : EngineRun T) : List HookEntry :=
  match run.spec.terminal with
  | none => []
  | some toolName =>
    requireNoBackgroundTasks toolName ::
      if run.advisory then [requireAdvisoryPass n run.agentRunId toolName passes] else []

/-- What a block of the assembled run means to the engine: its hooks are asked, a child call is
executed, or the listeners on the signal are called. -/
def observe (n : NumberText) (passes : AdvisorPassRegistry) (run : EngineRun T) :
    SystemItem T → EngineRun T
  | .preToolUse index facts =>
    let decisions := (HookEngine.ofEntries (run.hooks n passes)).preToolUse facts
    { run with decisions := Function.update run.decisions index decisions }
  | .executed index data =>
    match (run.system.call index).bind fun call => childTask run.advisory call.name data with
    | some task => { run with calls := run.calls ++ [.start index task] }
    | none => run
  | .run .interrupted => { run with calls := run.calls.map ChildCall.abort }
  | _ => run

/-- The submission that a block of the run makes. -/
def shown (run : EngineRun T) : SystemItem T → Option EngineItem
  | .submitted index _ _ => some (.submitted run.agentRunId (run.system.call index))
  | _ => none

/-- The run after a block of its system. -/
def moved (n : NumberText) (passes : AdvisorPassRegistry) (run : EngineRun T)
    (next : AgentSystem T × List (SystemItem T)) : EngineRun T :=
  next.2.foldl (observe n passes) { run with system := next.1 }

/-- The result of a child call reaches the pipeline, when that still waits for it. -/
def answer (run : EngineRun T) (index : Nat) (result : Except String ToolResult) (instant : Nat) :
    EngineRun T :=
  match run.system.step run.spec (.executeReturns index result instant) with
  | some next => { run with system := next.1 }
  | none => run

/-- The labels of the system that belong to the engine: the hooks of a call, and the result of a
call that waits for its child. -/
def owns (run : EngineRun T) : SystemLabel T → Bool
  | .preHookReturns .. => true
  | .executeReturns index _ _ => run.calls.any fun call => call.index == index && call.pending
  | _ => false

/-- The outcome of a child has come: the call returns this result. -/
def finish (run : EngineRun T) (k : Nat) (call : ChildCall) (result : Except String ToolResult)
    (instant : Nat) : EngineRun T :=
  { run with calls := run.calls.set k { call with stage := .returned } }.answer call.index result
    instant

/-- One synchronous block of a run, and the registry after it. -/
def step (n : NumberText) (passes : AdvisorPassRegistry) (run : EngineRun T) :
    RunEvent T → Option (EngineRun T × AdvisorPassRegistry × List EngineItem)
  | .system label =>
    if run.owns label then none
    else
      (run.system.step run.spec label).map fun next =>
        (run.moved n passes next, passes, next.2.filterMap run.shown)
  | .hooksReturn index globals instant =>
    let decision := combine (globals ++ run.decisions index)
    (run.system.step run.spec (.preHookReturns index decision instant)).map fun next =>
      (run.moved n passes next, passes, next.2.filterMap run.shown)
  | .childRuns k =>
    (run.calls[k]?).bind fun call =>
      if call.stage = .starting ∧ call.running = false then
        some ({ run with calls := run.calls.set k { call with running := true } }, passes, [])
      else none
  | .startReturns k (.ok ()) _ =>
    (run.calls[k]?).bind fun call =>
      if call.stage = .starting ∧ call.running = true then
        some ({ run with calls := run.calls.set k call.started }, passes, [])
      else none
  | .startReturns k (.error message) instant =>
    (run.calls[k]?).bind fun call =>
      if call.stage = .starting then some (run.finish k call (.error message) instant, passes, [])
      else none
  | .subagentReturns k outcome instant =>
    (run.calls[k]?).bind fun call =>
      match call.stage, call.task with
      | .waiting, .subagent _ _ =>
        some (run.finish k call (.ok (.output (.str (renderAgentOutcome outcome)) none)) instant,
          passes, [])
      | _, _ => none
  | .advisorReturns k outcome instant =>
    (run.calls[k]?).bind fun call =>
      match call.stage, call.task with
      | .waiting, .advisor submission =>
        some (run.finish k call (.ok (.output (.str (renderAdvisorVerdict outcome)) none)) instant,
          if outcome.passes then passes.recordPass n run.agentRunId submission else passes,
          [.advised run.agentRunId submission outcome])
      | _, _ => none

end EngineRun

/-! ## All runs -/

/-- The runs of a factory, and the registry that they share. -/
structure AgentEngine (T : Type) where
  runs : List (EngineRun T)
  passes : AdvisorPassRegistry

inductive EngineLabel (T : Type) where
  /-- `start(..)`, with the id that the run store has minted. -/
  | start (agentRunId : AgentRunId) (spec : RunSpec) (advisory : Bool)
      (messages : List UserMessage)
  | run (position : Nat) (event : RunEvent T)

namespace AgentEngine

variable {T : Type}

def initial : AgentEngine T :=
  { runs := [], passes := .empty }

/-- One synchronous block of any run; the run store mints no id twice. -/
def step (n : NumberText) (s : AgentEngine T) :
    EngineLabel T → Option (AgentEngine T × List EngineItem)
  | .start agentRunId spec advisory messages =>
    if s.runs.any (·.agentRunId == agentRunId) then none
    else some ({ s with runs := s.runs ++ [.start agentRunId spec advisory messages] }, [])
  | .run position event =>
    (s.runs[position]?).bind fun run =>
      (run.step n s.passes event).map fun next =>
        ({ runs := s.runs.set position next.1, passes := next.2.1 }, next.2.2)

end AgentEngine

end EphemeralAgent.Agents
