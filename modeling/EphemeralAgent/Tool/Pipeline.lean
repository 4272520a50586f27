import EphemeralAgent.Tool.Batch

/-!
# The pipeline of one call

`src/agents/tool/pipeline.ts` and `terminal.ts`.  A dispatched call parses its input, waits for its
`preToolUse` hooks, and then runs: an ordinary one executes and waits for its `postToolUse` hooks,
a terminal one passes the gate, waits for these hooks, and calls `onSubmit`.

* `CallStage` — where the `run` of one call is suspended
* `enter` — the pipeline up to its first `await`
* `stamp`, `submitted` — the results it can return
-/

namespace EphemeralAgent.Tool

/-- `HookDecision`, of all matching hooks together. -/
inductive HookDecision where
  | passthrough
  | deny (reason : String)
  deriving DecidableEq, Repr

/-- `ToolResult`. -/
inductive ToolResult where
  | output (output : Json) (metadata : Option JsonObject)
  | error (message : String)

/-- `SubmitVerdict`, or what `onSubmit` throws. -/
inductive SubmitVerdict (T : Type) where
  | accept (value : T)
  | reject (reason : String)
  | threw (message : String)

/-- `safeParse` of a call's input: the data, the summary of the issues, or what a refinement
throws. -/
inductive ParseOutcome where
  | data (data : Json)
  | invalid (summary : String)
  | threw (message : String)

/-- `ToolCallFacts`, which the hooks of a call are given. -/
structure ToolCallFacts where
  toolUseId : ToolUseId
  toolName : String
  input : JsonObject
  backgroundTaskCount : Nat

/-- Where the `run` of one call of a batch is. -/
inductive CallStage where
  /-- The call has not been dispatched. -/
  | waiting
  /-- `await scope.hooks.preToolUse(facts)`. -/
  | preHook (data : Json)
  /-- An ordinary call: `await definition.execute(parsed.data, ctx)`. -/
  | executing (startedAt : Nat)
  /-- An ordinary call: `await scope.hooks.postToolUse(facts, result)`. -/
  | postHook (result : ToolResult) (startedAt endedAt : Nat)
  /-- A terminal call that has passed the gate: `await scope.hooks.postToolUse(..)`. -/
  | vetting (data : Json)
  /-- A terminal call: `await fn.onSubmit(parsed.data, ..)`. -/
  | submitting (startedAt : Nat)
  /-- `run` has returned or thrown. -/
  | settled (outcome : Except String PipelineResult)

/-- The call waits in a hook that stands before its side effect. -/
def CallStage.beforeEffect : CallStage → Bool
  | .preHook _ => true
  | .vetting _ => true
  | _ => false

/-- `stamp`: an ordinary result is never terminal. -/
def stamp (result : ToolResult) (startedAt endedAt : Nat) : PipelineResult :=
  match result with
  | .output output metadata =>
    { content := output, isError := false, isTerminal := false, toolStartTime := startedAt
      toolEndTime := endedAt, metadata }
  | .error message =>
    { content := .str message, isError := true, isTerminal := false, toolStartTime := startedAt
      toolEndTime := endedAt, metadata := none }

/-- What the terminal binding returns after `onSubmit`. -/
def submitted {T : Type} (verdict : SubmitVerdict T) (startedAt endedAt : Nat) : PipelineResult :=
  match verdict with
  | .accept _ =>
    { content := .str "submission accepted", isError := false, isTerminal := true
      toolStartTime := startedAt, toolEndTime := endedAt, metadata := none }
  | .reject reason => stamp (.error reason) startedAt endedAt
  | .threw message => stamp (.error s!"onSubmit failed: {message}") startedAt endedAt

/-- `run(call, batch)` up to its first `await`. -/
def enter (parse : ToolUseBlock → ParseOutcome) (terminal aborted : Bool) (call : ToolUseBlock)
    (instant : Nat) : CallStage :=
  if aborted then .settled (.ok (rejectedResult "interrupted" instant))
  else
    match parse call with
    | .data data => .preHook data
    | .invalid summary =>
      let kind := if terminal then "submission" else "input"
      .settled (.ok (rejectedResult s!"invalid {kind} for {call.name}: {summary}" instant))
    | .threw message => .settled (.error message)

/-- Only an accepted submission is terminal. -/
theorem stamp_isTerminal (result : ToolResult) (startedAt endedAt : Nat) :
    (stamp result startedAt endedAt).isTerminal = false := by
  cases result <;> rfl

end EphemeralAgent.Tool
