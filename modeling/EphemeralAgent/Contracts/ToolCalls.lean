import EphemeralAgent.Contracts.Message

/-!
# Settled tool calls

`src/contracts/tool-calls.ts` and the `PipelineResult` of `src/agents/tool/pipeline.ts`.
-/

namespace EphemeralAgent

/-- `PipelineResult`: everything the pipeline owns about one settled call. -/
structure PipelineResult where
  content : Json
  isError : Bool
  isTerminal : Bool
  toolStartTime : Nat
  toolEndTime : Nat
  metadata : Option JsonObject

/-- `ToolCallResult`: a settled call with the id that pairs it with its `tool_use` block. -/
structure ToolCallResult extends PipelineResult where
  toolUseId : ToolUseId

/-- `rejectedResult`: both clocks at the rejection instant. -/
def rejectedResult (content : String) (instant : Nat) : PipelineResult :=
  { content := .str content, isError := true, isTerminal := false, toolStartTime := instant,
    toolEndTime := instant, metadata := none }

/-- `errorResult` of the batch executor. -/
def errorResult (toolUseId : ToolUseId) (content : String) (instant : Nat) : ToolCallResult :=
  { rejectedResult content instant with toolUseId }

end EphemeralAgent
