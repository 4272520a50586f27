import Mathlib.Logic.Function.Basic
import EphemeralAgent.LlmClient.Types

/-!
# The two wires

`src/agents/llm-client/wires/`.  A wire owns the decoder that turns the events of one provider
stream into the events of a model invocation.  `handle` changes the decoder before it yields, and
it yields at most one event for an event of the provider, so one call of it is one value.

* `Wire` — what the streaming client uses of a wire, with the law that both wires keep
* `AnthropicDecoder.handle`, `OpenAiDecoder.handle` — the two state machines
* `Provider.wire` — the wire of a provider profile

An event without a field that its type promises makes `handle` throw where it reads the field; to
the client that is a stream that fails at this event.
-/

namespace EphemeralAgent.LlmClient

/-- `event.type === "assistant_message_complete"`. -/
def LlmStreamEvent.isComplete : LlmStreamEvent → Bool
  | .assistantMessageComplete _ _ _ => true
  | _ => false

/-- The events that one call of `handle` yields fit what it has made of `completed`. -/
def Decoded (completed : Bool) : Option LlmStreamEvent → Prop
  | some event => event.isComplete = completed
  | none => completed = false

/-- `Wire` and its `StreamDecoder`. -/
structure Wire where
  Chunk : Type
  Decoder : Type
  decoder : Option String → Decoder
  completed : Decoder → Bool
  handle : Decoder → Chunk → Except ProviderError (Decoder × Option LlmStreamEvent)
  /-- A new decoder has decoded no terminal event. -/
  fresh : ∀ requestId, completed (decoder requestId) = false
  /-- `completed` is set by the call that yields the completed message, and by no other. -/
  decoded : ∀ {d chunk d' event}, completed d = false → handle d chunk = .ok (d', event) →
    Decoded (completed d') event

/-- A `decode` failure that is no truncated stream. -/
def decodeError (message : String) (requestId : Option String) : ProviderError :=
  { kind := .decode, message, statusCode := none, requestId, retryAfterS := none,
    truncated := false }

/-- `parseToolArgs` over `JSON.parse`, which yields `none` where it throws. -/
def parseToolArgs (jsonParse : String → Option Json) (raw : String) : JsonObject :=
  if raw = "" then [] else ((jsonParse raw).bind Json.asObject).getD []

/-! ## Anthropic messages -/

namespace Anthropic

/-- The token counts of an event; a missing one and `null` count alike. -/
structure PartialUsage where
  inputTokens : Option Nat
  outputTokens : Option Nat
  cacheReadInputTokens : Option Nat
  cacheCreationInputTokens : Option Nat

inductive ContentBlockDelta where
  | textDelta (text : String)
  | thinkingDelta (thinking : String)
  | inputJsonDelta (partialJson : String)
  /-- `signature_delta` and friends. -/
  | other

/-- `RawMessageStreamEvent`, with the fields that the decoder reads. -/
inductive RawMessageStreamEvent where
  | messageStart (usage : PartialUsage)
  | contentBlockStart (index : Nat) (type : String) (id name : Option String)
  | contentBlockDelta (index : Nat) (delta : ContentBlockDelta)
  | contentBlockStop (index : Nat)
  | messageDelta (stopReason : Option String) (usage : PartialUsage)
  | messageStop
  /-- An unknown event type. -/
  | other

structure BlockAccum where
  blockType : String
  id : String
  name : String
  text : String
  inputJson : String

/-- The fields of `AnthropicDecoder`. -/
structure AnthropicDecoder where
  completed : Bool
  requestId : Option String
  blocks : Nat → Option BlockAccum
  content : List ContentBlock
  usage : UsageSnapshot
  stopReason : Option String

namespace AnthropicDecoder

def new (requestId : Option String) : AnthropicDecoder :=
  { completed := false
    requestId
    blocks := fun _ => none
    content := []
    usage := { inputTokens := 0, outputTokens := 0, cacheReadInputTokens := none,
               cacheCreationInputTokens := none }
    stopReason := none }

/-- `#mergeUsage`: the counts that the event reports. -/
def mergeUsage (d : AnthropicDecoder) (usage : PartialUsage) : AnthropicDecoder :=
  { d with
    usage :=
      { inputTokens := usage.inputTokens.getD d.usage.inputTokens
        outputTokens := usage.outputTokens.getD d.usage.outputTokens
        cacheReadInputTokens := usage.cacheReadInputTokens.or d.usage.cacheReadInputTokens
        cacheCreationInputTokens :=
          usage.cacheCreationInputTokens.or d.usage.cacheCreationInputTokens } }

/-- `if (accum) ..`: change the block under `index`, when there is one. -/
def accumulate (d : AnthropicDecoder) (index : Nat) (f : BlockAccum → BlockAccum) :
    AnthropicDecoder :=
  { d with blocks := Function.update d.blocks index ((d.blocks index).map f) }

/-- `content_block_stop` for the block that it closes. -/
def closeBlock (jsonParse : String → Option Json) (d : AnthropicDecoder) (accum : BlockAccum) :
    Except ProviderError (AnthropicDecoder × Option LlmStreamEvent) :=
  if accum.blockType = "text" then
    .ok ({ d with content := d.content ++ [.text accum.text] }, none)
  else if accum.blockType = "thinking" then
    .ok ({ d with content := d.content ++ [.reasoning accum.text] }, none)
  else if accum.blockType = "tool_use" then
    if accum.id = "" then .error (decodeError "tool use block missing id" d.requestId)
    else
      let input := parseToolArgs jsonParse accum.inputJson
      .ok ({ d with content := d.content ++ [.toolUse accum.id accum.name input] },
        some (.toolUseDelta accum.id accum.name input))
  else .ok (d, none)

/-- `AnthropicDecoder.handle`. -/
def handle (jsonParse : String → Option Json) (d : AnthropicDecoder) :
    RawMessageStreamEvent → Except ProviderError (AnthropicDecoder × Option LlmStreamEvent)
  | .messageStart usage => .ok (d.mergeUsage usage, none)
  | .contentBlockStart index type id name =>
    let accum : BlockAccum :=
      { blockType := type, id := id.getD "", name := name.getD "", text := "", inputJson := "" }
    .ok ({ d with blocks := Function.update d.blocks index (some accum) }, none)
  | .contentBlockDelta index (.textDelta text) =>
    .ok (d.accumulate index fun accum => { accum with text := accum.text ++ text },
      some (.assistantTextDelta text))
  | .contentBlockDelta index (.thinkingDelta thinking) =>
    .ok (d.accumulate index fun accum => { accum with text := accum.text ++ thinking },
      some (.reasoningDelta thinking))
  | .contentBlockDelta index (.inputJsonDelta partialJson) =>
    .ok (d.accumulate index fun accum => { accum with inputJson := accum.inputJson ++ partialJson },
      none)
  | .contentBlockDelta _ .other => .ok (d, none)
  | .contentBlockStop index =>
    match d.blocks index with
    | none => .ok (d, none)
    | some accum =>
      closeBlock jsonParse { d with blocks := Function.update d.blocks index none } accum
  | .messageDelta stopReason usage =>
    -- an empty stop reason is falsy
    let stopReason := (stopReason.filter (· ≠ "")).or d.stopReason
    .ok ({ d with stopReason }.mergeUsage usage, none)
  | .messageStop =>
    .ok ({ d with completed := true },
      some (.assistantMessageComplete { role := .assistant, content := d.content } d.usage
        d.stopReason))
  | .other => .ok (d, none)

theorem decoded_closeBlock {jsonParse : String → Option Json} {d d' : AnthropicDecoder}
    {accum : BlockAccum} {event : Option LlmStreamEvent} (h : d.completed = false)
    (hclose : closeBlock jsonParse d accum = .ok (d', event)) : Decoded d'.completed event := by
  unfold closeBlock at hclose
  split at hclose
  · cases hclose; exact h
  · split at hclose
    · cases hclose; exact h
    · split at hclose
      · split at hclose
        · cases hclose
        · cases hclose; exact h.symm
      · cases hclose; exact h

/-- `message_stop` alone completes the stream, and it yields the message. -/
theorem decoded_handle {jsonParse : String → Option Json} {d d' : AnthropicDecoder}
    {chunk : RawMessageStreamEvent} {event : Option LlmStreamEvent} (h : d.completed = false)
    (hhandle : handle jsonParse d chunk = .ok (d', event)) : Decoded d'.completed event := by
  cases chunk with
  | messageStart usage => cases hhandle; exact h
  | contentBlockStart index type id name => cases hhandle; exact h
  | contentBlockDelta index delta =>
    cases delta with
    | textDelta text => cases hhandle; exact h.symm
    | thinkingDelta thinking => cases hhandle; exact h.symm
    | inputJsonDelta partialJson => cases hhandle; exact h
    | other => cases hhandle; exact h
  | contentBlockStop index =>
    simp only [handle] at hhandle
    split at hhandle
    · cases hhandle; exact h
    · refine decoded_closeBlock ?_ hhandle
      exact h
  | messageDelta stopReason usage => cases hhandle; exact h
  | messageStop => cases hhandle; rfl
  | other => cases hhandle; exact h

end AnthropicDecoder

end Anthropic

/-- `anthropicMessagesWire`. -/
def anthropicMessagesWire (jsonParse : String → Option Json) : Wire :=
  { Chunk := Anthropic.RawMessageStreamEvent
    Decoder := Anthropic.AnthropicDecoder
    decoder := Anthropic.AnthropicDecoder.new
    completed := Anthropic.AnthropicDecoder.completed
    handle := Anthropic.AnthropicDecoder.handle jsonParse
    fresh := fun _ => rfl
    decoded := Anthropic.AnthropicDecoder.decoded_handle }

/-! ## OpenAI responses -/

namespace OpenAi

/-- `response.usage`, as the decoder reads it. -/
structure ReportedUsage where
  inputTokens : Option Nat
  outputTokens : Option Nat
  cachedTokens : Option Nat

/-- `Response`, with the fields that the decoder reads. -/
structure Response where
  usage : Option ReportedUsage
  status : Option String
  /-- `incomplete_details?.reason` -/
  incompleteReason : Option String
  /-- `error?.message` -/
  errorMessage : Option String

inductive OutputItem where
  | functionCall (id : Option String) (callId name : String)
  | other

/-- `ResponseStreamEvent`, with the fields that the decoder reads. -/
inductive ResponseStreamEvent where
  | outputTextDelta (delta : String)
  | reasoningSummaryTextDelta (delta : String)
  | outputItemAdded (item : OutputItem)
  | functionCallArgumentsDelta (itemId delta : String)
  | functionCallArgumentsDone (itemId : String)
  | completed (response : Response)
  | incomplete (response : Response)
  | failed (response : Response)
  | error (message : String)
  /-- An unknown event type. -/
  | other

structure CallAccum where
  callId : String
  name : String
  args : String

/-- The fields of `OpenAiDecoder`. -/
structure OpenAiDecoder where
  completed : Bool
  requestId : Option String
  items : String → Option CallAccum
  tools : List ContentBlock
  text : String
  reasoning : String

namespace OpenAiDecoder

def new (requestId : Option String) : OpenAiDecoder :=
  { completed := false, requestId, items := fun _ => none, tools := [], text := "",
    reasoning := "" }

/-- `#deriveStopReason`. -/
def deriveStopReason (d : OpenAiDecoder) (response : Response) : Option String :=
  if d.tools.length > 0 then some "tool_use"
  else if response.status = some "incomplete" then
    if response.incompleteReason = some "max_output_tokens" then some "max_tokens"
    else some (response.incompleteReason.getD "incomplete")
  else if response.status = some "completed" then some "end_turn"
  else response.status

/-- `#complete`. -/
def complete (d : OpenAiDecoder) (response : Response) : LlmStreamEvent :=
  let cached := response.usage.bind ReportedUsage.cachedTokens
  let content : List ContentBlock :=
    (if d.reasoning = "" then [] else [.reasoning d.reasoning]) ++
      (if d.text = "" then [] else [.text d.text]) ++ d.tools
  -- `Math.max(0, ..)` of the difference
  let usage : UsageSnapshot :=
    { inputTokens := (response.usage.bind ReportedUsage.inputTokens).getD 0 - cached.getD 0
      outputTokens := (response.usage.bind ReportedUsage.outputTokens).getD 0
      cacheReadInputTokens := cached
      cacheCreationInputTokens := none }
  .assistantMessageComplete { role := .assistant, content } usage (d.deriveStopReason response)

/-- `OpenAiDecoder.handle`. -/
def handle (jsonParse : String → Option Json) (d : OpenAiDecoder) :
    ResponseStreamEvent → Except ProviderError (OpenAiDecoder × Option LlmStreamEvent)
  | .outputTextDelta delta =>
    .ok ({ d with text := d.text ++ delta }, some (.assistantTextDelta delta))
  | .reasoningSummaryTextDelta delta =>
    .ok ({ d with reasoning := d.reasoning ++ delta }, some (.reasoningDelta delta))
  | .outputItemAdded (.functionCall id callId name) =>
    let accum : CallAccum := { callId, name, args := "" }
    .ok ({ d with items := Function.update d.items (id.getD "") (some accum) }, none)
  | .outputItemAdded .other => .ok (d, none)
  | .functionCallArgumentsDelta itemId delta =>
    let item := (d.items itemId).map fun item => { item with args := item.args ++ delta }
    .ok ({ d with items := Function.update d.items itemId item }, none)
  | .functionCallArgumentsDone itemId =>
    match d.items itemId with
    | none => .ok (d, none)
    | some item =>
      if item.callId = "" then .error (decodeError "function call missing call id" d.requestId)
      else
        let input := parseToolArgs jsonParse item.args
        .ok ({ d with
                items := Function.update d.items itemId none
                tools := d.tools ++ [.toolUse item.callId item.name input] },
          some (.toolUseDelta item.callId item.name input))
  | .completed response | .incomplete response =>
    .ok ({ d with completed := true }, some (d.complete response))
  | .failed response =>
    .error (decodeError (response.errorMessage.getD "response failed") d.requestId)
  | .error message => .error (decodeError message d.requestId)
  | .other => .ok (d, none)

/-- The completed and the incomplete response complete the stream, and they yield the message. -/
theorem decoded_handle {jsonParse : String → Option Json} {d d' : OpenAiDecoder}
    {chunk : ResponseStreamEvent} {event : Option LlmStreamEvent} (h : d.completed = false)
    (hhandle : handle jsonParse d chunk = .ok (d', event)) : Decoded d'.completed event := by
  cases chunk with
  | outputTextDelta delta => cases hhandle; exact h.symm
  | reasoningSummaryTextDelta delta => cases hhandle; exact h.symm
  | outputItemAdded item =>
    cases item with
    | functionCall id callId name => cases hhandle; exact h
    | other => cases hhandle; exact h
  | functionCallArgumentsDelta itemId delta => cases hhandle; exact h
  | functionCallArgumentsDone itemId =>
    simp only [handle] at hhandle
    split at hhandle
    · cases hhandle; exact h
    · split at hhandle
      · cases hhandle
      · cases hhandle; exact h.symm
  | completed response => cases hhandle; rfl
  | incomplete response => cases hhandle; rfl
  | failed response => cases hhandle
  | error message => cases hhandle
  | other => cases hhandle; exact h

end OpenAiDecoder

end OpenAi

/-- `openAiResponsesWire`. -/
def openAiResponsesWire (jsonParse : String → Option Json) : Wire :=
  { Chunk := OpenAi.ResponseStreamEvent
    Decoder := OpenAi.OpenAiDecoder
    decoder := OpenAi.OpenAiDecoder.new
    completed := OpenAi.OpenAiDecoder.completed
    handle := OpenAi.OpenAiDecoder.handle jsonParse
    fresh := fun _ => rfl
    decoded := OpenAi.OpenAiDecoder.decoded_handle }

/-! ## Provider profiles -/

/-- `provider` of a `ProviderConnection`. -/
inductive Provider where
  | anthropicApi
  | openaiApi
  | claudeCodingPlan
  | codexCodingPlan
  deriving DecidableEq, Repr

/-- The `wire` of `resolveProfile`. -/
def Provider.wire (jsonParse : String → Option Json) : Provider → Wire
  | .anthropicApi | .claudeCodingPlan => anthropicMessagesWire jsonParse
  | .openaiApi | .codexCodingPlan => openAiResponsesWire jsonParse

end EphemeralAgent.LlmClient
