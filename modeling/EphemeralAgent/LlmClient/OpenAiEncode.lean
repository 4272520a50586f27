import EphemeralAgent.Contracts.JsonNative
import EphemeralAgent.LlmClient.AnthropicEncode
import EphemeralAgent.LlmClient.Wire

/-!
# Encoding for OpenAI

`src/agents/llm-client/wires/openai-responses.ts`: a request becomes a flat list of items, the texts
of a message in front of its calls and results.

* `encodeOpenAiRequest` — the parameters of `POST /v1/responses`
* `parseToolArgs_stringify` — the arguments of a call are read back
* `encodeMessageItems_results` — the items of the results of a turn
* `encoded_alike` — **both wires send the same texts, calls and results, in the same order**
-/

namespace EphemeralAgent.LlmClient.OpenAi

/-! ## Parameters -/

/-- `dialect` of `WireOptions`. -/
inductive Dialect where
  /-- `"public"` -/
  | publicApi
  | codex
  deriving DecidableEq, Repr

/-- `WireOptions`, as this wire reads them. -/
structure WireOptions where
  dialect : Option Dialect := none

inductive Effort where
  | minimal
  | low
  | medium
  | high
  deriving DecidableEq, Repr

/-- The type of a text part. -/
inductive TextType where
  | inputText
  | outputText
  deriving DecidableEq, Repr

/-- `ResponseInputItem`, the kinds that this wire emits. -/
inductive ResponseInputItem where
  | message (role : MessageRole) (content : List (TextType × String))
  | functionCall (callId : ToolUseId) (name : String) (arguments : List Char)
  | functionCallOutput (callId : ToolUseId) (output : String)

/-- `FunctionTool`. -/
structure FunctionTool where
  name : String
  description : String
  parameters : JsonObject
  strict : Bool
  outputSchema : Option JsonObject

inductive ResponseToolChoice where
  | auto
  | required
  | function (name : String)
  deriving DecidableEq, Repr

/-- `ResponseCreateParamsStreaming`; a field that is `none` is absent. -/
structure ResponseCreateParams where
  model : String
  input : List ResponseInputItem
  store : Bool
  stream : Bool
  maxOutputTokens : Option Nat
  instructions : Option String
  tools : Option (List FunctionTool)
  toolChoice : Option ResponseToolChoice
  effort : Option Effort

/-! ## Encoding -/

/-- `OPENAI_EFFORT`. -/
def openAiEffort : ReasoningEffort → Effort
  | .minimal => .minimal
  | .low => .low
  | .medium => .medium
  | .high => .high
  | .max => .high

def textType : MessageRole → TextType
  | .user => .inputText
  | .assistant => .outputText

def encodeCall (n : Json.NumberText) (call : ToolUseBlock) : ResponseInputItem :=
  .functionCall call.toolUseId call.name (Json.stringify n (.obj call.input))

/-- The item of a block; texts are collected apart, and reasoning is dropped. -/
def encodeBlock (n : Json.NumberText) : ContentBlock → Option ResponseInputItem
  | .text _ => none
  | .toolUse toolUseId name input => some (encodeCall n { toolUseId, name, input })
  | .toolResult toolUseId content _ => some (.functionCallOutput toolUseId content)
  | .reasoning _ => none

/-- `textParts`, as a `message` item if there are any. -/
def textItem (message : Message) : List ResponseInputItem :=
  let textParts := (message.content.filterMap ContentBlock.asText).map fun text =>
    (textType message.role, text)
  if textParts.length > 0 then [.message message.role textParts] else []

/-- `encodeMessageItems`. -/
def encodeMessageItems (n : Json.NumberText) (message : Message) : List ResponseInputItem :=
  textItem message ++ message.content.filterMap (encodeBlock n)

/-- `encodeTool`. -/
def encodeTool (spec : ToolSpec) : FunctionTool :=
  { name := spec.name, description := spec.description, parameters := spec.inputSchema
    strict := false, outputSchema := spec.outputSchema }

/-- `encodeToolChoice`; the codex dialect has no named tool. -/
def encodeToolChoice (choice : ToolChoice) (dialect : Option Dialect) : ResponseToolChoice :=
  match choice with
  | .auto => .auto
  | .any => .required
  | .tool name => if dialect = some .codex then .required else .function name

/-- `encodeOpenAiRequest`. -/
def encodeOpenAiRequest (n : Json.NumberText) (request : LlmRequest) (options : WireOptions) :
    ResponseCreateParams :=
  { model := request.model
    input := request.messages.flatMap (encodeMessageItems n)
    store := false
    stream := true
    maxOutputTokens := if options.dialect ≠ some .codex then some request.maxTokens else none
    instructions := request.systemPrompt
    tools := if request.tools.length > 0 then some (request.tools.map encodeTool) else none
    toolChoice := request.toolChoice.map (encodeToolChoice · options.dialect)
    effort := request.reasoningEffort.map openAiEffort }

/-! ## The items of a message -/

section Arguments

variable {n : Json.NumberText} {reader : Json.NumeralReader n} {jsonParse : String → Option Json}

/-- **The arguments of a call are read back.** -/
theorem parseToolArgs_stringify {input : JsonObject} (h : Json.Legible n reader.read (.obj input))
    (hparse : ∀ raw, reader.Holds raw → jsonParse raw = Json.parse reader.read raw.toList) :
    parseToolArgs jsonParse (String.ofList (Json.stringify n (.obj input))) = input := by
  have hread : Json.parse reader.read (Json.stringify n (.obj input)) = some (.obj input) :=
    Json.parse_stringify h
  have hvalue : jsonParse (String.ofList (Json.stringify n (.obj input))) = some (.obj input) := by
    rw [hparse, String.toList_ofList, hread]
    intro _
    rw [String.toList_ofList, hread]
    rfl
  have hsome : String.ofList (Json.stringify n (.obj input)) ≠ "" := by
    intro hempty
    have htext := congrArg String.toList hempty
    rw [String.toList_ofList, Json.stringify] at htext
    cases htext
  rw [parseToolArgs, if_neg hsome, hvalue]
  rfl

/-- What is read as arguments is an object of the language, with numbers that can be read again. -/
theorem legible_parseToolArgs {raw : String} (hraw : reader.Holds raw)
    (hparse : ∀ raw, reader.Holds raw → jsonParse raw = Json.parse reader.read raw.toList) :
    Json.Legible n reader.read (.obj (parseToolArgs jsonParse raw)) := by
  have hempty : Json.Legible n reader.read (.obj []) := ⟨List.nodup_nil, rfl, trivial⟩
  unfold parseToolArgs
  split
  · exact hempty
  · rw [hparse raw hraw]
    cases hvalue : Json.parse reader.read raw.toList with
    | none => exact hempty
    | some value =>
      cases value with
      | obj fields => exact Json.native_of_parse reader.read_text hvalue
      | _ => exact hempty

end Arguments

/-- The items of a turn: its texts, then its calls. -/
theorem filterMap_encodeBlock_turn (n : Json.NumberText) {content : List ContentBlock}
    (h : ∀ block ∈ content, ∀ toolUseId text isError,
      block ≠ .toolResult toolUseId text isError) :
    content.filterMap (encodeBlock n) =
      (content.filterMap ContentBlock.asToolUse).map (encodeCall n) := by
  induction content with
  | nil => rfl
  | cons block rest ih =>
    have hrest := ih fun other hother => h other (List.mem_cons_of_mem _ hother)
    cases block with
    | toolResult toolUseId text isError => exact absurd rfl (h _ List.mem_cons_self _ _ _)
    | _ =>
      rw [List.filterMap_cons, List.filterMap_cons, hrest]
      rfl

/-- The items of a message of results. -/
theorem encodeMessageItems_results (n : Json.NumberText) (blocks : List ToolResultBlock) :
    encodeMessageItems n { role := .user, content := blocks.map ToolResultBlock.toBlock } =
      blocks.map fun block => .functionCallOutput block.toolUseId block.content := by
  have htexts : (blocks.map ToolResultBlock.toBlock).filterMap ContentBlock.asText = [] := by
    rw [List.filterMap_map]
    exact List.filterMap_eq_nil_iff.mpr fun block _ => rfl
  rw [encodeMessageItems, textItem]
  simp only [htexts, List.map_nil, List.length_nil, Nat.lt_irrefl, if_false, List.nil_append]
  rw [List.filterMap_map, ← List.filterMap_eq_map]
  rfl

/-! ## Both wires -/

namespace ResponseInputItem

def texts : ResponseInputItem → List (MessageRole × String)
  | .message role content => content.map fun part => (role, part.2)
  | _ => []

def call? : ResponseInputItem → Option (ToolUseId × String × List Char)
  | .functionCall callId name arguments => some (callId, name, arguments)
  | _ => none

def output? : ResponseInputItem → Option (ToolUseId × String)
  | .functionCallOutput callId output => some (callId, output)
  | _ => none

end ResponseInputItem

/-- A text block, for OpenAI's parts. -/
def blockText : Anthropic.ContentBlockParam → Option String
  | .text text _ => some text
  | _ => none

/-- A `tool_use` block, with its input printed. -/
def blockCall (n : Json.NumberText) :
    Anthropic.ContentBlockParam → Option (ToolUseId × String × List Char)
  | .toolUse id name input _ => some (id, name, Json.stringify n (.obj input))
  | _ => none

/-- A `tool_result` block; OpenAI is not told which results are errors. -/
def blockOutput : Anthropic.ContentBlockParam → Option (ToolUseId × String)
  | .toolResult toolUseId content _ _ => some (toolUseId, content)
  | _ => none

/-- The same texts, calls and results, in the same order. -/
structure Alike (n : Json.NumberText) (input : List ResponseInputItem)
    (messages : List Anthropic.MessageParam) : Prop where
  texts : input.flatMap (·.texts) =
    messages.flatMap fun message => (message.content.filterMap blockText).map (message.role, ·)
  calls : input.filterMap (·.call?) =
    messages.flatMap fun message => message.content.filterMap (blockCall n)
  outputs : input.filterMap (·.output?) =
    messages.flatMap fun message => message.content.filterMap blockOutput

section Alike

variable {n : Json.NumberText}

theorem texts_textItem (message : Message) :
    (textItem message).flatMap (·.texts) =
      (message.content.filterMap ContentBlock.asText).map (message.role, ·) := by
  unfold textItem
  cases htexts : message.content.filterMap ContentBlock.asText with
  | nil => rfl
  | cons text rest => simp [ResponseInputItem.texts]

/-- A `message` item is neither a call nor a result. -/
theorem quiet_textItem (message : Message) :
    (textItem message).filterMap (·.call?) = [] ∧ (textItem message).filterMap (·.output?) = [] := by
  unfold textItem
  dsimp only
  split <;> exact ⟨rfl, rfl⟩

/-- Block by block, the two wires say the same. -/
theorem alike_block (block : ContentBlock) :
    block.asText = (Anthropic.encodeContentBlock block).bind blockText ∧
      (encodeBlock n block).bind (·.call?) = (Anthropic.encodeContentBlock block).bind (blockCall n) ∧
      (encodeBlock n block).bind (·.output?) = (Anthropic.encodeContentBlock block).bind blockOutput ∧
      ∀ item, encodeBlock n block = some item → item.texts = [] := by
  cases block with
  | text | reasoning => exact ⟨rfl, rfl, rfl, nofun⟩
  | toolUse | toolResult =>
    refine ⟨rfl, rfl, rfl, fun item hitem => ?_⟩
    cases hitem
    rfl

theorem alike_message (message : Message) :
    Alike n (encodeMessageItems n message) [Anthropic.encodeMessage message] := by
  have hnone : (message.content.filterMap (encodeBlock n)).flatMap (·.texts) = [] := by
    refine List.flatMap_eq_nil_iff.mpr fun item hitem => ?_
    obtain ⟨block, -, hblock⟩ := List.mem_filterMap.mp hitem
    exact (alike_block block).2.2.2 item hblock
  obtain ⟨hcalls, houtputs⟩ := quiet_textItem message
  refine ⟨?_, ?_, ?_⟩
  · rw [encodeMessageItems, List.flatMap_append, texts_textItem, hnone, List.append_nil,
      List.flatMap_singleton, Anthropic.encodeMessage, List.filterMap_filterMap]
    exact congrArg _ (List.filterMap_congr fun block _ => (alike_block (n := n) block).1)
  · rw [encodeMessageItems, List.filterMap_append, hcalls, List.nil_append, List.flatMap_singleton,
      Anthropic.encodeMessage, List.filterMap_filterMap, List.filterMap_filterMap]
    exact List.filterMap_congr fun block _ => (alike_block block).2.1
  · rw [encodeMessageItems, List.filterMap_append, houtputs, List.nil_append,
      List.flatMap_singleton, Anthropic.encodeMessage, List.filterMap_filterMap,
      List.filterMap_filterMap]
    exact List.filterMap_congr fun block _ => (alike_block (n := n) block).2.2.1

theorem Alike.append {input more : List ResponseInputItem} {messages others : List Anthropic.MessageParam}
    (h : Alike n input messages) (hmore : Alike n more others) :
    Alike n (input ++ more) (messages ++ others) where
  texts := by rw [List.flatMap_append, List.flatMap_append, h.texts, hmore.texts]
  calls := by rw [List.filterMap_append, List.flatMap_append, h.calls, hmore.calls]
  outputs := by rw [List.filterMap_append, List.flatMap_append, h.outputs, hmore.outputs]

/-- A breakpoint says nothing. -/
theorem Alike.erase_iff {input : List ResponseInputItem} {messages : List Anthropic.MessageParam} :
    Alike n input (messages.map Anthropic.MessageParam.erase) ↔ Alike n input messages := by
  have hsame : ∀ {γ : Type} (f : Anthropic.ContentBlockParam → Option γ),
      (∀ block, f block.erase = f block) → ∀ message : Anthropic.MessageParam,
        message.erase.content.filterMap f = message.content.filterMap f := by
    intro γ f hf message
    rw [Anthropic.MessageParam.erase, List.filterMap_map]
    exact List.filterMap_congr fun block _ => hf block
  have htext := hsame blockText fun block => by cases block <;> rfl
  have hcall := hsame (blockCall n) fun block => by cases block <;> rfl
  have houtput := hsame blockOutput fun block => by cases block <;> rfl
  have hrole : ∀ message : Anthropic.MessageParam, message.erase.role = message.role := fun _ => rfl
  constructor
  · rintro ⟨htexts, hcalls, houtputs⟩
    rw [List.flatMap_map] at htexts hcalls houtputs
    simp only [htext, hcall, houtput, hrole] at htexts hcalls houtputs
    exact ⟨htexts, hcalls, houtputs⟩
  · rintro ⟨htexts, hcalls, houtputs⟩
    refine ⟨?_, ?_, ?_⟩ <;> rw [List.flatMap_map]
    · simp only [htext, hrole]
      exact htexts
    · simp only [hcall]
      exact hcalls
    · simp only [houtput]
      exact houtputs

/-- **Both wires send the same conversation.** -/
theorem encoded_alike (n : Json.NumberText) (request : LlmRequest) (options : WireOptions)
    (identity : LlmClient.WireOptions) :
    Alike n (encodeOpenAiRequest n request options).input
      (Anthropic.encodeAnthropicRequest request identity).messages := by
  have hplain : ∀ messages : List Message, Alike n (messages.flatMap (encodeMessageItems n))
      (messages.map Anthropic.encodeMessage) := by
    intro messages
    induction messages with
    | nil => exact ⟨rfl, rfl, rfl⟩
    | cons message rest ih => exact (alike_message message).append ih
  show Alike n _ (Anthropic.stampConversationTail (request.messages.map Anthropic.encodeMessage))
  rw [← Alike.erase_iff, Anthropic.erase_stampConversationTail, Alike.erase_iff]
  exact hplain request.messages

end Alike

end EphemeralAgent.LlmClient.OpenAi
