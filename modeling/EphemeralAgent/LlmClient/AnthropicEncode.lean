import Mathlib.Data.List.Basic
import EphemeralAgent.Contracts.Message

/-!
# Requests on the Anthropic wire

`encodeAnthropicRequest` of `wires/anthropic-messages.ts`: a neutral request becomes the parameters
of `POST /v1/messages`, and the last block of each stable prefix is stamped as a cache breakpoint.

* `LlmRequest`, `WireOptions`, `MessageCreateParams` — what goes in and what comes out
* `stampConversationTail`, `encodeAnthropicRequest` — the functions of the source
* `MessageCreateParams.erase` — the parameters without their breakpoints
* `Stamped` — the breakpoints are on the last system block, the last tool and the conversation tail
-/

namespace EphemeralAgent.LlmClient

/-! ## Requests -/

/-- `ReasoningEffort`. -/
inductive ReasoningEffort where
  | minimal
  | low
  | medium
  | high
  | max
  deriving DecidableEq, Repr

/-- `ToolChoice`. -/
inductive ToolChoice where
  | auto
  | any
  | tool (name : String)
  deriving DecidableEq, Repr

/-- `ToolSpec`. -/
structure ToolSpec where
  name : String
  description : String
  inputSchema : JsonObject
  outputSchema : Option JsonObject

/-- `LlmRequest`. -/
structure LlmRequest where
  model : String
  messages : List Message
  systemPrompt : Option String
  maxTokens : Nat
  tools : List ToolSpec
  toolChoice : Option ToolChoice
  reasoningEffort : Option ReasoningEffort

/-- `WireOptions`, as this wire reads them. -/
structure WireOptions where
  systemPrefix : Option String

namespace Anthropic

/-! ## Parameters -/

/-- `CacheControlEphemeral`. -/
inductive CacheControl where
  | ephemeral
  deriving DecidableEq, Repr

/-- `ContentBlockParam`, the kinds that this wire emits. -/
inductive ContentBlockParam where
  | text (text : String) (cacheControl : Option CacheControl)
  | toolUse (id : ToolUseId) (name : String) (input : JsonObject) (cacheControl : Option CacheControl)
  | toolResult (toolUseId : ToolUseId) (content : String) (isError : Bool)
      (cacheControl : Option CacheControl)

/-- `MessageParam`. -/
structure MessageParam where
  role : MessageRole
  content : List ContentBlockParam

/-- `Tool`. -/
structure Tool where
  name : String
  description : String
  inputSchema : JsonObject
  cacheControl : Option CacheControl

/-- `TextBlockParam`. -/
structure TextBlockParam where
  text : String
  cacheControl : Option CacheControl

/-- `effort` of `output_config`. -/
inductive Effort where
  | low
  | medium
  | high
  | max
  deriving DecidableEq, Repr

/-- `MessageCreateParamsStreaming`; a field that is `none` is absent. -/
structure MessageCreateParams where
  model : String
  maxTokens : Nat
  messages : List MessageParam
  stream : Bool
  system : Option (List TextBlockParam)
  tools : Option (List Tool)
  toolChoice : Option ToolChoice
  effort : Option Effort

/-! ## Encoding -/

/-- `ANTHROPIC_EFFORT`. -/
def anthropicEffort : ReasoningEffort → Effort
  | .minimal => .low
  | .low => .low
  | .medium => .medium
  | .high => .high
  | .max => .max

/-- `encodeContentBlock`; reasoning is dropped. -/
def encodeContentBlock : ContentBlock → Option ContentBlockParam
  | .text text => some (.text text none)
  | .toolUse toolUseId name input => some (.toolUse toolUseId name input none)
  | .toolResult toolUseId content isError => some (.toolResult toolUseId content isError none)
  | .reasoning _ => none

/-- `encodeMessage`. -/
def encodeMessage (message : Message) : MessageParam :=
  { role := message.role, content := message.content.filterMap encodeContentBlock }

/-- `encodeTool`; the output schema is dropped. -/
def encodeTool (spec : ToolSpec) : Tool :=
  { name := spec.name, description := spec.description, inputSchema := spec.inputSchema,
    cacheControl := none }

/-- The system blocks: the identity text, then the prompt of the request. -/
def systemBlocks (options : WireOptions) (request : LlmRequest) : List TextBlockParam :=
  (options.systemPrefix.toList ++ request.systemPrompt.toList).map fun text =>
    { text, cacheControl := none }

/-- `stampContentBlock`. -/
def stampContentBlock : ContentBlockParam → ContentBlockParam
  | .text text _ => .text text (some .ephemeral)
  | .toolUse id name input _ => .toolUse id name input (some .ephemeral)
  | .toolResult toolUseId content isError _ => .toolResult toolUseId content isError (some .ephemeral)

/-- `cache_control = EPHEMERAL` on a system block. -/
def TextBlockParam.stamp (block : TextBlockParam) : TextBlockParam :=
  { block with cacheControl := some .ephemeral }

/-- `cache_control = EPHEMERAL` on a tool. -/
def Tool.stamp (tool : Tool) : Tool :=
  { tool with cacheControl := some .ephemeral }

/-- The last item of a list, changed in place. -/
def modifyLast {α : Type*} (f : α → α) (items : List α) : List α :=
  items.modify (items.length - 1) f

/-- The loop of `stampConversationTail`, over the messages from the last one to the first. -/
def stampBackwards : List MessageParam → List MessageParam
  | [] => []
  | message :: rest =>
    if message.content.isEmpty then message :: stampBackwards rest
    else { message with content := modifyLast stampContentBlock message.content } :: rest

/-- `stampConversationTail`. -/
def stampConversationTail (messages : List MessageParam) : List MessageParam :=
  (stampBackwards messages.reverse).reverse

/-- `encodeAnthropicRequest`. -/
def encodeAnthropicRequest (request : LlmRequest) (options : WireOptions) : MessageCreateParams :=
  let system := systemBlocks options request
  let tools := request.tools.map encodeTool
  { model := request.model
    maxTokens := request.maxTokens
    messages := stampConversationTail (request.messages.map encodeMessage)
    stream := true
    system :=
      if system.length > 0 then some (modifyLast TextBlockParam.stamp system) else none
    tools :=
      if request.tools.length > 0 then some (modifyLast Tool.stamp tools) else none
    toolChoice := request.toolChoice
    effort := request.reasoningEffort.map anthropicEffort }

/-! ## Without breakpoints -/

def ContentBlockParam.cacheControl : ContentBlockParam → Option CacheControl
  | .text _ cacheControl => cacheControl
  | .toolUse _ _ _ cacheControl => cacheControl
  | .toolResult _ _ _ cacheControl => cacheControl

def ContentBlockParam.erase : ContentBlockParam → ContentBlockParam
  | .text value _ => .text value none
  | .toolUse id name input _ => .toolUse id name input none
  | .toolResult toolUseId content isError _ => .toolResult toolUseId content isError none

def MessageParam.erase (message : MessageParam) : MessageParam :=
  { message with content := message.content.map ContentBlockParam.erase }

def TextBlockParam.erase (block : TextBlockParam) : TextBlockParam :=
  { block with cacheControl := none }

def Tool.erase (tool : Tool) : Tool :=
  { tool with cacheControl := none }

/-- The parameters with every `cache_control` field erased. -/
def MessageCreateParams.erase (params : MessageCreateParams) : MessageCreateParams :=
  { params with
    messages := params.messages.map MessageParam.erase
    system := params.system.map (·.map TextBlockParam.erase)
    tools := params.tools.map (·.map Tool.erase) }

/-- The plain projection of a request. -/
def plainRequest (request : LlmRequest) (options : WireOptions) : MessageCreateParams :=
  { model := request.model
    maxTokens := request.maxTokens
    messages := request.messages.map encodeMessage
    stream := true
    system :=
      if systemBlocks options request = [] then none else some (systemBlocks options request)
    tools := if request.tools = [] then none else some (request.tools.map encodeTool)
    toolChoice := request.toolChoice
    effort := request.reasoningEffort.map anthropicEffort }

/-! ## The last item -/

section ModifyLast

variable {α β : Type*} {f : α → α}

theorem modifyLast_concat (f : α → α) (items : List α) (last : α) :
    modifyLast f (items ++ [last]) = items ++ [f last] := by
  rw [modifyLast, List.modify_eq_take_cons_drop (by simp)]
  simp

theorem length_modifyLast (f : α → α) (items : List α) :
    (modifyLast f items).length = items.length := by
  simp [modifyLast]

/-- What does not see the change is not changed. -/
theorem map_modifyLast {g : α → β} (h : ∀ x, g (f x) = g x) (items : List α) :
    (modifyLast f items).map g = items.map g := by
  rcases List.eq_nil_or_concat items with rfl | ⟨rest, last, rfl⟩
  · rfl
  · rw [List.concat_eq_append, modifyLast_concat, List.map_append, List.map_append,
      List.map_singleton, List.map_singleton, h]

/-- A mark that no item had is on the last item alone. -/
theorem marked_modifyLast {p : α → Bool} {items : List α} (hmark : ∀ x, p (f x) = true)
    (hplain : ∀ x ∈ items, p x = false) {i : Nat} {x : α} (hx : (modifyLast f items)[i]? = some x) :
    p x = true ↔ i + 1 = items.length := by
  unfold modifyLast at hx
  simp only [List.getElem?_modify, Option.map_eq_map, Option.map_eq_some_iff] at hx
  obtain ⟨y, hy, rfl⟩ := hx
  obtain ⟨hi, rfl⟩ := List.getElem?_eq_some_iff.mp hy
  by_cases hlast : items.length - 1 = i
  · rw [if_pos hlast, hmark]
    exact iff_of_true rfl (by omega)
  · rw [if_neg hlast, hplain _ (List.getElem_mem hi)]
    exact iff_of_false (by simp) (by omega)

/-- A mark that no item had is made once at most. -/
theorem countP_modifyLast {p : α → Bool} {items : List α} (hplain : ∀ x ∈ items, p x = false) :
    (modifyLast f items).countP p ≤ 1 := by
  rcases List.eq_nil_or_concat items with rfl | ⟨rest, last, rfl⟩
  · simp [modifyLast]
  · rw [List.concat_eq_append, modifyLast_concat, List.countP_append, List.countP_singleton]
    have hrest : rest.countP p = 0 := by
      rw [List.countP_eq_zero]
      intro x hx
      simp [hplain x (by simp [hx])]
    split <;> omega

end ModifyLast

/-! ## The conversation tail -/

theorem stampBackwards_cases (messages : List MessageParam) :
    ((∀ message ∈ messages, message.content = []) ∧ stampBackwards messages = messages) ∨
    ∃ after message before, messages = after ++ message :: before ∧ message.content ≠ [] ∧
      (∀ later ∈ after, later.content = []) ∧
      stampBackwards messages = after ++
        { message with content := modifyLast stampContentBlock message.content } :: before := by
  induction messages with
  | nil => exact Or.inl ⟨nofun, rfl⟩
  | cons message rest ih =>
    unfold stampBackwards
    by_cases hempty : message.content.isEmpty = true
    · rw [if_pos hempty]
      rw [List.isEmpty_iff] at hempty
      rcases ih with ⟨hall, heq⟩ | ⟨after, tail, before, rfl, hne, hafter, heq⟩
      · refine Or.inl ⟨fun other hother => ?_, by rw [heq]⟩
        rcases List.mem_cons.mp hother with rfl | hother
        · exact hempty
        · exact hall other hother
      · have hafter' : ∀ later ∈ message :: after, later.content = [] := by
          intro other hother
          rcases List.mem_cons.mp hother with rfl | hother
          · exact hempty
          · exact hafter other hother
        exact Or.inr ⟨message :: after, tail, before, rfl, hne, hafter', by rw [heq]; rfl⟩
    · rw [if_neg hempty]
      exact Or.inr ⟨[], message, rest, rfl, by simpa using hempty, nofun, rfl⟩

/-- **Either every message is empty, or the last one that is not is stamped.** -/
theorem stampConversationTail_cases (messages : List MessageParam) :
    ((∀ message ∈ messages, message.content = []) ∧ stampConversationTail messages = messages) ∨
    ∃ before message after, messages = before ++ message :: after ∧ message.content ≠ [] ∧
      (∀ later ∈ after, later.content = []) ∧
      stampConversationTail messages = before ++
        { message with content := modifyLast stampContentBlock message.content } :: after := by
  unfold stampConversationTail
  rcases stampBackwards_cases messages.reverse with ⟨hall, heq⟩ |
    ⟨after, message, before, hsplit, hne, hafter, heq⟩
  · refine Or.inl ⟨fun message hmessage => hall message (List.mem_reverse.mpr hmessage), ?_⟩
    rw [heq, List.reverse_reverse]
  · refine Or.inr ⟨before.reverse, message, after.reverse, ?_, hne, ?_, ?_⟩
    · rw [← List.reverse_reverse messages, hsplit]
      simp
    · exact fun later hlater => hafter later (List.mem_reverse.mp hlater)
    · rw [heq]
      simp

theorem erase_stampContentBlock (block : ContentBlockParam) :
    (stampContentBlock block).erase = block.erase := by
  cases block <;> rfl

theorem TextBlockParam.erase_stamp (block : TextBlockParam) : block.stamp.erase = block.erase :=
  rfl

theorem Tool.erase_stamp (tool : Tool) : tool.stamp.erase = tool.erase :=
  rfl

theorem cacheControl_stampContentBlock (block : ContentBlockParam) :
    (stampContentBlock block).cacheControl.isSome = true := by
  cases block <;> rfl

/-- The stamp is all that `stampConversationTail` changes. -/
theorem erase_stampConversationTail (messages : List MessageParam) :
    (stampConversationTail messages).map MessageParam.erase = messages.map MessageParam.erase := by
  rcases stampConversationTail_cases messages with ⟨-, heq⟩ |
    ⟨before, message, after, rfl, -, -, heq⟩
  · rw [heq]
  · rw [heq]
    simp [MessageParam.erase, map_modifyLast erase_stampContentBlock]

/-- A stamp fills no message and empties none. -/
theorem content_stampConversationTail (messages : List MessageParam) :
    (∀ message ∈ stampConversationTail messages, message.content ≠ []) ↔
      ∀ message ∈ messages, message.content ≠ [] := by
  have hsame : ∀ part : List MessageParam, (∀ message ∈ part, message.content ≠ []) ↔
      ∀ erased ∈ part.map MessageParam.erase, erased.content ≠ [] := by
    intro part
    rw [List.forall_mem_map]
    refine forall₂_congr fun message _ => ?_
    simp [MessageParam.erase]
  rw [hsame, erase_stampConversationTail, ← hsame]

/-! ## Encoded messages have no breakpoint -/

theorem cacheControl_of_mem_encodeMessage {message : Message} {block : ContentBlockParam}
    (h : block ∈ (encodeMessage message).content) : block.cacheControl.isSome = false := by
  obtain ⟨source, -, hencode⟩ := List.mem_filterMap.mp h
  cases source with
  | reasoning text => cases hencode
  | text | toolUse | toolResult => cases hencode; rfl

theorem erase_encodeMessage (message : Message) :
    (encodeMessage message).erase = encodeMessage message := by
  unfold MessageParam.erase encodeMessage
  congr 1
  rw [List.map_filterMap]
  congr 1
  funext block
  cases block <;> rfl

/-- A message is encoded to nothing when it is all reasoning. -/
theorem encodeMessage_eq_nil {message : Message} :
    (encodeMessage message).content = [] ↔
      ∀ block ∈ message.content, ∃ text, block = .reasoning text := by
  unfold encodeMessage
  rw [List.filterMap_eq_nil_iff]
  refine forall₂_congr fun block _ => ?_
  cases block <;> simp [encodeContentBlock]

/-! ## The breakpoints -/

/-- Where the breakpoints are: on the last system block, the last tool, and the last block of the
last message that is not empty. -/
structure Stamped (params : MessageCreateParams) : Prop where
  system : ∀ blocks, params.system = some blocks → ∀ i block, blocks[i]? = some block →
    (block.cacheControl.isSome = true ↔ i + 1 = blocks.length)
  tools : ∀ tools, params.tools = some tools → ∀ i tool, tools[i]? = some tool →
    (tool.cacheControl.isSome = true ↔ i + 1 = tools.length)
  messages : ∀ (i : Nat) (message : MessageParam), params.messages[i]? = some message →
    ∀ (j : Nat) (block : ContentBlockParam), message.content[j]? = some block →
    (block.cacheControl.isSome = true ↔ j + 1 = message.content.length ∧
      ∀ (k : Nat) (later : MessageParam), i < k → params.messages[k]? = some later → later.content = [])

/-- The number of breakpoints. -/
def MessageCreateParams.breakpoints (params : MessageCreateParams) : Nat :=
  (params.system.getD []).countP (·.cacheControl.isSome) +
    (params.tools.getD []).countP (·.cacheControl.isSome) +
    (params.messages.flatMap (·.content)).countP (·.cacheControl.isSome)

section Encoded

variable (request : LlmRequest) (options : WireOptions)

theorem encoded_system {blocks : List TextBlockParam}
    (h : (encodeAnthropicRequest request options).system = some blocks) :
    blocks = modifyLast TextBlockParam.stamp (systemBlocks options request) := by
  simp only [encodeAnthropicRequest] at h
  split at h
  · exact (Option.some.inj h).symm
  · cases h

theorem encoded_tools {tools : List Tool}
    (h : (encodeAnthropicRequest request options).tools = some tools) :
    tools = modifyLast Tool.stamp (request.tools.map encodeTool) := by
  simp only [encodeAnthropicRequest] at h
  split at h
  · exact (Option.some.inj h).symm
  · cases h

theorem plain_systemBlocks : ∀ block ∈ systemBlocks options request,
    block.cacheControl.isSome = false := by
  intro block hblock
  obtain ⟨text, -, rfl⟩ := List.mem_map.mp hblock
  rfl

theorem plain_tools : ∀ tool ∈ request.tools.map encodeTool, tool.cacheControl.isSome = false := by
  intro tool htool
  obtain ⟨spec, -, rfl⟩ := List.mem_map.mp htool
  rfl

theorem plain_messages : ∀ message ∈ request.messages.map encodeMessage,
    ∀ block ∈ message.content, block.cacheControl.isSome = false := by
  intro message hmessage block hblock
  obtain ⟨source, -, rfl⟩ := List.mem_map.mp hmessage
  exact cacheControl_of_mem_encodeMessage hblock

/-- One breakpoint at most is in the conversation. -/
theorem countP_stampConversationTail {messages : List MessageParam}
    (hplain : ∀ message ∈ messages, ∀ block ∈ message.content, block.cacheControl.isSome = false) :
    ((stampConversationTail messages).flatMap (·.content)).countP (·.cacheControl.isSome) ≤ 1 := by
  have hnone : ∀ part : List MessageParam, (∀ message ∈ part, message ∈ messages) →
      (part.flatMap (·.content)).countP (·.cacheControl.isSome) = 0 := by
    intro part hpart
    rw [List.countP_eq_zero]
    intro block hblock
    obtain ⟨message, hmessage, hblock⟩ := List.mem_flatMap.mp hblock
    simp [hplain message (hpart message hmessage) block hblock]
  rcases stampConversationTail_cases messages with ⟨-, heq⟩ |
    ⟨before, message, after, rfl, -, -, heq⟩
  · rw [heq, hnone messages fun _ h => h]
    omega
  · rw [heq, List.flatMap_append, List.flatMap_cons, List.countP_append, List.countP_append,
      hnone before (by simp +contextual), hnone after (by simp +contextual)]
    have hone := countP_modifyLast (f := stampContentBlock)
      (p := fun block => block.cacheControl.isSome) (hplain message (by simp))
    rw [Nat.zero_add, Nat.add_zero]
    exact hone

theorem stamped_messages {messages : List MessageParam}
    (hplain : ∀ message ∈ messages, ∀ block ∈ message.content, block.cacheControl.isSome = false)
    {i j : Nat} {message : MessageParam} {block : ContentBlockParam}
    (hi : (stampConversationTail messages)[i]? = some message) (hj : message.content[j]? = some block) :
    block.cacheControl.isSome = true ↔ j + 1 = message.content.length ∧
      ∀ k later, i < k → (stampConversationTail messages)[k]? = some later → later.content = [] := by
  have hblock : block ∈ message.content := List.mem_of_getElem? hj
  rcases stampConversationTail_cases messages with ⟨hall, heq⟩ |
    ⟨before, tail, after, rfl, hne, hafter, heq⟩
  · rw [heq] at hi
    rw [hall message (List.mem_of_getElem? hi)] at hblock
    cases hblock
  · rw [heq] at hi ⊢
    by_cases hlt : i < before.length
    · -- a message before the tail
      rw [List.getElem?_append_left hlt] at hi
      rw [hplain message (by simp [List.mem_of_getElem? hi]) block hblock]
      refine iff_of_false (by simp) ?_
      rintro ⟨-, hlater⟩
      have hempty := hlater before.length
        { tail with content := modifyLast stampContentBlock tail.content } hlt (by simp)
      have hlength := congrArg List.length hempty
      rw [length_modifyLast, List.length_nil, List.length_eq_zero_iff] at hlength
      exact hne hlength
    · rw [List.getElem?_append_right (by omega)] at hi
      by_cases htail : i - before.length = 0
      · rw [htail, List.getElem?_cons_zero] at hi
        cases hi
        have hmark := marked_modifyLast (p := fun block => block.cacheControl.isSome)
          cacheControl_stampContentBlock (hplain tail (by simp)) hj
        simp only [length_modifyLast]
        rw [hmark]
        refine ⟨fun hlast => ⟨hlast, ?_⟩, And.left⟩
        intro k later hk hget
        rw [List.getElem?_append_right (by omega),
          List.getElem?_cons, if_neg (by omega)] at hget
        exact hafter later (List.mem_of_getElem? hget)
      · rw [List.getElem?_cons, if_neg htail] at hi
        rw [hafter message (List.mem_of_getElem? hi)] at hblock
        cases hblock

theorem stamped_encodeAnthropicRequest : Stamped (encodeAnthropicRequest request options) := by
  refine ⟨?_, ?_, ?_⟩
  · intro blocks hblocks i block hi
    rw [encoded_system request options hblocks] at hi ⊢
    rw [length_modifyLast]
    exact marked_modifyLast (p := fun block => block.cacheControl.isSome) (fun _ => rfl)
      (plain_systemBlocks request options) hi
  · intro tools htools i tool hi
    rw [encoded_tools request options htools] at hi ⊢
    rw [length_modifyLast]
    exact marked_modifyLast (p := fun tool => tool.cacheControl.isSome) (fun _ => rfl)
      (plain_tools request) hi
  · intro i message hi j block hj
    exact stamped_messages (plain_messages request) hi hj

theorem breakpoints_le_three : (encodeAnthropicRequest request options).breakpoints ≤ 3 := by
  have hsystem : ((encodeAnthropicRequest request options).system.getD []).countP
      (·.cacheControl.isSome) ≤ 1 := by
    cases h : (encodeAnthropicRequest request options).system with
    | none => simp
    | some blocks =>
      rw [encoded_system request options h]
      exact countP_modifyLast (plain_systemBlocks request options)
  have htools : ((encodeAnthropicRequest request options).tools.getD []).countP
      (·.cacheControl.isSome) ≤ 1 := by
    cases h : (encodeAnthropicRequest request options).tools with
    | none => simp
    | some tools =>
      rw [encoded_tools request options h]
      exact countP_modifyLast (plain_tools request)
  have hmessages : ((encodeAnthropicRequest request options).messages.flatMap (·.content)).countP
      (·.cacheControl.isSome) ≤ 1 := countP_stampConversationTail (plain_messages request)
  unfold MessageCreateParams.breakpoints
  omega

/-- **Without its breakpoints a request is its plain projection.** -/
theorem erase_encodeAnthropicRequest :
    (encodeAnthropicRequest request options).erase = plainRequest request options := by
  have hmessages : (stampConversationTail (request.messages.map encodeMessage)).map MessageParam.erase =
      request.messages.map encodeMessage := by
    rw [erase_stampConversationTail, List.map_map]
    refine List.map_congr_left fun message _ => ?_
    rw [Function.comp_apply, erase_encodeMessage]
  have hsystem : (modifyLast TextBlockParam.stamp (systemBlocks options request)).map
      TextBlockParam.erase = systemBlocks options request := by
    rw [map_modifyLast TextBlockParam.erase_stamp, systemBlocks, List.map_map]
    rfl
  have htools : (modifyLast Tool.stamp (request.tools.map encodeTool)).map Tool.erase =
      request.tools.map encodeTool := by
    rw [map_modifyLast Tool.erase_stamp, List.map_map]
    rfl
  unfold MessageCreateParams.erase encodeAnthropicRequest plainRequest
  simp only [hmessages, MessageCreateParams.mk.injEq, true_and, and_true]
  constructor
  · cases hblocks : systemBlocks options request with
    | nil => simp
    | cons block rest =>
      rw [hblocks] at hsystem
      simp [hsystem]
  · cases hspecs : request.tools with
    | nil => simp
    | cons spec rest =>
      rw [hspecs] at htools
      simp only [List.length_cons, Nat.zero_lt_succ, if_true, Option.map_some, htools]
      simp

end Encoded

/-- **Breakpoints are additive**: they are on the last system block, the last tool and the
conversation tail alone, three at most; without them the request is its plain projection, and more
messages leave the encoded prefix as it was. -/
theorem breakpoints_additive (request : LlmRequest) (options : WireOptions) :
    Stamped (encodeAnthropicRequest request options) ∧
    (encodeAnthropicRequest request options).breakpoints ≤ 3 ∧
    (encodeAnthropicRequest request options).erase = plainRequest request options ∧
    ∀ more : List Message,
      let extended := { request with messages := request.messages ++ more }
      (encodeAnthropicRequest extended options).system =
          (encodeAnthropicRequest request options).system ∧
        (encodeAnthropicRequest extended options).tools =
          (encodeAnthropicRequest request options).tools ∧
        (encodeAnthropicRequest extended options).erase =
          { (encodeAnthropicRequest request options).erase with
            messages := (encodeAnthropicRequest request options).erase.messages ++
              more.map encodeMessage } := by
  refine ⟨stamped_encodeAnthropicRequest request options, breakpoints_le_three request options,
    erase_encodeAnthropicRequest request options, fun more => ⟨rfl, rfl, ?_⟩⟩
  rw [erase_encodeAnthropicRequest, erase_encodeAnthropicRequest]
  simp [plainRequest, systemBlocks]

end Anthropic

end EphemeralAgent.LlmClient
