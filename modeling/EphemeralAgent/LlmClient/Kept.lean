import EphemeralAgent.LlmClient.AnthropicDecoder
import EphemeralAgent.LlmClient.OpenAiDecoder

/-!
# What a decoder completes is what it has yielded

The completed message repeats what the deltas before it have told: its text, its reasoning and its
calls.  On the OpenAI wire this is so for every stream; on the Anthropic wire it takes the order of
events that the provider documents, in which one block is closed before the next one starts.

* `textOf`, `reasoningOf`, `callsOf` — what the events of a turn tell
* `Keeps` — a message that repeats them
* `Anthropic.InSequence` — one block after the other
* `Provider.InSequence`, `keeps_of_decode` — both wires
-/

namespace EphemeralAgent

/-- The text of a reasoning block. -/
def ContentBlock.asReasoning : ContentBlock → Option String
  | .reasoning value => some value
  | _ => none

/-- The reasoning blocks, concatenated. -/
def reasoningText (message : Message) : String :=
  String.join (message.content.filterMap ContentBlock.asReasoning)

namespace LlmClient

/-! ## What the events tell -/

/-- The text of a `reasoning_delta`. -/
def LlmStreamEvent.asReasoning : LlmStreamEvent → Option String
  | .reasoningDelta text => some text
  | _ => none

def textOf (events : List LlmStreamEvent) : String :=
  String.join (events.filterMap LlmStreamEvent.asText)

def reasoningOf (events : List LlmStreamEvent) : String :=
  String.join (events.filterMap LlmStreamEvent.asReasoning)

def callsOf (events : List LlmStreamEvent) : List ToolUseBlock :=
  events.filterMap LlmStreamEvent.asToolUse

@[simp] theorem textOf_append (events more : List LlmStreamEvent) :
    textOf (events ++ more) = textOf events ++ textOf more := by
  simp [textOf]

@[simp] theorem reasoningOf_append (events more : List LlmStreamEvent) :
    reasoningOf (events ++ more) = reasoningOf events ++ reasoningOf more := by
  simp [reasoningOf]

@[simp] theorem callsOf_append (events more : List LlmStreamEvent) :
    callsOf (events ++ more) = callsOf events ++ callsOf more := by
  simp [callsOf]

@[simp] theorem textOf_singleton (event : LlmStreamEvent) :
    textOf [event] = event.asText.getD "" := by
  rw [textOf, List.filterMap_cons]
  cases event.asText <;> simp

@[simp] theorem reasoningOf_singleton (event : LlmStreamEvent) :
    reasoningOf [event] = event.asReasoning.getD "" := by
  rw [reasoningOf, List.filterMap_cons]
  cases event.asReasoning <;> simp

@[simp] theorem callsOf_singleton (event : LlmStreamEvent) :
    callsOf [event] = event.asToolUse.toList := by
  rw [callsOf, List.filterMap_cons]
  cases event.asToolUse <;> rfl

/-- The message repeats what the events tell. -/
structure Keeps (events : List LlmStreamEvent) (message : Message) : Prop where
  text : assistantText message = textOf events
  reasoning : reasoningText message = reasoningOf events
  calls : toolUses message = callsOf events

namespace Keeps

variable {events : List LlmStreamEvent} {role : MessageRole} {content : List ContentBlock}

/-- A block without text. -/
theorem empty_block {block : ContentBlock} (h : Keeps events { role, content })
    (htext : block.asText.getD "" = "") (hreasoning : block.asReasoning.getD "" = "")
    (hcall : block.asToolUse = none) : Keeps events { role, content := content ++ [block] } where
  text := by
    rw [← h.text, assistantText, assistantText, List.filterMap_append, List.filterMap_cons]
    cases hblock : block.asText <;> simp_all
  reasoning := by
    rw [← h.reasoning, reasoningText, reasoningText, List.filterMap_append, List.filterMap_cons]
    cases hblock : block.asReasoning <;> simp_all
  calls := by
    rw [← h.calls, toolUses, toolUses, List.filterMap_append, List.filterMap_cons_none hcall,
      List.filterMap_nil, List.append_nil]

theorem text_delta {before : String} (h : Keeps events { role, content := content ++ [.text before] })
    (delta : String) :
    Keeps (events ++ [.assistantTextDelta delta])
      { role, content := content ++ [.text (before ++ delta)] } where
  text := by
    rw [textOf_append, ← h.text]
    simp [assistantText, ContentBlock.asText, LlmStreamEvent.asText,
      String.append_assoc]
  reasoning := by
    rw [reasoningOf_append, ← h.reasoning]
    simp [reasoningText, List.filterMap_cons, ContentBlock.asReasoning, LlmStreamEvent.asReasoning]
  calls := by
    rw [callsOf_append, ← h.calls]
    simp [toolUses, List.filterMap_cons, ContentBlock.asToolUse, LlmStreamEvent.asToolUse]

theorem reasoning_delta {before : String}
    (h : Keeps events { role, content := content ++ [.reasoning before] }) (delta : String) :
    Keeps (events ++ [.reasoningDelta delta])
      { role, content := content ++ [.reasoning (before ++ delta)] } where
  text := by
    rw [textOf_append, ← h.text]
    simp [assistantText, List.filterMap_cons, ContentBlock.asText, LlmStreamEvent.asText]
  reasoning := by
    rw [reasoningOf_append, ← h.reasoning]
    simp [reasoningText, ContentBlock.asReasoning, LlmStreamEvent.asReasoning,
      String.append_assoc]
  calls := by
    rw [callsOf_append, ← h.calls]
    simp [toolUses, List.filterMap_cons, ContentBlock.asToolUse, LlmStreamEvent.asToolUse]

theorem tool_use_delta (h : Keeps events { role, content }) (toolUseId : ToolUseId) (name : String)
    (input : JsonObject) :
    Keeps (events ++ [.toolUseDelta toolUseId name input])
      { role, content := content ++ [.toolUse toolUseId name input] } where
  text := by
    rw [textOf_append, ← h.text]
    simp [assistantText, List.filterMap_cons, ContentBlock.asText, LlmStreamEvent.asText]
  reasoning := by
    rw [reasoningOf_append, ← h.reasoning]
    simp [reasoningText, List.filterMap_cons, ContentBlock.asReasoning, LlmStreamEvent.asReasoning]
  calls := by
    rw [callsOf_append, ← h.calls]
    simp [toolUses, ContentBlock.asToolUse, LlmStreamEvent.asToolUse]

/-- The message itself tells nothing. -/
theorem complete {message : Message} (h : Keeps events message) (whole : Message)
    (usage : UsageSnapshot) (stopReason : Option String) :
    Keeps (events ++ [.assistantMessageComplete whole usage stopReason]) message where
  text := by simp [h.text, LlmStreamEvent.asText]
  reasoning := by simp [h.reasoning, LlmStreamEvent.asReasoning]
  calls := by simp [h.calls, LlmStreamEvent.asToolUse]

end Keeps

/-- A message that is completed repeats what is yielded in front of it. -/
def Finishes (emitted : List LlmStreamEvent) : Prop :=
  ∀ deltas message usage stopReason,
    emitted = deltas ++ [.assistantMessageComplete message usage stopReason] → Keeps deltas message

theorem finishes_nil : Finishes [] := by
  intro deltas message usage stopReason heq
  simp at heq

theorem Finishes.append {emitted : List LlmStreamEvent} {yielded : Option LlmStreamEvent}
    (h : Finishes emitted)
    (hyielded : ∀ message usage stopReason,
      yielded = some (.assistantMessageComplete message usage stopReason) → Keeps emitted message) :
    Finishes (emitted ++ yielded.toList) := by
  cases yielded with
  | none =>
    rw [Option.toList_none, List.append_nil]
    exact h
  | some event =>
    intro deltas message usage stopReason heq
    obtain ⟨rfl, hevent⟩ := List.append_inj' heq rfl
    rw [Option.toList_some, List.singleton_inj] at hevent
    exact hyielded message usage stopReason (congrArg some hevent)

/-! ## The OpenAI wire -/

namespace OpenAi

/-- The decoder holds what it has told. -/
structure Tells (d : OpenAiDecoder) (emitted : List LlmStreamEvent) : Prop where
  text : d.text = textOf emitted
  reasoning : d.reasoning = reasoningOf emitted
  tools : d.tools = (callsOf emitted).map toBlock

section Tells

variable {jsonParse : String → Option Json} {d d' : OpenAiDecoder} {emitted : List LlmStreamEvent}
  {yielded : Option LlmStreamEvent}

theorem blocks_silent (calls : List ToolUseBlock) :
    (calls.map toBlock).filterMap ContentBlock.asText = [] ∧
      (calls.map toBlock).filterMap ContentBlock.asReasoning = [] := by
  constructor <;> rw [List.filterMap_map] <;> exact List.filterMap_eq_nil_iff.mpr fun _ _ => rfl

/-- **`#complete`** repeats what is told. -/
theorem keeps_complete (h : Tells d emitted) {response : Response} {message : Message}
    {usage : UsageSnapshot} {stopReason : Option String}
    (hcomplete : d.complete response = .assistantMessageComplete message usage stopReason) :
    Keeps emitted message := by
  obtain ⟨htext, hreasoning⟩ := blocks_silent (callsOf emitted)
  cases hcomplete
  have hblocks := toolUses_blocks (callsOf emitted)
  refine ⟨?_, ?_, ?_⟩
  · rw [← h.text, assistantText, h.tools, List.filterMap_append, List.filterMap_append, htext]
    by_cases hr : d.reasoning = "" <;> by_cases ht : d.text = "" <;>
      simp [hr, ht, List.filterMap_cons, ContentBlock.asText]
  · rw [← h.reasoning, reasoningText, h.tools, List.filterMap_append, List.filterMap_append,
      hreasoning]
    by_cases hr : d.reasoning = "" <;> by_cases ht : d.text = "" <;>
      simp [hr, ht, List.filterMap_cons, ContentBlock.asReasoning]
  · rw [toolUses, h.tools, List.filterMap_append, List.filterMap_append, hblocks]
    by_cases hr : d.reasoning = "" <;> by_cases ht : d.text = "" <;>
      simp [hr, ht, List.filterMap_cons, ContentBlock.asToolUse]

/-- An event that is not told. -/
theorem Tells.quiet (h : Tells d emitted) (htext : d'.text = d.text)
    (hreasoning : d'.reasoning = d.reasoning) (htools : d'.tools = d.tools) :
    Tells d' (emitted ++ (none : Option LlmStreamEvent).toList) := by
  rw [Option.toList_none, List.append_nil]
  exact ⟨htext.trans h.text, hreasoning.trans h.reasoning, htools.trans h.tools⟩

/-- An event that is told. -/
theorem Tells.told (h : Tells d emitted) {event : LlmStreamEvent}
    (htext : d'.text = d.text ++ event.asText.getD "")
    (hreasoning : d'.reasoning = d.reasoning ++ event.asReasoning.getD "")
    (htools : d'.tools = d.tools ++ event.asToolUse.toList.map toBlock) :
    Tells d' (emitted ++ (some event).toList) where
  text := by rw [Option.toList_some, textOf_append, textOf_singleton, htext, h.text]
  reasoning := by
    rw [Option.toList_some, reasoningOf_append, reasoningOf_singleton, hreasoning, h.reasoning]
  tools := by
    rw [Option.toList_some, callsOf_append, callsOf_singleton, List.map_append, htools, h.tools]

/-- **One event.** -/
theorem tells_handle {event : ResponseStreamEvent} (h : Tells d emitted)
    (hhandle : OpenAiDecoder.handle jsonParse d event = .ok (d', yielded)) :
    Tells d' (emitted ++ yielded.toList) ∧
      ∀ message usage stopReason,
        yielded = some (.assistantMessageComplete message usage stopReason) →
          Keeps emitted message := by
  cases event with
  | outputTextDelta delta =>
    cases hhandle
    exact ⟨h.told rfl String.append_empty.symm (List.append_nil _).symm,
      fun _ _ _ heq => by cases heq⟩
  | reasoningSummaryTextDelta delta =>
    cases hhandle
    exact ⟨h.told String.append_empty.symm rfl (List.append_nil _).symm,
      fun _ _ _ heq => by cases heq⟩
  | outputItemAdded item =>
    cases item <;> cases hhandle <;> exact ⟨h.quiet rfl rfl rfl, fun _ _ _ heq => by cases heq⟩
  | functionCallArgumentsDelta | other =>
    cases hhandle
    exact ⟨h.quiet rfl rfl rfl, fun _ _ _ heq => by cases heq⟩
  | functionCallArgumentsDone itemId =>
    simp only [OpenAiDecoder.handle] at hhandle
    split at hhandle
    · cases hhandle
      exact ⟨h.quiet rfl rfl rfl, fun _ _ _ heq => by cases heq⟩
    · split at hhandle
      · cases hhandle
      · cases hhandle
        exact ⟨h.told String.append_empty.symm String.append_empty.symm rfl,
          fun _ _ _ heq => by cases heq⟩
  | completed response | incomplete response =>
    cases hhandle
    exact ⟨h.told String.append_empty.symm String.append_empty.symm (List.append_nil _).symm,
      fun message usage stopReason heq => keeps_complete h (Option.some_inj.mp heq)⟩
  | failed | error => cases hhandle

/-- **Every stream.** -/
theorem finishes_decode {requestId : Option String} {chunks : List ResponseStreamEvent}
    (h : decode (OpenAiDecoder.handle jsonParse) (.new requestId) chunks = .ok (d, emitted)) :
    Finishes emitted := by
  refine (decode_relation (R := fun d _ emitted => Tells d emitted ∧ Finishes emitted) ?_
    ⟨⟨rfl, rfl, rfl⟩, finishes_nil⟩ h).2
  rintro d past emitted chunk d' yielded ⟨htells, hfinishes⟩ hhandle
  obtain ⟨hnext, hcomplete⟩ := tells_handle htells hhandle
  exact ⟨hnext, hfinishes.append hcomplete⟩

end Tells

end OpenAi

/-! ## The Anthropic wire -/

namespace Anthropic

/-- A delta that belongs into a block of this type. -/
def ContentBlockDelta.fits (type : String) : ContentBlockDelta → Bool
  | .textDelta _ => type == "text"
  | .thinkingDelta _ => type == "thinking"
  | _ => true

/-- The block that is open after an event, by its index and its type, unless the event is out of
order. -/
def nextBlock : Option (Nat × String) → RawMessageStreamEvent → Option (Option (Nat × String))
  | none, .contentBlockStart index type _ _ => some (some (index, type))
  | some block, .contentBlockDelta index delta =>
    if block.1 = index ∧ delta.fits block.2 = true then some (some block) else none
  | some block, .contentBlockStop index => if block.1 = index then some none else none
  | none, .messageStop => some none
  | block, .messageStart _ => some block
  | block, .messageDelta _ _ => some block
  | block, .other => some block
  | _, _ => none

/-- A block is closed before the next one starts, and before the message stops; its deltas are of
its type. -/
def InSequence (chunks : List RawMessageStreamEvent) : Prop :=
  (chunks.foldlM nextBlock none).isSome = true

/-- What a block leaves of the deltas that have been told. -/
def unclosed (accum : BlockAccum) : List ContentBlock :=
  if accum.blockType = "text" then [.text accum.text]
  else if accum.blockType = "thinking" then [.reasoning accum.text]
  else []

/-- The decoder holds what it has told, in its content and in the open block. -/
inductive Tells (d : AnthropicDecoder) (emitted : List LlmStreamEvent) :
    Option (Nat × String) → Prop
  | between (h : Keeps emitted { role := .assistant, content := d.content }) : Tells d emitted none
  | within (index : Nat) (accum : BlockAccum) (hblock : d.blocks index = some accum)
      (h : Keeps emitted { role := .assistant, content := d.content ++ unclosed accum }) :
      Tells d emitted (some (index, accum.blockType))

section Tells

variable {jsonParse : String → Option Json} {d d' : AnthropicDecoder}
  {emitted : List LlmStreamEvent} {yielded : Option LlmStreamEvent}
  {current current' : Option (Nat × String)}

/-- An event that is not told. -/
theorem Tells.quiet (h : Tells d emitted current) (hcontent : d'.content = d.content)
    (hblocks : d'.blocks = d.blocks) :
    Tells d' (emitted ++ (none : Option LlmStreamEvent).toList) current := by
  rw [Option.toList_none, List.append_nil]
  cases h with
  | between h => exact .between (hcontent ▸ h)
  | within index accum hblock h => exact .within index accum (hblocks ▸ hblock) (hcontent ▸ h)

/-- A block is opened. -/
theorem tells_start {index : Nat} {type id name : String}
    (h : Keeps emitted { role := .assistant, content := d.content }) :
    Tells { d with
        blocks := Function.update d.blocks index
          (some { blockType := type, id := id, name := name, text := "", inputJson := "" }) }
      emitted (some (index, type)) := by
  let accum : BlockAccum := { blockType := type, id, name, text := "", inputJson := "" }
  have hblock : Function.update d.blocks index (some accum) index = some accum :=
    Function.update_self ..
  refine .within index accum hblock ?_
  unfold unclosed
  split
  · exact h.empty_block rfl rfl rfl
  · split
    · exact h.empty_block rfl rfl rfl
    · rw [List.append_nil]
      exact h

/-- A delta is added to the open block. -/
theorem tells_delta {index : Nat} {accum : BlockAccum} {delta : ContentBlockDelta}
    (hblock : d.blocks index = some accum) (hfits : delta.fits accum.blockType = true)
    (h : Keeps emitted { role := .assistant, content := d.content ++ unclosed accum })
    (hhandle : AnthropicDecoder.handle jsonParse d (.contentBlockDelta index delta) =
      .ok (d', yielded)) :
    Tells d' (emitted ++ yielded.toList) (some (index, accum.blockType)) := by
  have hadded : (Function.update d.blocks index ((d.blocks index).map fun accum =>
      accum.add delta)) index = some (accum.add delta) := by
    rw [Function.update_self, hblock]
    rfl
  cases delta with
  | textDelta text =>
    have htype : accum.blockType = "text" := by simpa [ContentBlockDelta.fits] using hfits
    cases hhandle
    refine .within index (accum.add (.textDelta text)) hadded ?_
    rw [unclosed, if_pos htype] at h
    rw [unclosed, BlockAccum.add, if_pos htype]
    exact h.text_delta text
  | thinkingDelta thinking =>
    have htype : accum.blockType = "thinking" := by simpa [ContentBlockDelta.fits] using hfits
    have hother : ¬ accum.blockType = "text" := by
      rw [htype]
      decide
    cases hhandle
    refine .within index (accum.add (.thinkingDelta thinking)) hadded ?_
    rw [unclosed, if_neg hother, if_pos htype] at h
    rw [unclosed, BlockAccum.add, if_neg hother, if_pos htype]
    exact h.reasoning_delta thinking
  | inputJsonDelta partialJson =>
    cases hhandle
    rw [Option.toList_none, List.append_nil]
    exact .within index (accum.add (.inputJsonDelta partialJson)) hadded h
  | other =>
    cases hhandle
    rw [Option.toList_none, List.append_nil]
    exact .within index accum hblock h

/-- The open block is closed. -/
theorem tells_close {accum : BlockAccum}
    (h : Keeps emitted { role := .assistant, content := d.content ++ unclosed accum })
    (hclose : AnthropicDecoder.closeBlock jsonParse d accum = .ok (d', yielded)) :
    Tells d' (emitted ++ yielded.toList) none := by
  unfold AnthropicDecoder.closeBlock at hclose
  by_cases htext : accum.blockType = "text"
  · rw [if_pos htext] at hclose
    cases hclose
    rw [unclosed, if_pos htext] at h
    rw [Option.toList_none, List.append_nil]
    exact .between h
  rw [if_neg htext] at hclose
  rw [unclosed, if_neg htext] at h
  by_cases hthinking : accum.blockType = "thinking"
  · rw [if_pos hthinking] at hclose h
    cases hclose
    rw [Option.toList_none, List.append_nil]
    exact .between h
  rw [if_neg hthinking] at hclose h
  rw [List.append_nil] at h
  by_cases htool : accum.blockType = "tool_use"
  · rw [if_pos htool] at hclose
    split at hclose
    · cases hclose
    · cases hclose
      -- a call is told when its block closes
      exact .between (h.tool_use_delta ..)
  · rw [if_neg htool] at hclose
    cases hclose
    rw [Option.toList_none, List.append_nil]
    exact .between h

theorem toolUse_of_closeBlock {accum : BlockAccum} {event : LlmStreamEvent}
    (hclose : AnthropicDecoder.closeBlock jsonParse d accum = .ok (d', some event)) :
    ∃ toolUseId name input, event = .toolUseDelta toolUseId name input := by
  unfold AnthropicDecoder.closeBlock at hclose
  split at hclose
  · cases hclose
  · split at hclose
    · cases hclose
    · split at hclose
      · split at hclose
        · cases hclose
        · cases hclose
          exact ⟨_, _, _, rfl⟩
      · cases hclose

/-- **One event in sequence.** -/
theorem tells_handle {event : RawMessageStreamEvent} (h : Tells d emitted current)
    (hnext : nextBlock current event = some current')
    (hhandle : AnthropicDecoder.handle jsonParse d event = .ok (d', yielded)) :
    Tells d' (emitted ++ yielded.toList) current' ∧
      ∀ message usage stopReason,
        yielded = some (.assistantMessageComplete message usage stopReason) →
          Keeps emitted message := by
  cases event with
  | messageStart usage | messageDelta stopReason usage | other =>
    cases hhandle
    have hsame : current' = current := by cases current <;> cases hnext <;> rfl
    subst hsame
    exact ⟨h.quiet rfl rfl, fun _ _ _ heq => by cases heq⟩
  | contentBlockStart index type id name =>
    cases h with
    | within => cases hnext
    | between h =>
      cases hnext
      cases hhandle
      rw [Option.toList_none, List.append_nil]
      exact ⟨tells_start h, fun _ _ _ heq => by cases heq⟩
  | contentBlockDelta index delta =>
    cases h with
    | between => cases hnext
    | within index' accum hblock h =>
      simp only [nextBlock] at hnext
      split at hnext
      · next hfits =>
        cases hnext
        obtain ⟨rfl, hfits⟩ := hfits
        refine ⟨tells_delta hblock hfits h hhandle, fun _ _ _ heq => ?_⟩
        subst heq
        cases delta <;> cases hhandle
      · cases hnext
  | contentBlockStop index =>
    cases h with
    | between => cases hnext
    | within index' accum hblock h =>
      simp only [nextBlock] at hnext
      split at hnext
      · next hindex =>
        cases hnext
        subst hindex
        simp only [AnthropicDecoder.handle, hblock] at hhandle
        refine ⟨tells_close (d := { d with blocks := Function.update d.blocks _ none }) h hhandle,
          fun _ _ _ heq => ?_⟩
        subst heq
        obtain ⟨toolUseId, name, input, hevent⟩ := toolUse_of_closeBlock hhandle
        cases hevent
      · cases hnext
  | messageStop =>
    cases h with
    | within => cases hnext
    | between h =>
      cases hnext
      cases hhandle
      refine ⟨.between (h.complete ..), fun _ _ _ heq => ?_⟩
      cases heq
      exact h

theorem foldlM_concat {past : List RawMessageStreamEvent} {chunk : RawMessageStreamEvent}
    (h : (past ++ [chunk]).foldlM nextBlock none = some current') :
    ∃ current, past.foldlM nextBlock none = some current ∧
      nextBlock current chunk = some current' := by
  rw [List.foldlM_append] at h
  obtain ⟨current, hpast, hchunk⟩ := Option.bind_eq_some_iff.mp h
  refine ⟨current, hpast, ?_⟩
  simpa using hchunk

theorem InSequence.of_append {chunks more : List RawMessageStreamEvent}
    (h : InSequence (chunks ++ more)) : InSequence chunks := by
  unfold InSequence at h ⊢
  rw [List.foldlM_append] at h
  cases hchunks : chunks.foldlM nextBlock none with
  | none =>
    rw [hchunks] at h
    cases h
  | some current => rfl

/-- **A stream in sequence.** -/
theorem finishes_decode {requestId : Option String} {chunks : List RawMessageStreamEvent}
    (hsequence : InSequence chunks)
    (h : decode (AnthropicDecoder.handle jsonParse) (.new requestId) chunks = .ok (d, emitted)) :
    Finishes emitted := by
  obtain ⟨current, hcurrent⟩ := Option.isSome_iff_exists.mp hsequence
  refine (decode_relation (R := fun d past emitted => ∀ current,
    past.foldlM nextBlock none = some current → Tells d emitted current ∧ Finishes emitted) ?_
    ?_ h current hcurrent).2
  · intro d past emitted chunk d' yielded hpast hhandle current' hcurrent'
    obtain ⟨current, hcurrent, hnext⟩ := foldlM_concat hcurrent'
    obtain ⟨htells, hfinishes⟩ := hpast current hcurrent
    obtain ⟨htold, hcomplete⟩ := tells_handle htells hnext hhandle
    exact ⟨htold, hfinishes.append hcomplete⟩
  · intro current hcurrent
    cases hcurrent
    exact ⟨.between ⟨rfl, rfl, rfl⟩, finishes_nil⟩

end Tells

end Anthropic

/-! ## Both wires -/

/-- The chunks of a stream come in the order that its decoder relies on. -/
def Provider.InSequence (jsonParse : String → Option Json) :
    (provider : Provider) → List (provider.wire jsonParse).Chunk → Prop
  | .anthropicApi, chunks => Anthropic.InSequence chunks
  | .claudeCodingPlan, chunks => Anthropic.InSequence chunks
  | .openaiApi, _ => True
  | .codexCodingPlan, _ => True

theorem Provider.InSequence.of_append {jsonParse : String → Option Json} {provider : Provider}
    {chunks more : List (provider.wire jsonParse).Chunk}
    (h : provider.InSequence jsonParse (chunks ++ more)) :
    provider.InSequence jsonParse chunks := by
  cases provider with
  | anthropicApi | claudeCodingPlan => exact Anthropic.InSequence.of_append h
  | openaiApi | codexCodingPlan => trivial

/-- **A completed message repeats what has been yielded in front of it.** -/
theorem keeps_of_decode {jsonParse : String → Option Json} {provider : Provider}
    {requestId : Option String} {chunks : List (provider.wire jsonParse).Chunk}
    {d : (provider.wire jsonParse).Decoder} {emitted : List LlmStreamEvent}
    (hsequence : provider.InSequence jsonParse chunks)
    (h : decode (provider.wire jsonParse).handle ((provider.wire jsonParse).decoder requestId)
      chunks = .ok (d, emitted)) : Finishes emitted := by
  cases provider with
  | anthropicApi | claudeCodingPlan => exact Anthropic.finishes_decode hsequence h
  | openaiApi | codexCodingPlan => exact OpenAi.finishes_decode h

end LlmClient

end EphemeralAgent
