import EphemeralAgent.LlmClient.Decode

/-!
# What the OpenAI decoder assembles

A function call item is a session of the stream, under its id.

* `functionCall` — the reference: a call by itself, from its own argument deltas
* `Mirrors` — the decoder holds the table of the open items
* `openai_decoder` — **reasoning, text, and one call for each item that is done, in that order**
-/

namespace EphemeralAgent.LlmClient.OpenAi

open Lib

/-! ## The reference -/

/-- A function call item, as it is added. -/
structure CallItem where
  callId : String
  name : String

/-- The item that an event adds, feeds or closes. -/
def sessionEvent : ResponseStreamEvent → SessionEvent String CallItem String
  | .outputItemAdded (.functionCall id callId name) => .opens (id.getD "") { callId, name }
  | .functionCallArgumentsDelta itemId delta => .feeds itemId delta
  | .functionCallArgumentsDone itemId => .closes itemId
  | _ => .other

/-- The call of an item: its argument deltas, concatenated and parsed once. -/
def functionCall (jsonParse : String → Option Json) (item : CallItem) (deltas : List String) :
    ToolUseBlock :=
  { toolUseId := item.callId
    name := item.name
    input := parseToolArgs jsonParse (String.join deltas) }

namespace ResponseStreamEvent

def textDelta : ResponseStreamEvent → Option String
  | .outputTextDelta delta => some delta
  | _ => none

def reasoningDelta : ResponseStreamEvent → Option String
  | .reasoningSummaryTextDelta delta => some delta
  | _ => none

def isFailure : ResponseStreamEvent → Bool
  | .failed _ => true
  | .error _ => true
  | _ => false

end ResponseStreamEvent

/-- No failure, distinct items, and every item has a call id. -/
structure WellFormed (events : List ResponseStreamEvent) : Prop where
  unfailed : ∀ event ∈ events, event.isFailure = false
  distinct : (events.filterMap fun event => (sessionEvent event).openKey).Nodup
  identified : ∀ id callId name, .outputItemAdded (.functionCall id callId name) ∈ events →
    callId ≠ ""

/-- The status and the reason are among those that the type of a `Response` declares. -/
structure Response.Declared (response : Response) : Prop where
  status : ∀ status ∈ response.status,
    status ∈ ["completed", "failed", "in_progress", "cancelled", "queued", "incomplete"]
  reason : ∀ reason ∈ response.incompleteReason, reason ∈ ["max_output_tokens", "content_filter"]

/-! ## The decoder holds the table -/

/-- What the decoder keeps of an open item. -/
def accumOf (item : CallItem × List String) : CallAccum :=
  { callId := item.1.callId, name := item.1.name, args := String.join item.2 }

/-- The open items of the decoder are those of the table, and every one has a call id. -/
structure Mirrors (d : OpenAiDecoder) (t : Table String CallItem String) : Prop where
  items : t.Kept accumOf d.items
  identified : t.Headed fun item => item.callId ≠ ""

/-- The content block of a call. -/
def toBlock (call : ToolUseBlock) : ContentBlock :=
  .toolUse call.toolUseId call.name call.input

/-- What the decoder assembles over these events, in which these items are closed. -/
structure Assembles (jsonParse : String → Option Json) (d d' : OpenAiDecoder)
    (events : List ResponseStreamEvent) (closed : List (CallItem × List String))
    (emitted : List LlmStreamEvent) : Prop where
  tools : d'.tools = d.tools ++ closed.map fun item => toBlock (functionCall jsonParse item.1 item.2)
  calls : emitted.filterMap LlmStreamEvent.asToolUse =
    closed.map fun item => functionCall jsonParse item.1 item.2
  text : d'.text = d.text ++ String.join (events.filterMap ResponseStreamEvent.textDelta)
  reasoning : d'.reasoning =
    d.reasoning ++ String.join (events.filterMap ResponseStreamEvent.reasoningDelta)

section Handle

variable {jsonParse : String → Option Json} {d : OpenAiDecoder} {t : Table String CallItem String}

theorem Assembles.nil (d : OpenAiDecoder) : Assembles jsonParse d d [] [] [] where
  tools := (List.append_nil _).symm
  calls := rfl
  text := (String.append_empty).symm
  reasoning := (String.append_empty).symm

theorem Assembles.cons {d' d'' : OpenAiDecoder} {event : ResponseStreamEvent}
    {rest : List ResponseStreamEvent} {closed later : List (CallItem × List String)}
    {yielded emitted : List LlmStreamEvent} (h : Assembles jsonParse d d' [event] closed yielded)
    (hrest : Assembles jsonParse d' d'' rest later emitted) :
    Assembles jsonParse d d'' (event :: rest) (closed ++ later) (yielded ++ emitted) where
  tools := by rw [hrest.tools, h.tools, List.append_assoc, List.map_append]
  calls := by rw [List.filterMap_append, h.calls, hrest.calls, List.map_append]
  text := by
    rw [hrest.text, h.text, String.append_assoc, ← String.join_append, ← List.filterMap_append]
    rfl
  reasoning := by
    rw [hrest.reasoning, h.reasoning, String.append_assoc, ← String.join_append,
      ← List.filterMap_append]
    rfl

/-- An event that closes no item. -/
theorem assembles_quiet {event : ResponseStreamEvent} {d' : OpenAiDecoder}
    {yielded : Option LlmStreamEvent} (htools : d'.tools = d.tools)
    (htext : d'.text = d.text ++ event.textDelta.getD "")
    (hreasoning : d'.reasoning = d.reasoning ++ event.reasoningDelta.getD "")
    (hcalls : yielded.bind LlmStreamEvent.asToolUse = none) :
    Assembles jsonParse d d' [event] [] yielded.toList where
  tools := by
    rw [htools]
    exact (List.append_nil _).symm
  calls := by
    cases yielded with
    | none => rfl
    | some shown => exact List.filterMap_cons_none hcalls
  text := by
    rw [htext, List.filterMap_cons]
    cases event.textDelta <;> simp
  reasoning := by
    rw [hreasoning, List.filterMap_cons]
    cases event.reasoningDelta <;> simp

theorem accumOf_concat (item : CallItem × List String) (delta : String) :
    accumOf (item.1, item.2 ++ [delta]) =
      { accumOf item with args := (accumOf item).args ++ delta } := by
  simp [accumOf]

/-- **One event.** -/
theorem handle_assembles {event : ResponseStreamEvent} (h : Mirrors d t)
    (hfailure : event.isFailure = false)
    (hid : ∀ id callId name, event = .outputItemAdded (.functionCall id callId name) →
      callId ≠ "") :
    ∃ d' yielded, OpenAiDecoder.handle jsonParse d event = .ok (d', yielded) ∧
      Mirrors d' (t.next (sessionEvent event)) ∧
      Assembles jsonParse d d' [event] (t.closed (sessionEvent event)).toList yielded.toList := by
  have hidentified : (t.next (sessionEvent event)).Headed fun item => item.callId ≠ "" := by
    refine h.identified.next fun key item hopens => ?_
    unfold sessionEvent at hopens
    split at hopens <;> cases hopens
    exact hid _ _ _ rfl
  cases event with
  | outputTextDelta delta =>
    exact ⟨_, _, rfl, ⟨h.items, hidentified⟩,
      assembles_quiet rfl rfl String.append_empty.symm rfl⟩
  | reasoningSummaryTextDelta delta =>
    exact ⟨_, _, rfl, ⟨h.items, hidentified⟩,
      assembles_quiet rfl String.append_empty.symm rfl rfl⟩
  | outputItemAdded item =>
    cases item with
    | functionCall id callId name =>
      exact ⟨_, _, rfl, ⟨h.items.opens (id.getD "") ⟨callId, name⟩, hidentified⟩,
        assembles_quiet rfl String.append_empty.symm String.append_empty.symm rfl⟩
    | other =>
      exact ⟨d, none, rfl, h,
        assembles_quiet rfl String.append_empty.symm String.append_empty.symm rfl⟩
  | functionCallArgumentsDelta itemId delta =>
    exact ⟨_, _, rfl, ⟨h.items.feeds itemId fun item => accumOf_concat item delta, hidentified⟩,
      assembles_quiet rfl String.append_empty.symm String.append_empty.symm rfl⟩
  | functionCallArgumentsDone itemId =>
    have hclosed := h.items.closes itemId
    cases hitem : t itemId with
    | none =>
      -- a done event without an item changes nothing
      have hnone : d.items itemId = none := by rw [h.items, hitem]; rfl
      have hsame : Function.update d.items itemId none = d.items := by
        rw [← hnone, Function.update_eq_self]
      rw [hsame] at hclosed
      refine ⟨d, none, by simp only [OpenAiDecoder.handle, hnone], ⟨hclosed, hidentified⟩, ?_⟩
      show Assembles jsonParse d d _ (t itemId).toList _
      rw [hitem]
      exact assembles_quiet rfl String.append_empty.symm String.append_empty.symm rfl
    | some item =>
      have hopen : d.items itemId = some (accumOf item) := by rw [h.items, hitem]; rfl
      have hnamed : (accumOf item).callId ≠ "" := h.identified itemId item hitem
      let call := functionCall jsonParse item.1 item.2
      have hhandle : OpenAiDecoder.handle jsonParse d (.functionCallArgumentsDone itemId) =
          .ok ({ d with
              items := Function.update d.items itemId none
              tools := d.tools ++ [toBlock call] },
            some (.toolUseDelta call.toolUseId call.name call.input)) := by
        simp only [OpenAiDecoder.handle, hopen, if_neg hnamed]
        rfl
      refine ⟨_, _, hhandle, ⟨hclosed, hidentified⟩, ?_⟩
      show Assembles jsonParse d _ _ (t itemId).toList _
      rw [hitem]
      exact ⟨rfl, rfl, String.append_empty.symm, String.append_empty.symm⟩
  | completed response | incomplete response =>
    exact ⟨_, _, rfl, ⟨h.items, hidentified⟩,
      assembles_quiet rfl String.append_empty.symm String.append_empty.symm rfl⟩
  | failed | error => cases hfailure
  | other =>
    exact ⟨d, none, rfl, h,
      assembles_quiet rfl String.append_empty.symm String.append_empty.symm rfl⟩

/-! ## A whole stream -/

/-- **Every event**, from the table that the decoder holds. -/
theorem decode_assembles (jsonParse : String → Option Json) {events : List ResponseStreamEvent}
    (h : Mirrors d t) (hfailure : ∀ event ∈ events, event.isFailure = false)
    (hid : ∀ id callId name, .outputItemAdded (.functionCall id callId name) ∈ events →
      callId ≠ "") :
    ∃ d' emitted, decode (OpenAiDecoder.handle jsonParse) d events = .ok (d', emitted) ∧
      Assembles jsonParse d d' events (closings t (events.map sessionEvent)) emitted := by
  induction events generalizing d t with
  | nil => exact ⟨d, [], rfl, Assembles.nil d⟩
  | cons event rest ih =>
    obtain ⟨d', yielded, hhandle, hmirrors, hfirst⟩ :=
      handle_assembles h (hfailure event List.mem_cons_self)
        fun id callId name heq => hid id callId name (heq ▸ List.mem_cons_self)
    obtain ⟨d'', emitted, hdecode, hrest⟩ := ih hmirrors
      (fun event hmem => hfailure event (List.mem_cons_of_mem _ hmem))
      fun id callId name hmem => hid id callId name (List.mem_cons_of_mem _ hmem)
    exact ⟨d'', _, decode_cons hhandle hdecode, hfirst.cons hrest⟩

theorem mirrors_new (requestId : Option String) :
    Mirrors (OpenAiDecoder.new requestId) fun _ => none :=
  ⟨fun _ => rfl, nofun⟩

theorem toolUses_blocks (calls : List ToolUseBlock) :
    (calls.map toBlock).filterMap ContentBlock.asToolUse = calls := by
  rw [List.filterMap_map]
  exact List.filterMap_some

end Handle

/-! ## The terminus -/

namespace Response

/-- The input tokens that are reported, the cached ones among them. -/
def reportedInput (response : Response) : Nat :=
  (response.usage.bind ReportedUsage.inputTokens).getD 0

def cachedInput (response : Response) : Option Nat :=
  response.usage.bind ReportedUsage.cachedTokens

/-- The response was cut by `max_output_tokens`. -/
def Truncated (response : Response) : Prop :=
  response.status = some "incomplete" ∧ response.incompleteReason = some "max_output_tokens"

end Response

/-- The stop reason of a response, after these many calls. -/
structure StopOf (response : Response) (calls : Nat) (stopReason : Option String) : Prop where
  toolUse : stopReason = some "tool_use" ↔ 0 < calls
  maxTokens : calls = 0 → (stopReason = some "max_tokens" ↔ response.Truncated)
  endTurn : calls = 0 → ¬ response.Truncated →
    (stopReason = some "end_turn" ↔ response.status = some "completed")

/-- **`#deriveStopReason`**: nothing that is passed through is one of the derived reasons. -/
theorem deriveStopReason_stopOf (d : OpenAiDecoder) {response : Response}
    (h : response.Declared) : StopOf response d.tools.length (d.deriveStopReason response) := by
  unfold OpenAiDecoder.deriveStopReason
  by_cases hcalls : d.tools.length > 0
  · rw [if_pos hcalls]
    refine ⟨iff_of_true rfl hcalls, fun hnone => ?_, fun hnone => ?_⟩ <;> omega
  rw [if_neg hcalls]
  by_cases hincomplete : response.status = some "incomplete"
  · rw [if_pos hincomplete]
    by_cases hreason : response.incompleteReason = some "max_output_tokens"
    · rw [if_pos hreason]
      have htruncated : response.Truncated := ⟨hincomplete, hreason⟩
      exact ⟨iff_of_false (by decide) hcalls, fun _ => iff_of_true rfl htruncated,
        fun _ hnot => absurd htruncated hnot⟩
    · rw [if_neg hreason]
      have hnot : ¬ response.Truncated := fun htruncated => hreason htruncated.2
      -- the other declared reason is passed on as it is
      have hpassed : response.incompleteReason.getD "incomplete" = "content_filter" ∨
          response.incompleteReason.getD "incomplete" = "incomplete" := by
        cases hr : response.incompleteReason with
        | none => exact Or.inr rfl
        | some reason =>
          have hmem := h.reason reason hr
          rw [hr] at hreason
          simp only [List.mem_cons, List.not_mem_nil, or_false] at hmem
          rcases hmem with rfl | rfl
          · exact absurd rfl hreason
          · exact Or.inl rfl
      have hcompleted : response.status ≠ some "completed" := by
        rw [hincomplete]
        decide
      rcases hpassed with hpassed | hpassed <;> rw [hpassed]
      all_goals exact ⟨iff_of_false (by decide) hcalls, fun _ => iff_of_false (by decide) hnot,
        fun _ _ => iff_of_false (by decide) hcompleted⟩
  · rw [if_neg hincomplete]
    have hnot : ¬ response.Truncated := fun htruncated => hincomplete htruncated.1
    by_cases hcompleted : response.status = some "completed"
    · rw [if_pos hcompleted]
      exact ⟨iff_of_false (by decide) hcalls, fun _ => iff_of_false (by decide) hnot,
        fun _ _ => iff_of_true rfl hcompleted⟩
    · rw [if_neg hcompleted]
      -- a declared status is none of the words that say more
      have hpassed : ∀ word ∈ ["tool_use", "max_tokens", "end_turn"],
          response.status ≠ some word := by
        intro word hword hstatus
        have hmem := h.status word hstatus
        simp only [List.mem_cons, List.not_mem_nil, or_false] at hword
        rcases hword with rfl | rfl | rfl <;> simp at hmem
      exact ⟨iff_of_false (hpassed _ (by simp)) hcalls,
        fun _ => iff_of_false (hpassed _ (by simp)) hnot,
        fun _ _ => iff_of_false (hpassed _ (by simp)) hcompleted⟩

/-- **The OpenAI decoder is correct**: for every stream of items that are added, fed and done in any
interleaving, the message that completes it has the reasoning, the text and one call for each item
that is done, in that order, each as the item's own argument deltas give it; the calls are yielded
in that order, and the cached tokens are counted apart, once. -/
theorem openai_decoder (jsonParse : String → Option Json) (requestId : Option String)
    {events : List ResponseStreamEvent} (h : WellFormed events) {response : Response}
    {terminal : ResponseStreamEvent}
    (hterminal : terminal = .completed response ∨ terminal = .incomplete response) :
    ∃ (d : OpenAiDecoder) (emitted : List LlmStreamEvent)
      (ordered : List (Session CallItem String)) (message : Message) (usage : UsageSnapshot)
      (stopReason : Option String),
      decode (OpenAiDecoder.handle jsonParse) (.new requestId) (events ++ [terminal]) =
        .ok (d, emitted ++ [.assistantMessageComplete message usage stopReason]) ∧
      InCloseOrder ((sessions (events.map sessionEvent)).filter fun item => 0 < item.left)
        ordered ∧
      message.role = .assistant ∧
      (let reasoning := String.join (events.filterMap ResponseStreamEvent.reasoningDelta)
       let text := String.join (events.filterMap ResponseStreamEvent.textDelta)
       message.content =
        (if reasoning = "" then [] else [.reasoning reasoning]) ++
          (if text = "" then [] else [.text text]) ++
          ordered.map fun item => toBlock (functionCall jsonParse item.header item.fed)) ∧
      emitted.filterMap LlmStreamEvent.asToolUse = toolUses message ∧
      toolUses message = ordered.map (fun item => functionCall jsonParse item.header item.fed) ∧
      usage.cacheReadInputTokens = response.cachedInput ∧
      ((usage.inputTokens : Int) =
        max 0 ((response.reportedInput : Int) - (response.cachedInput.getD 0 : Nat))) ∧
      (response.cachedInput.getD 0 ≤ response.reportedInput →
        usage.inputTokens + response.cachedInput.getD 0 = response.reportedInput) ∧
      (response.Declared → StopOf response ordered.length stopReason) := by
  -- distinct item ids: the sessions close in the order of their closing events
  have hreuse : NoReuse (events.map sessionEvent) := by
    refine noReuse_of_nodup ?_
    rw [List.filterMap_map]
    exact h.distinct
  obtain ⟨ordered, horder, hclosings⟩ := closings_sessions hreuse
  obtain ⟨d, emitted, hdecode, hassembles⟩ :=
    decode_assembles jsonParse (mirrors_new requestId) h.unfailed h.identified
  have htools : d.tools =
      ordered.map fun item => toBlock (functionCall jsonParse item.header item.fed) := by
    rw [hassembles.tools, hclosings, List.map_map]
    rfl
  have htext : d.text = String.join (events.filterMap ResponseStreamEvent.textDelta) :=
    hassembles.text.trans String.empty_append
  have hreasoning :
      d.reasoning = String.join (events.filterMap ResponseStreamEvent.reasoningDelta) :=
    hassembles.reasoning.trans String.empty_append
  have hcalls : emitted.filterMap LlmStreamEvent.asToolUse =
      ordered.map fun item => functionCall jsonParse item.header item.fed := by
    rw [hassembles.calls, hclosings, List.map_map]
    rfl
  have hhandle : OpenAiDecoder.handle jsonParse d terminal =
      .ok ({ d with completed := true }, some (d.complete response)) := by
    rcases hterminal with rfl | rfl <;> rfl
  -- the text and the reasoning in front of the tools carry no call
  have hmessage : ∀ first second : List ContentBlock,
      first.filterMap ContentBlock.asToolUse = [] → second.filterMap ContentBlock.asToolUse = [] →
      (first ++ second ++ d.tools).filterMap ContentBlock.asToolUse =
        ordered.map fun item => functionCall jsonParse item.header item.fed := by
    intro first second hfirst hsecond
    have hblocks : d.tools =
        (ordered.map fun item => functionCall jsonParse item.header item.fed).map toBlock := by
      rw [htools, List.map_map]
      rfl
    rw [List.filterMap_append, List.filterMap_append, hfirst, hsecond, hblocks, toolUses_blocks]
    rfl
  have huses := hmessage (if d.reasoning = "" then [] else [.reasoning d.reasoning])
    (if d.text = "" then [] else [.text d.text]) (by split <;> rfl) (by split <;> rfl)
  refine ⟨_, emitted, ordered, _, _, _, decode_concat hdecode hhandle, horder, rfl, ?_,
    hcalls.trans huses.symm, huses, rfl, ?_, ?_, ?_⟩
  · rw [← hreasoning, ← htext, ← htools]
  · show ((response.reportedInput - response.cachedInput.getD 0 : Nat) : Int) = _
    omega
  · intro hle
    exact Nat.sub_add_cancel hle
  · intro hdeclared
    have hstop := deriveStopReason_stopOf d hdeclared
    rw [htools, List.length_map] at hstop
    exact hstop

/-- Two items that interleave, and one that is never done. -/
def sampleEvents : List ResponseStreamEvent :=
  [.reasoningSummaryTextDelta "so", .outputItemAdded (.functionCall (some "i") "a" "read"),
    .outputItemAdded (.functionCall (some "j") "b" "write"),
    .functionCallArgumentsDelta "j" "[", .functionCallArgumentsDelta "i" "1", .other,
    .functionCallArgumentsDelta "j" "]", .functionCallArgumentsDone "j", .outputTextDelta "done",
    .outputItemAdded (.functionCall (some "k") "c" "read"), .functionCallArgumentsDone "i"]

/-- A response whose input tokens are cached in part. -/
def sampleResponse : Response :=
  { usage := some { inputTokens := some 10, outputTokens := none, cachedTokens := some 3 }
    status := some "completed"
    incompleteReason := none
    errorMessage := none }

theorem openai_decoder_interleaved :
    ∃ (d : OpenAiDecoder) (emitted : List LlmStreamEvent) (message : Message)
      (usage : UsageSnapshot) (stopReason : Option String),
      decode (OpenAiDecoder.handle fun _ => none) (.new none)
          (sampleEvents ++ [.completed sampleResponse]) =
        .ok (d, emitted ++ [.assistantMessageComplete message usage stopReason]) ∧
      (toolUses message).length = 2 ∧ usage.inputTokens + 3 = 10 ∧
      stopReason = some "tool_use" := by
  have h : WellFormed sampleEvents := by
    refine ⟨by decide, by decide, ?_⟩
    intro id callId name hmem
    simp only [sampleEvents, List.mem_cons, ResponseStreamEvent.outputItemAdded.injEq,
      OutputItem.functionCall.injEq, reduceCtorEq, List.not_mem_nil, or_false, false_or] at hmem
    rcases hmem with ⟨-, rfl, -⟩ | ⟨-, rfl, -⟩ | ⟨-, rfl, -⟩ <;> decide
  have hdeclared : sampleResponse.Declared := ⟨by decide, nofun⟩
  obtain ⟨d, emitted, ordered, message, usage, stopReason, hdecode, horder, -, -, -, huses, -, -,
    hinput, hstop⟩ := openai_decoder (fun _ => none) none h (Or.inl rfl)
  have hlength : ordered.length = 2 := horder.1.length_eq
  refine ⟨d, emitted, message, usage, stopReason, hdecode, ?_, hinput (by decide), ?_⟩
  · rw [huses, List.length_map, hlength]
  · exact (hstop hdeclared).toolUse.mpr (by omega)

end EphemeralAgent.LlmClient.OpenAi
