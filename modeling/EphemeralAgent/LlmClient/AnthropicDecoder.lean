import EphemeralAgent.LlmClient.Decode

/-!
# What the Anthropic decoder assembles

A content block is a session of the stream, under its index.

* `contentBlock` — the reference: a block by itself, from what was sent for it
* `Mirrors` — the decoder holds the table of the open blocks
* `anthropic_decoder` — **the message has one content block for each block, in stop order**
-/

namespace EphemeralAgent.LlmClient.Anthropic

open Lib

/-! ## The reference -/

/-- The `content_block` of a `content_block_start`. -/
structure BlockStart where
  type : String
  id : String
  name : String

/-- The block that an event opens, feeds or closes. -/
def sessionEvent : RawMessageStreamEvent → SessionEvent Nat BlockStart ContentBlockDelta
  | .contentBlockStart index type id name =>
    .opens index { type, id := id.getD "", name := name.getD "" }
  | .contentBlockDelta index delta => .feeds index delta
  | .contentBlockStop index => .closes index
  | _ => .other

namespace ContentBlockDelta

def asText : ContentBlockDelta → Option String
  | .textDelta text => some text
  | .thinkingDelta thinking => some thinking
  | _ => none

def asJson : ContentBlockDelta → Option String
  | .inputJsonDelta partialJson => some partialJson
  | _ => none

end ContentBlockDelta

/-- The content block of a block: its deltas, concatenated, and its arguments parsed once. -/
def contentBlock (jsonParse : String → Option Json) (block : BlockStart)
    (sent : List ContentBlockDelta) : Option ContentBlock :=
  let text := String.join (sent.filterMap ContentBlockDelta.asText)
  if block.type = "text" then some (.text text)
  else if block.type = "thinking" then some (.reasoning text)
  else if block.type = "tool_use" then
    let input := parseToolArgs jsonParse (String.join (sent.filterMap ContentBlockDelta.asJson))
    some (.toolUse block.id block.name input)
  else none

namespace RawMessageStreamEvent

def usage : RawMessageStreamEvent → Option PartialUsage
  | .messageStart usage => some usage
  | .messageDelta _ usage => some usage
  | _ => none

/-- The stop reason that an event reports, unless it is empty. -/
def reportedStop : RawMessageStreamEvent → Option String
  | .messageDelta stopReason _ => stopReason.filter (· ≠ "")
  | _ => none

/-- The text of a `text_delta`. -/
def textDelta : RawMessageStreamEvent → Option String
  | .contentBlockDelta _ (.textDelta text) => some text
  | _ => none

end RawMessageStreamEvent

/-- The last number that was reported for a usage field. -/
def lastUsage (field : PartialUsage → Option Nat) (events : List RawMessageStreamEvent) :
    Option Nat :=
  lastReport (fun event => event.usage.bind field) events

/-- No start uses an open index, every block is stopped, and every tool use has an id. -/
structure WellFormed (events : List RawMessageStreamEvent) : Prop where
  noReuse : NoReuse (events.map sessionEvent)
  stopped : ∀ block ∈ sessions (events.map sessionEvent), 0 < block.left
  identified : ∀ index id name, .contentBlockStart index "tool_use" id name ∈ events →
    id.getD "" ≠ ""

/-! ## The decoder holds the table -/

/-- What the decoder keeps of an open block. -/
def accumOf (block : BlockStart × List ContentBlockDelta) : BlockAccum :=
  { blockType := block.1.type
    id := block.1.id
    name := block.1.name
    text := String.join (block.2.filterMap ContentBlockDelta.asText)
    inputJson := String.join (block.2.filterMap ContentBlockDelta.asJson) }

/-- The open blocks of the decoder are those of the table, and every tool use has an id. -/
structure Mirrors (d : AnthropicDecoder) (t : Table Nat BlockStart ContentBlockDelta) : Prop where
  blocks : t.Kept accumOf d.blocks
  identified : t.Headed fun block => block.type = "tool_use" → block.id ≠ ""

/-- The content of what closes. -/
def closedContent (jsonParse : String → Option Json)
    (blocks : List (BlockStart × List ContentBlockDelta)) : List ContentBlock :=
  blocks.filterMap fun block => contentBlock jsonParse block.1 block.2

/-- The usage after these events. -/
def usageAfter (usage : UsageSnapshot) (events : List RawMessageStreamEvent) : UsageSnapshot :=
  { inputTokens := (lastUsage (·.inputTokens) events).getD usage.inputTokens
    outputTokens := (lastUsage (·.outputTokens) events).getD usage.outputTokens
    cacheReadInputTokens :=
      (lastUsage (·.cacheReadInputTokens) events).or usage.cacheReadInputTokens
    cacheCreationInputTokens :=
      (lastUsage (·.cacheCreationInputTokens) events).or usage.cacheCreationInputTokens }

section Handle

variable {jsonParse : String → Option Json} {d : AnthropicDecoder}
  {t : Table Nat BlockStart ContentBlockDelta}

theorem usageAfter_cons (usage : UsageSnapshot) (event : RawMessageStreamEvent)
    (rest : List RawMessageStreamEvent) :
    usageAfter usage (event :: rest) = usageAfter (usageAfter usage [event]) rest := by
  have hgetD : ∀ field n, (lastUsage field (event :: rest)).getD n =
      (lastUsage field rest).getD ((lastUsage field [event]).getD n) := by
    intro field n
    unfold lastUsage
    rw [lastReport_cons, lastReport_cons]
    cases lastReport (fun event => event.usage.bind field) rest <;> rfl
  have hor : ∀ field n, (lastUsage field (event :: rest)).or n =
      (lastUsage field rest).or ((lastUsage field [event]).or n) := by
    intro field n
    unfold lastUsage
    rw [lastReport_cons, lastReport_cons]
    cases lastReport (fun event => event.usage.bind field) rest <;> rfl
  unfold usageAfter
  rw [hgetD, hgetD, hor, hor]

/-- `#mergeUsage` keeps the last number of each field. -/
theorem mergeUsage_usage (d : AnthropicDecoder) {event : RawMessageStreamEvent}
    {usage : PartialUsage} (h : event.usage = some usage) :
    (d.mergeUsage usage).usage = usageAfter d.usage [event] := by
  simp only [usageAfter, lastUsage, lastReport, List.filterMap_cons, List.filterMap_nil, h,
    Option.bind_some, AnthropicDecoder.mergeUsage]
  cases usage.inputTokens <;> cases usage.outputTokens <;> cases usage.cacheReadInputTokens <;>
    cases usage.cacheCreationInputTokens <;> rfl

theorem usageAfter_silent (usage : UsageSnapshot) {event : RawMessageStreamEvent}
    (h : event.usage = none) : usageAfter usage [event] = usage := by
  simp [usageAfter, lastUsage, lastReport, h]

/-! ## One event -/

/-- What the decoder assembles over these events, in which these blocks are closed. -/
structure Assembles (jsonParse : String → Option Json) (d d' : AnthropicDecoder)
    (events : List RawMessageStreamEvent) (closed : List (BlockStart × List ContentBlockDelta))
    (emitted : List LlmStreamEvent) : Prop where
  content : d'.content = d.content ++ closedContent jsonParse closed
  calls : emitted.filterMap LlmStreamEvent.asToolUse =
    (closedContent jsonParse closed).filterMap ContentBlock.asToolUse
  texts : emitted.filterMap LlmStreamEvent.asText =
    events.filterMap RawMessageStreamEvent.textDelta
  usage : d'.usage = usageAfter d.usage events
  stopReason : d'.stopReason =
    (lastReport RawMessageStreamEvent.reportedStop events).or d.stopReason

theorem Assembles.nil (d : AnthropicDecoder) : Assembles jsonParse d d [] [] [] where
  content := (List.append_nil _).symm
  calls := rfl
  texts := rfl
  usage := rfl
  stopReason := rfl

theorem Assembles.cons {d' d'' : AnthropicDecoder} {event : RawMessageStreamEvent}
    {rest : List RawMessageStreamEvent} {closed later : List (BlockStart × List ContentBlockDelta)}
    {yielded emitted : List LlmStreamEvent} (h : Assembles jsonParse d d' [event] closed yielded)
    (hrest : Assembles jsonParse d' d'' rest later emitted) :
    Assembles jsonParse d d'' (event :: rest) (closed ++ later) (yielded ++ emitted) where
  content := by
    rw [hrest.content, h.content, List.append_assoc, closedContent, closedContent, closedContent,
      List.filterMap_append]
  calls := by
    rw [List.filterMap_append, h.calls, hrest.calls, closedContent, closedContent, closedContent,
      List.filterMap_append, List.filterMap_append]
  texts := by
    rw [List.filterMap_append, h.texts, hrest.texts, ← List.filterMap_append]
    rfl
  usage := by rw [hrest.usage, h.usage, ← usageAfter_cons]
  stopReason := by
    rw [hrest.stopReason, h.stopReason, lastReport_cons, lastReport_cons]
    cases lastReport RawMessageStreamEvent.reportedStop rest <;> rfl

theorem filterMap_toList {α β : Type*} (x : Option α) (f : α → Option β) :
    x.toList.filterMap f = (x.bind f).toList := by
  cases x with
  | none => rfl
  | some a =>
    rw [Option.toList_some, List.filterMap_cons, Option.bind_some]
    cases f a <;> rfl

/-- An event that closes no block and reports nothing. -/
theorem assembles_quiet {event : RawMessageStreamEvent} {d' : AnthropicDecoder}
    {yielded : Option LlmStreamEvent} (hcontent : d'.content = d.content)
    (husage : d'.usage = d.usage) (hstop : d'.stopReason = d.stopReason)
    (hevent : event.usage = none ∧ event.reportedStop = none)
    (hcalls : yielded.bind LlmStreamEvent.asToolUse = none)
    (htexts : yielded.bind LlmStreamEvent.asText = event.textDelta) :
    Assembles jsonParse d d' [event] [] yielded.toList where
  content := by
    rw [hcontent]
    exact (List.append_nil _).symm
  calls := by
    rw [filterMap_toList, hcalls]
    rfl
  texts := by
    rw [filterMap_toList, htexts]
    exact (filterMap_toList (some event) RawMessageStreamEvent.textDelta).symm
  usage := husage.trans (usageAfter_silent d.usage hevent.1).symm
  stopReason := by
    rw [hstop, lastReport, List.filterMap_cons, hevent.2]
    rfl

/-- One more delta is appended to what is kept. -/
def BlockAccum.add (accum : BlockAccum) : ContentBlockDelta → BlockAccum
  | .textDelta text => { accum with text := accum.text ++ text }
  | .thinkingDelta thinking => { accum with text := accum.text ++ thinking }
  | .inputJsonDelta partialJson => { accum with inputJson := accum.inputJson ++ partialJson }
  | .other => accum

theorem accumOf_concat (block : BlockStart × List ContentBlockDelta) (delta : ContentBlockDelta) :
    accumOf (block.1, block.2 ++ [delta]) = (accumOf block).add delta := by
  unfold accumOf
  rw [List.filterMap_append, List.filterMap_append, String.join_append, String.join_append]
  cases delta <;>
    simp [BlockAccum.add, ContentBlockDelta.asText, ContentBlockDelta.asJson, List.filterMap_cons]

/-- The event that the close of a block yields. -/
def toolUseDelta : ContentBlock → Option LlmStreamEvent
  | .toolUse toolUseId name input => some (.toolUseDelta toolUseId name input)
  | _ => none

theorem toolUseDelta_asToolUse (content : ContentBlock) :
    (toolUseDelta content).bind LlmStreamEvent.asToolUse = content.asToolUse ∧
      (toolUseDelta content).bind LlmStreamEvent.asText = none := by
  cases content <;> exact ⟨rfl, rfl⟩

/-- **`content_block_stop`** of an open block. -/
theorem closeBlock_eq (d : AnthropicDecoder) {block : BlockStart × List ContentBlockDelta}
    (hid : block.1.type = "tool_use" → block.1.id ≠ "") :
    AnthropicDecoder.closeBlock jsonParse d (accumOf block) =
      .ok ({ d with content := d.content ++ (contentBlock jsonParse block.1 block.2).toList },
        (contentBlock jsonParse block.1 block.2).bind toolUseDelta) := by
  by_cases htext : block.1.type = "text"
  · simp [AnthropicDecoder.closeBlock, contentBlock, accumOf, toolUseDelta, htext]
  by_cases hthinking : block.1.type = "thinking"
  · simp [AnthropicDecoder.closeBlock, contentBlock, accumOf, toolUseDelta, hthinking]
  by_cases htool : block.1.type = "tool_use"
  · have hnamed := hid htool
    simp [AnthropicDecoder.closeBlock, contentBlock, accumOf, toolUseDelta, htool, hnamed]
  -- a block of an unknown type leaves nothing
  · simp [AnthropicDecoder.closeBlock, contentBlock, accumOf, htext, hthinking, htool]

/-- **One event.** -/
theorem handle_assembles {event : RawMessageStreamEvent} (h : Mirrors d t)
    (hid : ∀ index id name, event = .contentBlockStart index "tool_use" id name →
      id.getD "" ≠ "") :
    ∃ d' yielded, AnthropicDecoder.handle jsonParse d event = .ok (d', yielded) ∧
      Mirrors d' (t.next (sessionEvent event)) ∧
      Assembles jsonParse d d' [event] (t.closed (sessionEvent event)).toList yielded.toList := by
  -- a session opened by this event has the id that the hypothesis grants it
  have hidentified : (t.next (sessionEvent event)).Headed fun block =>
      block.type = "tool_use" → block.id ≠ "" := by
    refine h.identified.next fun key block hopens htype => ?_
    unfold sessionEvent at hopens
    split at hopens <;> cases hopens
    subst htype
    exact hid _ _ _ rfl
  cases event with
  | messageStart usage =>
    refine ⟨_, _, rfl, ⟨h.blocks, hidentified⟩, (List.append_nil _).symm, rfl, rfl, ?_, rfl⟩
    exact mergeUsage_usage d rfl
  | contentBlockStart index type id name =>
    exact ⟨_, _, rfl, ⟨h.blocks.opens index ⟨type, id.getD "", name.getD ""⟩, hidentified⟩,
      assembles_quiet rfl rfl rfl ⟨rfl, rfl⟩ rfl rfl⟩
  | contentBlockDelta index delta =>
    have hfed : (t.next (.feeds index delta)).Kept accumOf
        (Function.update d.blocks index ((d.blocks index).map fun accum => accum.add delta)) :=
      h.blocks.feeds index fun block => accumOf_concat block delta
    cases delta with
    | other =>
      -- a delta of another type adds nothing to its block
      have hsame : Function.update d.blocks index ((d.blocks index).map id) = d.blocks := by
        rw [Option.map_id, id, Function.update_eq_self]
      refine ⟨d, none, rfl, ⟨?_, hidentified⟩, assembles_quiet rfl rfl rfl ⟨rfl, rfl⟩ rfl rfl⟩
      rw [← hsame]
      exact hfed
    | _ => exact ⟨_, _, rfl, ⟨hfed, hidentified⟩, assembles_quiet rfl rfl rfl ⟨rfl, rfl⟩ rfl rfl⟩
  | contentBlockStop index =>
    have hclosed := h.blocks.closes index
    cases hblock : t index with
    | none =>
      -- a stop without a block changes nothing
      have hnone : d.blocks index = none := by rw [h.blocks, hblock]; rfl
      have hsame : Function.update d.blocks index none = d.blocks := by
        rw [← hnone, Function.update_eq_self]
      refine ⟨d, none, by simp only [AnthropicDecoder.handle, hnone], ?_, ?_⟩
      · rw [hsame] at hclosed
        exact ⟨hclosed, hidentified⟩
      · show Assembles jsonParse d d _ (t index).toList _
        rw [hblock]
        exact assembles_quiet rfl rfl rfl ⟨rfl, rfl⟩ rfl rfl
    | some block =>
      have hopen : d.blocks index = some (accumOf block) := by rw [h.blocks, hblock]; rfl
      have hhandle : AnthropicDecoder.handle jsonParse d (.contentBlockStop index) =
          AnthropicDecoder.closeBlock jsonParse
            { d with blocks := Function.update d.blocks index none } (accumOf block) := by
        simp only [AnthropicDecoder.handle, hopen]
      refine ⟨_, _, hhandle.trans (closeBlock_eq _ (h.identified index block hblock)),
        ⟨hclosed, hidentified⟩, ?_⟩
      show Assembles jsonParse d _ _ (t index).toList _
      rw [hblock]
      have hclosed : closedContent jsonParse [block] =
          (contentBlock jsonParse block.1 block.2).toList :=
        filterMap_toList (some block) fun block => contentBlock jsonParse block.1 block.2
      refine ⟨?_, ?_, ?_, (usageAfter_silent d.usage rfl).symm, rfl⟩
      · rw [Option.toList_some, hclosed]
      · rw [Option.toList_some, hclosed, filterMap_toList, filterMap_toList]
        cases contentBlock jsonParse block.1 block.2 with
        | none => rfl
        | some content => exact congrArg Option.toList (toolUseDelta_asToolUse content).1
      · rw [filterMap_toList]
        cases contentBlock jsonParse block.1 block.2 with
        | none => rfl
        | some content => exact congrArg Option.toList (toolUseDelta_asToolUse content).2
  | messageDelta stopReason usage =>
    refine ⟨_, _, rfl, ⟨h.blocks, hidentified⟩, (List.append_nil _).symm, rfl, rfl, ?_, ?_⟩
    · exact mergeUsage_usage _ rfl
    · show (stopReason.filter (· ≠ "")).or d.stopReason = _
      rw [lastReport_cons]
      rfl
  | messageStop =>
    exact ⟨_, _, rfl, ⟨h.blocks, hidentified⟩, assembles_quiet rfl rfl rfl ⟨rfl, rfl⟩ rfl rfl⟩
  | other => exact ⟨d, none, rfl, h, assembles_quiet rfl rfl rfl ⟨rfl, rfl⟩ rfl rfl⟩

/-! ## A whole stream -/

/-- **Every event**, from the table that the decoder holds. -/
theorem decode_assembles (jsonParse : String → Option Json) {events : List RawMessageStreamEvent}
    (h : Mirrors d t)
    (hid : ∀ index id name, .contentBlockStart index "tool_use" id name ∈ events →
      id.getD "" ≠ "") :
    ∃ d' emitted, decode (AnthropicDecoder.handle jsonParse) d events = .ok (d', emitted) ∧
      Assembles jsonParse d d' events (closings t (events.map sessionEvent)) emitted := by
  induction events generalizing d t with
  | nil => exact ⟨d, [], rfl, Assembles.nil d⟩
  | cons event rest ih =>
    obtain ⟨d', yielded, hhandle, hmirrors, hfirst⟩ := handle_assembles h
      fun index id name heq => hid index id name (heq ▸ List.mem_cons_self)
    obtain ⟨d'', emitted, hdecode, hrest⟩ := ih hmirrors
      fun index id name hmem => hid index id name (List.mem_cons_of_mem _ hmem)
    exact ⟨d'', _, decode_cons hhandle hdecode, hfirst.cons hrest⟩

theorem mirrors_new (requestId : Option String) :
    Mirrors (AnthropicDecoder.new requestId) fun _ => none :=
  ⟨fun _ => rfl, nofun⟩

end Handle

/-- **The Anthropic decoder is correct**: for every stream of blocks that are opened, fed and
stopped in any interleaving, the message that completes it has one content block for each text,
thinking and tool use block, in stop order, each as its own deltas give it; the calls are yielded
in that order, the text deltas as they arrive, and the usage and the stop reason are the last ones
reported. -/
theorem anthropic_decoder (jsonParse : String → Option Json) (requestId : Option String)
    {events : List RawMessageStreamEvent} (h : WellFormed events) :
    ∃ (d : AnthropicDecoder) (emitted : List LlmStreamEvent)
      (ordered : List (Session BlockStart ContentBlockDelta)) (message : Message)
      (usage : UsageSnapshot) (stopReason : Option String),
      decode (AnthropicDecoder.handle jsonParse) (.new requestId) (events ++ [.messageStop]) =
        .ok (d, emitted ++ [.assistantMessageComplete message usage stopReason]) ∧
      InCloseOrder (sessions (events.map sessionEvent)) ordered ∧
      message.role = .assistant ∧
      message.content = ordered.filterMap (fun block =>
        contentBlock jsonParse block.header block.fed) ∧
      emitted.filterMap LlmStreamEvent.asToolUse = toolUses message ∧
      emitted.filterMap LlmStreamEvent.asText =
        events.filterMap RawMessageStreamEvent.textDelta ∧
      usage =
        { inputTokens := (lastUsage (·.inputTokens) events).getD 0
          outputTokens := (lastUsage (·.outputTokens) events).getD 0
          cacheReadInputTokens := lastUsage (·.cacheReadInputTokens) events
          cacheCreationInputTokens := lastUsage (·.cacheCreationInputTokens) events } ∧
      stopReason = lastReport RawMessageStreamEvent.reportedStop events := by
  obtain ⟨ordered, horder, hclosings⟩ := closings_sessions h.noReuse
  rw [List.filter_eq_self.mpr fun block hblock => decide_eq_true (h.stopped block hblock)] at horder
  obtain ⟨d, emitted, hdecode, hassembles⟩ :=
    decode_assembles jsonParse (mirrors_new requestId) h.identified
  have hcontent : d.content =
      ordered.filterMap fun block => contentBlock jsonParse block.header block.fed := by
    rw [hassembles.content, hclosings, closedContent, List.filterMap_map]
    rfl
  refine ⟨_, emitted, ordered, _, _, _, decode_concat hdecode rfl, horder, rfl, hcontent, ?_,
    hassembles.texts, ?_, ?_⟩
  · rw [hassembles.calls]
    show _ = d.content.filterMap ContentBlock.asToolUse
    rw [hassembles.content]
    rfl
  · rw [hassembles.usage]
    simp [usageAfter, AnthropicDecoder.new]
  · rw [hassembles.stopReason]
    simp [AnthropicDecoder.new]

/-- Two blocks that interleave, and a third one that uses the index of the first to stop. -/
def sampleEvents : List RawMessageStreamEvent :=
  [.contentBlockStart 0 "text" none none, .contentBlockStart 1 "tool_use" (some "a") (some "read"),
    .contentBlockDelta 1 (.inputJsonDelta "["), .contentBlockDelta 0 (.textDelta "on"), .other,
    .contentBlockDelta 1 (.inputJsonDelta "]"), .contentBlockStop 1,
    .contentBlockStart 1 "thinking" none none, .contentBlockDelta 0 (.textDelta "e"),
    .contentBlockStop 0, .contentBlockStop 1]

theorem anthropic_decoder_interleaved :
    ∃ (d : AnthropicDecoder) (emitted : List LlmStreamEvent) (message : Message)
      (usage : UsageSnapshot) (stopReason : Option String),
      decode (AnthropicDecoder.handle fun _ => none) (.new none) (sampleEvents ++ [.messageStop]) =
        .ok (d, emitted ++ [.assistantMessageComplete message usage stopReason]) ∧
      emitted.filterMap LlmStreamEvent.asText = ["on", "e"] ∧
      emitted.filterMap LlmStreamEvent.asToolUse = toolUses message := by
  have h : WellFormed sampleEvents := by
    refine ⟨?_, ?_, ?_⟩
    · simp [sampleEvents, sessionEvent, NoReuse, Unopened, untilClose, SessionEvent.isClose,
        SessionEvent.isOpen]
    · decide
    · intro index id name hmem
      simp only [sampleEvents, List.mem_cons, RawMessageStreamEvent.contentBlockStart.injEq,
        reduceCtorEq, List.not_mem_nil, or_false, false_or] at hmem
      simp_all
  obtain ⟨d, emitted, ordered, message, usage, stopReason, hdecode, -, -, -, hcalls, htexts, -⟩ :=
    anthropic_decoder (fun _ => none) none h
  exact ⟨d, emitted, message, usage, stopReason, hdecode, htexts, hcalls⟩

end EphemeralAgent.LlmClient.Anthropic
