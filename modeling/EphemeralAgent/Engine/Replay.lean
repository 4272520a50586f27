import EphemeralAgent.Engine.EmptyBodies
import EphemeralAgent.LlmClient.OpenAiEncode

/-!
# What a model has said, sent back

The turns of a run are those that a decoder has completed.  Each of them is sent back with every
later request, on either wire.  `Json` has no infinite number and no `-0`, and what is printed of one
is not read back, so arguments are read back when their text has none.

* `Spells` — what a decoder has completed, by the arguments that it has parsed
* `Turn` — what it completes: calls with such inputs, and no results
* `Spoken` — the invariant: every assistant message of a run is a turn
* `openai_replay` — **each call goes back as it came, with its result right behind**
-/

namespace EphemeralAgent.Engine

open Lib LlmClient OpenAi

/-! ## Turns -/

/-- The arguments that the decoder parses at an event. -/
def parsedByAnthropic (d : Anthropic.AnthropicDecoder) :
    Anthropic.RawMessageStreamEvent → Option String
  | .contentBlockStop index =>
    ((d.blocks index).filter fun accum => accum.blockType = "tool_use").map (·.inputJson)
  | _ => none

def parsedByOpenAi (d : OpenAiDecoder) : ResponseStreamEvent → Option String
  | .functionCallArgumentsDone itemId => (d.items itemId).map (·.args)
  | _ => none

/-- The arguments that a decoder of the provider parses. -/
def parsedBy (jsonParse : String → Option Json) : (provider : Provider) →
    (provider.wire jsonParse).Decoder → (provider.wire jsonParse).Chunk → Option String
  | .anthropicApi | .claudeCodingPlan => parsedByAnthropic
  | .openaiApi | .codexCodingPlan => parsedByOpenAi

/-- A decoder has completed a stream of events with this message, and all arguments that it has
parsed on the way are such texts. -/
def Spells (P : String → Prop) (jsonParse : String → Option Json) (message : Message) : Prop :=
  ∃ (provider : Provider) (requestId : Option String)
    (chunks : List (provider.wire jsonParse).Chunk) (d : (provider.wire jsonParse).Decoder)
    (emitted : List LlmStreamEvent) (usage : UsageSnapshot) (stopReason : Option String),
    Parses (provider.wire jsonParse).handle (parsedBy jsonParse provider) P
        ((provider.wire jsonParse).decoder requestId) chunks ∧
      decode (provider.wire jsonParse).handle ((provider.wire jsonParse).decoder requestId) chunks =
        .ok (d, emitted) ∧
      .assistantMessageComplete message usage stopReason ∈ emitted

section Decoders

variable {P : String → Prop} {Q : JsonObject → Prop} {jsonParse : String → Option Json}

theorem parses_of_forall {D C E O : Type*} {handle : D → C → Except E (D × Option O)}
    {parsed : D → C → Option String} (hP : ∀ raw, P raw) (chunks : List C) :
    ∀ d, Parses handle parsed P d chunks := by
  induction chunks with
  | nil => exact fun _ => trivial
  | cons chunk rest ih => exact fun d => ⟨fun raw _ => hP raw, fun d' _ _ => ih d'⟩

theorem spells_of_decodable {message : Message} (h : Decodable jsonParse message) :
    Spells (fun _ => True) jsonParse message :=
  let ⟨provider, requestId, chunks, d, emitted, usage, stopReason, hdecode, hmem⟩ := h
  ⟨provider, requestId, chunks, d, emitted, usage, stopReason,
    parses_of_forall (fun _ => trivial) chunks _, hdecode, hmem⟩

/-- A turn has no results, and such are the inputs of its calls. -/
def SoundBlock (Q : JsonObject → Prop) : ContentBlock → Prop
  | .toolUse _ _ input => Q input
  | .toolResult .. => False
  | .text _ | .reasoning _ => True

/-- A message that a decoder may complete. -/
def Turn (Q : JsonObject → Prop) (message : Message) : Prop :=
  ∀ block ∈ message.content, SoundBlock Q block

/-- A completed message is a turn. -/
def Completes (Q : JsonObject → Prop) : LlmStreamEvent → Prop
  | .assistantMessageComplete message _ _ => Turn Q message
  | _ => True

theorem sound_append {content : List ContentBlock} {new : ContentBlock}
    (h : ∀ block ∈ content, SoundBlock Q block) (hnew : SoundBlock Q new) :
    ∀ block ∈ content ++ [new], SoundBlock Q block :=
  List.forall_mem_append.mpr ⟨h, List.forall_mem_singleton.mpr hnew⟩

/-- `#complete` puts the reasoning and the text in front of the calls. -/
theorem completes_complete {d : OpenAiDecoder} (hd : ∀ block ∈ d.tools, SoundBlock Q block)
    (response : Response) : Completes Q (d.complete response) := by
  intro block hblock
  rcases List.mem_append.mp hblock with hblock | htool
  · rcases List.mem_append.mp hblock with hreasoning | htext
    · split at hreasoning
      · cases hreasoning
      · rw [List.mem_singleton.mp hreasoning]
        trivial
    · split at htext
      · cases htext
      · rw [List.mem_singleton.mp htext]
        trivial
  · exact hd block htool

theorem turn_openAi (hargs : ∀ raw, P raw → Q (parseToolArgs jsonParse raw)) {d d' : OpenAiDecoder}
    {event : ResponseStreamEvent} {yielded : Option LlmStreamEvent}
    (hd : ∀ block ∈ d.tools, SoundBlock Q block) (hraw : ∀ raw ∈ parsedByOpenAi d event, P raw)
    (h : OpenAiDecoder.handle jsonParse d event = .ok (d', yielded)) :
    (∀ block ∈ d'.tools, SoundBlock Q block) ∧ ∀ item ∈ yielded, Completes Q item := by
  cases event with
  | outputTextDelta delta | reasoningSummaryTextDelta delta =>
    cases h
    refine ⟨hd, fun item hitem => ?_⟩
    cases hitem
    trivial
  | outputItemAdded item =>
    cases item <;> cases h <;> exact ⟨hd, nofun⟩
  | functionCallArgumentsDelta itemId delta =>
    cases h
    exact ⟨hd, nofun⟩
  | functionCallArgumentsDone itemId =>
    simp only [OpenAiDecoder.handle] at h
    split at h
    · cases h
      exact ⟨hd, nofun⟩
    · next item hitem =>
      have hparsed : P item.args := hraw _ (by rw [parsedByOpenAi, hitem]; rfl)
      split at h
      · cases h
      · cases h
        refine ⟨sound_append hd (hargs _ hparsed), fun item hitem => ?_⟩
        cases hitem
        trivial
  | completed response | incomplete response =>
    cases h
    refine ⟨hd, fun item hitem => ?_⟩
    cases hitem
    exact completes_complete hd response
  | failed response | error message => cases h
  | other =>
    cases h
    exact ⟨hd, nofun⟩

theorem turn_anthropic (hargs : ∀ raw, P raw → Q (parseToolArgs jsonParse raw))
    {d d' : Anthropic.AnthropicDecoder} {event : Anthropic.RawMessageStreamEvent}
    {yielded : Option LlmStreamEvent} (hd : ∀ block ∈ d.content, SoundBlock Q block)
    (hraw : ∀ raw ∈ parsedByAnthropic d event, P raw)
    (h : Anthropic.AnthropicDecoder.handle jsonParse d event = .ok (d', yielded)) :
    (∀ block ∈ d'.content, SoundBlock Q block) ∧ ∀ item ∈ yielded, Completes Q item := by
  cases event with
  | messageStart usage | contentBlockStart index type id name | messageDelta stopReason usage | other =>
    cases h
    exact ⟨hd, nofun⟩
  | contentBlockDelta index delta =>
    cases delta <;> cases h <;> refine ⟨hd, fun item hitem => ?_⟩ <;> cases hitem <;> trivial
  | contentBlockStop index =>
    simp only [Anthropic.AnthropicDecoder.handle] at h
    split at h
    · cases h
      exact ⟨hd, nofun⟩
    · next accum haccum =>
      unfold Anthropic.AnthropicDecoder.closeBlock at h
      split at h
      · cases h
        exact ⟨sound_append hd trivial, nofun⟩
      · split at h
        · cases h
          exact ⟨sound_append hd trivial, nofun⟩
        · split at h
          · next htype =>
            have hparsed : P accum.inputJson :=
              hraw _ (by simp [parsedByAnthropic, haccum, htype])
            split at h
            · cases h
            · cases h
              refine ⟨sound_append hd (hargs _ hparsed), fun item hitem => ?_⟩
              cases hitem
              trivial
          · cases h
            exact ⟨hd, nofun⟩
  | messageStop =>
    cases h
    refine ⟨hd, fun item hitem => ?_⟩
    cases hitem
    exact hd

/-- **What a decoder completes is a turn.** -/
theorem turn_of_spells (hargs : ∀ raw, P raw → Q (parseToolArgs jsonParse raw)) {message : Message}
    (h : Spells P jsonParse message) : Turn Q message := by
  obtain ⟨provider, requestId, chunks, d, emitted, usage, stopReason, hparses, hdecode, hmem⟩ := h
  cases provider with
  | anthropicApi | claudeCodingPlan =>
    exact decode_invariant_of_parses
      (I := fun d : Anthropic.AnthropicDecoder => ∀ block ∈ d.content, SoundBlock Q block)
      (Q := Completes Q) (turn_anthropic hargs) (fun _ hblock => absurd hblock List.not_mem_nil)
      hparses hdecode _ hmem
  | openaiApi | codexCodingPlan =>
    exact decode_invariant_of_parses
      (I := fun d : OpenAiDecoder => ∀ block ∈ d.tools, SoundBlock Q block) (Q := Completes Q)
      (turn_openAi hargs) (fun _ hblock => absurd hblock List.not_mem_nil) hparses hdecode _ hmem

end Decoders

/-! ## Every assistant message of a run -/

section Spoken

variable {T : Type} {cfg : LoopConfig} {s : AgentRun T} {P : Message → Prop}

/-- What an assistant has said is of this kind. -/
def SaidAll (P : Message → Prop) (messages : List Message) : Prop :=
  ∀ message ∈ messages, message.role = .assistant → P message

theorem SaidAll.append {messages more : List Message} (h : SaidAll P messages)
    (hmore : SaidAll P more) : SaidAll P (messages ++ more) := by
  intro message hmem
  rcases List.mem_append.mp hmem with hold | hnew
  · exact h message hold
  · exact hmore message hnew

theorem saidAll_users (messages : List UserMessage) : SaidAll P (messages.map (·.val)) := by
  intro message hmem hrole
  obtain ⟨user, -, rfl⟩ := List.mem_map.mp hmem
  rw [user.property] at hrole
  cases hrole

/-- Every assistant message is of this kind, the one under way included. -/
structure Spoken (P : Message → Prop) (s : AgentRun T) : Prop where
  conversation : SaidAll P s.conversation
  completing : ∀ text reasoning message usage,
    s.phase = .completing text reasoning message usage → P message.val

/-- Every request is of messages of this kind. -/
def Told (P : Message → Prop) (history : List (RunItem T)) : Prop :=
  ∀ messages, .requested messages ∈ history → SaidAll P messages

theorem Told.append {history items : List (RunItem T)} (h : Told P history) (hitems : Told P items) :
    Told P (history ++ items) := by
  intro messages hmem
  rcases List.mem_append.mp hmem with hold | hnew
  · exact h messages hold
  · exact hitems messages hnew

/-- Items that request nothing. -/
theorem told_of_none {items : List (RunItem T)} (h : ∀ messages, .requested messages ∉ items) :
    Told P items := fun messages hmem => absurd hmem (h messages)

theorem spoken_exit (h : SaidAll P s.conversation) (status : FinishStatus T) :
    Spoken P (s.exit status).1 ∧ Told P (s.exit status).2 :=
  ⟨⟨h, nofun⟩, told_of_none fun _ => not_requested_exit status⟩

theorem saidAll_drain (cfg : LoopConfig) (h : SaidAll P s.conversation) :
    SaidAll P (s.drain cfg).1.conversation := by
  obtain ⟨notes, heq, -⟩ := drain_conversation cfg s
  rw [heq]
  exact (h.append (saidAll_users _)).append (saidAll_users _)

theorem spoken_startTurn (h : SaidAll P s.conversation) :
    Spoken P (s.startTurn cfg).1 ∧ Told P (s.startTurn cfg).2 := by
  unfold AgentRun.startTurn
  split
  · exact spoken_exit h _
  · refine ⟨⟨h, nofun⟩, fun messages hmem => ?_⟩
    simp only [List.mem_cons, reduceCtorEq, RunItem.requested.injEq, List.not_mem_nil, or_false,
      false_or] at hmem
    rw [hmem]
    exact h

/-- What is drained at the head of the loop is the user's. -/
theorem spoken_head {next : AgentRun T × List (RunItem T)} (h : SaidAll P s.conversation)
    (hnext : Head cfg s next) : Spoken P next.1 ∧ Told P next.2 := by
  have hdrain : Told P (s.drain cfg).2 := told_of_none fun _ => not_requested_drain
  cases hnext with
  | cancelled => exact spoken_exit h _
  | completed message =>
    obtain ⟨hspoken, htold⟩ := spoken_exit (saidAll_drain cfg h)
      (.completed (.text (assistantText message.val)))
    exact ⟨hspoken, hdrain.append htold⟩
  | parked => exact ⟨⟨saidAll_drain cfg h, nofun⟩, hdrain⟩
  | turn =>
    obtain ⟨hspoken, htold⟩ := spoken_startTurn (saidAll_drain cfg h)
    exact ⟨hspoken, hdrain.append htold⟩

theorem spoken_commitTurn {message : AssistantMessage} {usage : UsageSnapshot}
    (h : SaidAll P s.conversation) (hmessage : P message.val) :
    Spoken P (s.commitTurn cfg message usage).1 ∧ Told P (s.commitTurn cfg message usage).2 := by
  have hsaid : SaidAll P (s.conversation ++ [message.val]) := by
    refine h.append fun other hother _ => ?_
    rw [List.mem_singleton.mp hother]
    exact hmessage
  refine ⟨?_, told_of_none fun _ => not_requested_commitTurn⟩
  unfold AgentRun.commitTurn
  dsimp only
  split
  · split
    · exact (spoken_exit (s := { (s.appendAssistant message).1 with
        turns := s.turns + 1, usage := addUsage s.usage usage }) hsaid _).1
    · exact ⟨hsaid, nofun⟩
  · exact ⟨hsaid, nofun⟩

theorem spoken_commitBatch {calls : List ToolUseBlock} {results : List ToolCallResult}
    {accepted : Option T} {instant : Nat} (h : SaidAll P s.conversation) :
    Spoken P (s.commitBatch cfg calls results accepted instant).1 ∧
      Told P (s.commitBatch cfg calls results accepted instant).2 := by
  let blocks := (normalizeBatch calls results instant).map (projectToolResult cfg.stringify)
  have hsaid : SaidAll P (s.appendToolResults blocks).1.conversation := by
    refine h.append fun other hother hrole => ?_
    rw [List.mem_singleton.mp hother] at hrole
    cases hrole
  have happended : Told P (s.appendToolResults blocks).2 := by
    refine told_of_none fun messages hmem => ?_
    cases List.mem_singleton.mp hmem
  have hexit := spoken_exit (P := P) hsaid
  unfold AgentRun.commitBatch
  dsimp only
  split
  · split
    · exact ⟨(hexit _).1, happended.append (hexit _).2⟩
    · exact ⟨(hexit _).1, happended.append (hexit _).2⟩
  · split
    · exact ⟨(hexit _).1, happended.append (hexit _).2⟩
    · obtain ⟨hspoken, htold⟩ := spoken_head hsaid (loopHead_head cfg _)
      exact ⟨hspoken, happended.append htold⟩

/-- A turn of this kind is completed. -/
def Completed (P : Message → Prop) (_ : AgentHistory T) : RunLabel T → Prop
  | .complete message _ _ => P message.val
  | _ => True

/-- **One block keeps it.** -/
theorem spoken_step (history : List (RunItem T)) {label : RunLabel T}
    {next : AgentRun T × List (RunItem T)} (h : Spoken P s)
    (hlabel : Completed P { state := s, history } label) (hstep : s.step cfg label = some next) :
    Spoken P next.1 ∧ Told P next.2 := by
  cases fired_of_step hstep with
  | textDelta delta hphase | reasoningDelta delta hphase =>
    exact ⟨⟨h.conversation, nofun⟩, told_of_none (by simp)⟩
  | toolUseDelta hphase => exact ⟨h, told_of_none (by simp)⟩
  | complete message usage stopReason hphase =>
    refine ⟨⟨h.conversation, fun text reasoning other count heq => ?_⟩, told_of_none (by simp)⟩
    cases heq
    exact hlabel
  | streamEnded | turnThrows =>
    exact ⟨(spoken_exit h.conversation _).1, told_of_none fun _ => not_requested_died⟩
  | turnReturns hphase =>
    exact spoken_commitTurn h.conversation (h.completing _ _ _ _ hphase)
  | batchThrows => exact spoken_exit h.conversation _
  | rested => exact spoken_head h.conversation (loopHead_head cfg _)
  | dispatched hcalls hphase => exact ⟨⟨h.conversation, nofun⟩, told_of_none (by simp)⟩
  | batchReturns => exact spoken_commitBatch h.conversation
  | @wakes since park hphase hresolved =>
    exact spoken_head (s := s.unhook park) h.conversation (loopHead_head cfg _)
  | _ =>
    obtain ⟨houtside, hitems⟩ := outside_step rfl hstep
    refine ⟨⟨?_, ?_⟩, told_of_none fun messages hmem => absurd (hitems _ hmem) nofun⟩
    · rw [houtside.conversation]
      exact h.conversation
    · rw [houtside.phase]
      exact h.completing

theorem spoken_of_run {messages : List UserMessage} {labels : List (RunLabel T)} {r : AgentHistory T}
    (run : Run (Recorded.step (AgentRun.step cfg)) (Completed P) (AgentRun.start cfg messages) labels r) :
    Spoken P r.state ∧ Told P r.history := by
  refine run.invariant (I := fun r => Spoken P r.state ∧ Told P r.history) ?_ ?_
  · obtain ⟨hspoken, htold⟩ := spoken_head (s := AgentRun.fresh (T := T) messages)
      (saidAll_users (P := P) messages) (loopHead_head cfg _)
    refine ⟨hspoken, Told.append (told_of_none fun request hmem => ?_) htold⟩
    obtain ⟨seed, -, heq⟩ := List.mem_map.mp hmem
    cases heq
  · intro r label r' hlabel hr hstep
    obtain ⟨state, items, hstate, rfl⟩ := Recorded.step_cases hstep
    obtain ⟨hspoken, htold⟩ := spoken_step r.history hr.1 hlabel hstate
    exact ⟨hspoken, hr.2.append htold⟩

end Spoken

/-! ## Sent back -/

section SentBack

variable {T : Type} {n : Json.NumberText} {reader : Json.NumeralReader n}
  {jsonParse : String → Option Json}

/-- The item of a result. -/
def outputItem (result : ToolResultBlock) : ResponseInputItem :=
  .functionCallOutput result.toolUseId result.content

/-- **What OpenAI is sent of a conversation.** -/
structure SentBack (reader : Json.NumeralReader n) (jsonParse : String → Option Json)
    (messages : List Message) (items : List ResponseInputItem) : Prop where
  /-- The texts of a turn, its calls, and right behind them a result for each call, in call order. -/
  exchanges : ∀ before message after, messages = before ++ message :: after → Asks message →
    ∃ (results : Message) (rest : List Message) (outputs : List ToolResultBlock),
      after = results :: rest ∧
      items = before.flatMap (encodeMessageItems n) ++
        (textItem message ++ (toolUses message).map (encodeCall n) ++ outputs.map outputItem) ++
        rest.flatMap (encodeMessageItems n) ∧
      outputs.map (·.toolUseId) = (toolUses message).map (·.toolUseId)
  /-- The arguments of a call are read as they were when the model made it, when `Json` has all
  numbers and characters in them. -/
  readBack : ∀ message ∈ messages, Spells reader.Holds jsonParse message →
    ∀ call ∈ toolUses message,
      parseToolArgs jsonParse (String.ofList (Json.stringify n (.obj call.input))) = call.input

theorem items_turn {Q : JsonObject → Prop} {message : Message} (h : Turn Q message) :
    encodeMessageItems n message = textItem message ++ (toolUses message).map (encodeCall n) := by
  rw [encodeMessageItems, filterMap_encodeBlock_turn]
  · rfl
  · rintro block hblock toolUseId text isError rfl
    exact h _ hblock

theorem items_answer {calls : List ToolUseBlock} {results : Message} (h : Answers calls results) :
    ∃ outputs : List ToolResultBlock, encodeMessageItems n results = outputs.map outputItem ∧
      outputs.map (·.toolUseId) = calls.map (·.toolUseId) := by
  obtain ⟨hrole, outputs, hcontent, hids⟩ := h
  obtain ⟨role, content⟩ := results
  simp only at hrole hcontent
  rw [hrole, hcontent]
  exact ⟨outputs, encodeMessageItems_results n outputs, hids⟩

theorem input_of_turn {Q : JsonObject → Prop} {message : Message} (h : Turn Q message)
    {call : ToolUseBlock} (hcall : call ∈ toolUses message) : Q call.input := by
  obtain ⟨block, hblock, heq⟩ := List.mem_filterMap.mp hcall
  cases block with
  | toolUse toolUseId name input =>
    cases heq
    exact h _ hblock
  | _ => cases heq

theorem sentBack
    (hparse : ∀ raw, reader.Holds raw → jsonParse raw = Json.parse reader.read raw.toList)
    {messages : List Message} (hanswered : Answered messages)
    (hturns : SaidAll (Turn fun _ => True) messages) :
    SentBack reader jsonParse messages (messages.flatMap (encodeMessageItems n)) where
  exchanges := by
    rintro before message after rfl hasks
    obtain ⟨results, rest, rfl, hanswers⟩ := hanswered.at hasks
    obtain ⟨outputs, hitems, hids⟩ := items_answer (n := n) hanswers
    have hturn : Turn (fun _ => True) message := hturns message (by simp) hasks.1
    refine ⟨results, rest, outputs, rfl, ?_, hids⟩
    rw [List.flatMap_append, List.flatMap_cons, List.flatMap_cons, items_turn hturn, hitems]
    simp only [List.append_assoc]
  readBack message _ hspells call hcall := by
    have hturn : Turn (fun input => Json.Legible n reader.read (.obj input)) message :=
      turn_of_spells (fun _ hraw => legible_parseToolArgs hraw hparse) hspells
    exact parseToolArgs_stringify (input_of_turn hturn hcall) hparse

/-- **What a model has said is what it is told that it has said.**  In every run whose turns a
decoder has completed, each request takes every call back to OpenAI as it came, with its result right
behind; and Anthropic would be sent the same texts, calls and results. -/
theorem openai_replay (reader : Json.NumeralReader n)
    (hparse : ∀ raw, reader.Holds raw → jsonParse raw = Json.parse reader.read raw.toList)
    {cfg : LoopConfig} {messages : List UserMessage} {labels : List (RunLabel T)}
    {r : AgentHistory T} (run : Run (Recorded.step (AgentRun.step cfg))
      (Completed (Decodable jsonParse)) (AgentRun.start cfg messages) labels r)
    (request : LlmRequest) (hrequest : .requested request.messages ∈ r.history)
    (options : OpenAi.WireOptions) (identity : LlmClient.WireOptions) :
    SentBack reader jsonParse request.messages (encodeOpenAiRequest n request options).input ∧
      Alike n (encodeOpenAiRequest n request options).input
        (Anthropic.encodeAnthropicRequest request identity).messages := by
  have hturns : Run (Recorded.step (AgentRun.step cfg)) (Completed (Turn fun _ => True))
      (AgentRun.start cfg messages) labels r := run.mono fun _ label hlabel => by
    cases label with
    | complete message usage stopReason =>
      exact turn_of_spells (fun _ _ => trivial) (spells_of_decodable hlabel)
    | _ => trivial
  have hanswered := (conversing_of_run run.free).2 _ hrequest
  exact ⟨sentBack hparse hanswered ((spoken_of_run hturns).2 _ hrequest),
    encoded_alike n request options identity⟩

/-- `JSON.parse`, where all numbers are quotients. -/
def quotientParse (raw : String) : Option Json :=
  Json.parse Json.quotientReader.read raw.toList

/-- A call whose arguments come in two parts. -/
def callEvents : List ResponseStreamEvent :=
  [.outputItemAdded (.functionCall (some "i") "a" "read"),
    .functionCallArgumentsDelta "i" "\x7b\"path\":", .functionCallArgumentsDelta "i" "\"b\"\x7d",
    .functionCallArgumentsDone "i",
    .completed { usage := none, status := none, incompleteReason := none, errorMessage := none }]

/-- The two parts together. -/
def callArguments : String :=
  String.ofList (Json.stringify Json.quotients (.obj [("path", .str "b")]))

theorem callArguments_eq : "" ++ "\x7b\"path\":" ++ "\"b\"\x7d" = callArguments := by decide

theorem legible_callInput :
    Json.Legible Json.quotients Json.quotientReader.read (.obj [("path", .str "b")]) :=
  ⟨by decide, rfl, trivial, trivial⟩

/-- What the decoder makes of these events. -/
theorem decode_callEvents (jsonParse : String → Option Json) :
    ∃ (d : OpenAiDecoder) (emitted : List LlmStreamEvent) (usage : UsageSnapshot)
      (stopReason : Option String),
      decode (OpenAiDecoder.handle jsonParse) (.new none) callEvents = .ok (d, emitted) ∧
        .assistantMessageComplete { role := .assistant, content := [.toolUse "a" "read"
          (parseToolArgs jsonParse ("" ++ "\x7b\"path\":" ++ "\"b\"\x7d"))] } usage stopReason ∈
            emitted :=
  ⟨_, _, _, _, rfl, List.mem_of_getElem? (i := 1) rfl⟩

def callBlock : ContentBlock :=
  .toolUse "a" "read" [("path", .str "b")]

def isCallTurn (message : Message) : Bool :=
  match message.role, message.content with
  | .assistant, [.toolUse "a" "read" [("path", .str "b")]] => true
  | _, _ => false

/-- The turns are such calls. -/
def isCallLabel : RunLabel Unit → Bool
  | .complete message _ _ => isCallTurn message.val
  | _ => true

def requestsCall : RunItem Unit → Bool
  | .requested [_, message, _] => isCallTurn message
  | _ => false

theorem spells_of_isCallTurn {message : Message} (h : isCallTurn message = true) :
    Spells Json.quotientReader.numerals.Holds quotientParse message := by
  have hparse : ∀ raw, Json.quotientReader.numerals.Holds raw →
      quotientParse raw = Json.parse Json.quotientReader.read raw.toList := fun _ _ => rfl
  have hinput : parseToolArgs quotientParse callArguments = [("path", .str "b")] :=
    parseToolArgs_stringify legible_callInput hparse
  have hholds : Json.quotientReader.numerals.Holds callArguments := fun _ => by
    show (Json.parse Json.quotientReader.read callArguments.toList).isSome = true
    rw [callArguments, String.toList_ofList, Json.parse_stringify legible_callInput]
    rfl
  obtain ⟨role, content⟩ := message
  unfold isCallTurn at h
  split at h
  · next hrole hcontent =>
    simp only at hrole hcontent
    rw [hrole, hcontent]
    obtain ⟨d, emitted, usage, stopReason, hdecode, hmem⟩ := decode_callEvents quotientParse
    rw [callArguments_eq, hinput] at hmem
    refine ⟨.openaiApi, none, callEvents, d, emitted, usage, stopReason, ?_, hdecode, hmem⟩
    refine ⟨nofun, fun d yielded hadded => ⟨nofun, fun d yielded hfirst => ⟨nofun,
      fun d yielded hlast => ⟨fun raw hraw => ?_, fun d yielded hdone => ⟨nofun,
        fun d yielded hcompleted => trivial⟩⟩⟩⟩⟩
    cases hadded
    cases hfirst
    cases hlast
    obtain rfl : callArguments = raw := callArguments_eq.symm.trans (Option.some.inj hraw)
    exact hholds
  · cases h

/-- Decoding does not turn on the texts that are parsed. -/
theorem decodable_of_spells {P : String → Prop} {message : Message} (h : Spells P jsonParse message) :
    Decodable jsonParse message :=
  let ⟨provider, requestId, chunks, d, emitted, usage, stopReason, _, hdecode, hmem⟩ := h
  ⟨provider, requestId, chunks, d, emitted, usage, stopReason, hdecode, hmem⟩

/-- A run that reads a file once. -/
def readsOnce : List (RunLabel Unit) :=
  [.complete ⟨{ role := .assistant, content := [callBlock] }, rfl⟩ ⟨1, 1, none, none⟩ none,
    .turnReturns, .boundaryReturns, .batchReturns [] none 7]

/-- Its second request, and the arguments that this takes back. -/
theorem openai_replay_call :
    ∃ (r : AgentHistory Unit) (request : LlmRequest),
      Run (Recorded.step (AgentRun.step (sampleConfig .text))) (Completed (Decodable quotientParse))
        (AgentRun.start (sampleConfig .text) [⟨userText "go", rfl⟩]) readsOnce r ∧
      .requested request.messages ∈ r.history ∧
      SentBack Json.quotientReader.numerals quotientParse request.messages
        (encodeOpenAiRequest Json.quotients request {}).input ∧
      Alike Json.quotients (encodeOpenAiRequest Json.quotients request {}).input
        (Anthropic.encodeAnthropicRequest request { systemPrefix := none }).messages ∧
      ∃ message ∈ request.messages, toolUses message = [⟨"a", "read", [("path", .str "b")]⟩] ∧
        ∀ call ∈ toolUses message, parseToolArgs quotientParse
          (String.ofList (Json.stringify Json.quotients (.obj call.input))) = call.input := by
  obtain ⟨r, run, htest⟩ := exists_run (Recorded.step (AgentRun.step (sampleConfig .text)))
    (fun _ label => isCallLabel label = true)
    (AgentRun.start (T := Unit) (sampleConfig .text) [⟨userText "go", rfl⟩]) readsOnce
    (fun r => r.history.any requestsCall) (by decide +kernel)
  have hdecoded : Run (Recorded.step (AgentRun.step (sampleConfig .text)))
      (Completed (Decodable quotientParse))
      (AgentRun.start (sampleConfig .text) [⟨userText "go", rfl⟩]) readsOnce r :=
    run.mono fun _ label hlabel => by
      cases label with
      | complete message usage stopReason => exact decodable_of_spells (spells_of_isCallTurn hlabel)
      | _ => trivial
  obtain ⟨item, hitem, hcall⟩ := List.any_eq_true.mp htest
  unfold requestsCall at hcall
  split at hcall
  · next first message last =>
    let request : LlmRequest :=
      { model := "", messages := [first, message, last], systemPrompt := none, maxTokens := 0
        tools := [], toolChoice := none, reasoningEffort := none }
    obtain ⟨hsent, halike⟩ := openai_replay Json.quotientReader.numerals (fun _ _ => rfl) hdecoded
      request hitem {} { systemPrefix := none }
    have hmem : message ∈ request.messages := by simp [request]
    refine ⟨r, request, hdecoded, hitem, hsent, halike, message, hmem, ?_,
      hsent.readBack message hmem (spells_of_isCallTurn hcall)⟩
    obtain ⟨role, content⟩ := message
    unfold isCallTurn at hcall
    split at hcall
    · next hrole hcontent =>
      simp only at hcontent
      rw [hcontent]
      rfl
    · cases hcall
  · cases hcall

end SentBack

end EphemeralAgent.Engine
