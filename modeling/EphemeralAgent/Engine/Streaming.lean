import Mathlib.Data.List.ModifyLast
import EphemeralAgent.Engine.Accounting
import EphemeralAgent.Engine.EmptyBodies
import EphemeralAgent.LlmClient.Faithful

/-!
# The loop over the streaming client

`src/agents/engine/turn.ts`.  `runAssistantTurn` reads `streamMessage` with a `for await`: it asks
for the next event in the block that has handled the one before, and closes the stream in the block
that has got the completed message.

* `StreamingRun` — the loop, the stream of its turn, and the streams of the turns before
* `StreamingRun.step` — one block of the loop, of the client, or of both where an event passes
* `turns` — what a run has shown of each of its turns
* `AtTurn` / `atTurn_step` — the blocks of the loop that start a turn
-/

namespace EphemeralAgent.Engine

open Lib LlmClient

/-! ## The system -/

/-- The loop, what the client is called with, and what `controller.abort()` puts into the signal. -/
structure StreamingConfig (E : Type) where
  loop : LoopConfig
  client : StreamClient.Config E
  abortError : E

structure StreamingRun (T : Type) (wire : Wire) (E : Type) where
  run : AgentRun T
  /-- The streams of the turns that are over. -/
  past : List (StreamClient.State wire E)
  /-- The stream of the turn under way. -/
  stream : Option (StreamClient.State wire E)

inductive StreamingLabel (T : Type) (wire : Wire) (E : Type) where
  /-- A block of the loop that is not its stream's. -/
  | loop (label : RunLabel T)
  /-- A block of the client. -/
  | client (label : StreamClient.Label wire E)
  /-- The loop gets the event that the client has yielded. -/
  | takes
  /-- The stream has ended, or has thrown. -/
  | ends
  /-- The stream that the loop has closed is released, and `runAssistantTurn` returns. -/
  | leaves

/-- What the stream makes the loop do. -/
def ofStream {T : Type} (s : AgentRun T) : RunLabel T → Bool
  | .delta _ | .complete .. | .streamEnded | .turnReturns => true
  | .throws _ =>
    match s.phase with
    | .batch _ => false
    | _ => true
  | _ => false

/-- What the loop makes the client do. -/
def ofLoop {wire : Wire} {E : Type} : StreamClient.Label wire E → Bool
  | .next | .close | .abort _ => true
  | _ => false

namespace StreamingRun

variable {T : Type} {wire : Wire} {E : Type}

/-- The thrown value as the loop tells it apart. -/
def loopError (raised : E → Raised) : Thrown E → LoopError
  | .provider error => .provider error.message
  | .other value =>
    match raised value with
    | .apiConnectionError message => .other message
    | .apiError _ _ message => .other message
    | .other message => .other message

/-- `streamMessage(request, { signal })`, and the first `next()`. -/
def streamMessage (cfg : StreamClient.Config E) (wire : Wire) : StreamClient.State wire E :=
  let created := StreamClient.initial wire Signal.live
  (StreamClient.step cfg created .next).getD created

/-- The block requests a turn. -/
def requests (items : List (RunItem T)) : Bool :=
  items.any fun item =>
    match item with
    | .requested _ => true
    | _ => false

/-- The block aborts the signal. -/
def interrupts (items : List (RunItem T)) : Bool :=
  items.any fun item =>
    match item with
    | .interrupted => true
    | _ => false

/-- The stream after a block of the loop: a new one for a new turn, and the signal reaches it. -/
def follow (cfg : StreamingConfig E) (stream : Option (StreamClient.State wire E))
    (items : List (RunItem T)) : Option (StreamClient.State wire E) :=
  if requests items then some (streamMessage cfg.client wire)
  else if interrupts items then
    stream.map fun client =>
      (StreamClient.step cfg.client client (.abort (.other cfg.abortError))).getD client
  else stream

/-- The event that the client holds for its consumer. -/
def held (client : StreamClient.State wire E) : Option LlmStreamEvent :=
  match client.gate.phase with
  | .yielded _ => client.yielded.getLast?
  | _ => none

/-- The label of the loop for an event, and what the loop does to the stream next. -/
def taking : LlmStreamEvent → Option (RunLabel T × StreamClient.Label wire E)
  | .assistantMessageComplete message usage stopReason =>
    if h : message.role = .assistant then some (.complete ⟨message, h⟩ usage stopReason, .close)
    else none
  | event => some (.delta event, .next)

/-- The turn is over, and its stream with it. -/
def finishTurn (s : StreamingRun T wire E) (client : StreamClient.State wire E)
    (next : AgentRun T × List (RunItem T)) : StreamingRun T wire E × List (RunItem T) :=
  ({ run := next.1, past := s.past ++ [client], stream := none }, next.2)

def step (cfg : StreamingConfig E) (s : StreamingRun T wire E) :
    StreamingLabel T wire E → Option (StreamingRun T wire E × List (RunItem T))
  | .loop label =>
    if ofStream s.run label then none
    else (s.run.step cfg.loop label).map fun next =>
      ({ s with run := next.1, stream := follow cfg s.stream next.2 }, next.2)
  | .client label =>
    if ofLoop label then none
    else s.stream.bind fun client => (StreamClient.step cfg.client client label).map fun client =>
      ({ s with stream := some client }, [])
  | .takes =>
    s.stream.bind fun client => (held client).bind fun event => (taking event).bind fun labels =>
      (s.run.step cfg.loop labels.1).bind fun next =>
        (StreamClient.step cfg.client client labels.2).map fun client =>
          ({ s with run := next.1, stream := some client }, next.2)
  | .ends =>
    s.stream.bind fun client =>
      match client.gate.phase with
      | .returned => (s.run.step cfg.loop .streamEnded).map (s.finishTurn client)
      | .threw error =>
        (s.run.step cfg.loop (.throws (loopError cfg.client.raised error))).map (s.finishTurn client)
      | _ => none
  | .leaves =>
    s.stream.bind fun client =>
      match client.gate.phase, client.attempt with
      | .closed, .idle => (s.run.step cfg.loop .turnReturns).map (s.finishTurn client)
      | _, _ => none

/-- `start(..)`. -/
def start (cfg : StreamingConfig E) (wire : Wire) (messages : List UserMessage) :
    Recorded (StreamingRun T wire E) (RunItem T) :=
  let first := AgentRun.start cfg.loop messages
  { state := { run := first.state, past := [], stream := follow cfg none first.history }
    history := first.history }

/-- The streams of all turns, in order. -/
def streams (s : StreamingRun T wire E) : List (StreamClient.State wire E) :=
  s.past ++ s.stream.toList

end StreamingRun

/-! ## What is shown of the turns -/

section Turns

variable {T : Type}

/-- A turn is requested, or something of it is shown. -/
def RunItem.ofTurn : RunItem T → Bool
  | .requested _ => true
  | .streamed _ => true
  | _ => false

def addShown (shown : List (List LlmStreamEvent)) : RunItem T → List (List LlmStreamEvent)
  | .requested _ => shown ++ [[]]
  | .streamed event => shown.modifyLast (· ++ [event])
  | _ => shown

/-- The events that a run has shown of each turn. -/
def turns (history : List (RunItem T)) : List (List LlmStreamEvent) :=
  history.foldl addShown []

/-- Nothing of a turn. -/
def Silent (items : List (RunItem T)) : Prop :=
  ∀ item ∈ items, item.ofTurn = false

theorem Silent.append {items more : List (RunItem T)} (h : Silent items) (hmore : Silent more) :
    Silent (items ++ more) := by
  intro item hitem
  rcases List.mem_append.mp hitem with hitem | hitem
  · exact h item hitem
  · exact hmore item hitem

theorem foldl_silent {items : List (RunItem T)} (h : Silent items) :
    ∀ shown, items.foldl addShown shown = shown := by
  induction items with
  | nil => exact fun _ => rfl
  | cons item rest ih =>
    intro shown
    have hitem : addShown shown item = shown := by
      have hquiet := h item List.mem_cons_self
      cases item <;> first | rfl | cases hquiet
    rw [List.foldl_cons, hitem]
    exact ih (fun other hother => h other (List.mem_cons_of_mem _ hother)) shown

theorem turns_append_silent {history items : List (RunItem T)} (h : Silent items) :
    turns (history ++ items) = turns history := by
  rw [turns, List.foldl_append, foldl_silent h]
  rfl

theorem turns_append_requested {history items : List (RunItem T)} (h : Silent items)
    (messages : List Message) :
    turns (history ++ (items ++ [.requested messages])) = turns history ++ [[]] := by
  rw [← List.append_assoc, turns, List.foldl_append, List.foldl_append, foldl_silent h]
  rfl

theorem turns_append_streamed {history : List (RunItem T)} {shown : List (List LlmStreamEvent)}
    {last : List LlmStreamEvent} (h : turns history = shown ++ [last]) (event : LlmStreamEvent) :
    turns (history ++ [.streamed event]) = shown ++ [last ++ [event]] := by
  rw [turns, List.foldl_append]
  show (turns history).modifyLast (· ++ [event]) = _
  rw [h, List.modifyLast_concat]

end Turns

/-! ## The blocks that start a turn -/

section AtTurn

variable {T : Type} {cfg : LoopConfig} {s : AgentRun T}

/-- A block ends outside of a turn, or at the start of one. -/
inductive AtTurn (next : AgentRun T × List (RunItem T)) : Prop
  | outside (hsilent : Silent next.2) (hphase : next.1.phase.inTurn = false)
  | starts (before : List (RunItem T)) (messages : List Message)
      (hitems : next.2 = before ++ [.requested messages]) (hsilent : Silent before)
      (hphase : next.1.phase = .streaming "" "")

theorem AtTurn.after {next : AgentRun T × List (RunItem T)} {before : List (RunItem T)}
    (h : AtTurn next) (hbefore : Silent before) : AtTurn (next.1, before ++ next.2) := by
  cases h with
  | outside hsilent hphase => exact .outside (hbefore.append hsilent) hphase
  | starts more messages hitems hsilent hphase =>
    refine .starts (before ++ more) messages ?_ (hbefore.append hsilent) hphase
    rw [hitems, List.append_assoc]

theorem silent_exit (s : AgentRun T) (status : FinishStatus T) : Silent (s.exit status).2 := by
  intro item hitem
  rcases mem_exit hitem with ⟨-, rfl⟩ | ⟨shown, rfl⟩ <;> rfl

theorem atTurn_exit (s : AgentRun T) (status : FinishStatus T) : AtTurn (s.exit status) :=
  .outside (silent_exit s status) rfl

theorem silent_drain (cfg : LoopConfig) (s : AgentRun T) : Silent (s.drain cfg).2 := by
  obtain ⟨notes, -, -, heq⟩ := drain_conversation cfg s
  rw [heq]
  intro item hitem
  rcases List.mem_append.mp hitem with hitem | hitem
  · obtain ⟨message, -, rfl⟩ := List.mem_map.mp hitem
    rfl
  · obtain ⟨message, -, rfl⟩ := List.mem_map.mp hitem
    rfl

theorem atTurn_startTurn (cfg : LoopConfig) (s : AgentRun T) : AtTurn (s.startTurn cfg) := by
  unfold AgentRun.startTurn
  by_cases hturns : s.turns ≥ cfg.maxTurns
  · rw [if_pos hturns]
    exact atTurn_exit s _
  · rw [if_neg hturns]
    refine .starts [.turnStarted (s.turns + 1)] s.conversation rfl ?_ rfl
    intro item hitem
    rw [List.mem_singleton.mp hitem]
    rfl

theorem atTurn_head {next : AgentRun T × List (RunItem T)} (h : Head cfg s next) :
    AtTurn next := by
  cases h with
  | cancelled => exact atTurn_exit s _
  | completed message => exact (atTurn_exit _ _).after (silent_drain cfg s)
  | parked => exact .outside (silent_drain cfg s) rfl
  | turn => exact (atTurn_startTurn cfg _).after (silent_drain cfg s)

theorem atTurn_commitBatch {calls : List ToolUseBlock} {results : List ToolCallResult}
    {accepted : Option T} {instant : Nat} :
    AtTurn (s.commitBatch cfg calls results accepted instant) := by
  have happended : Silent (s.appendToolResults ((normalizeBatch calls results instant).map
      (projectToolResult cfg.stringify))).2 := by
    intro item hitem
    rw [List.mem_singleton.mp hitem]
    rfl
  unfold AgentRun.commitBatch
  dsimp only
  split
  · split <;> exact (atTurn_exit _ _).after happended
  · split
    · exact (atTurn_exit _ _).after happended
    · exact (atTurn_head (loopHead_head cfg _)).after happended

theorem atTurn_commitTurn {message : AssistantMessage} {usage : UsageSnapshot} :
    Silent (s.commitTurn cfg message usage).2 ∧
      (s.commitTurn cfg message usage).1.phase.inTurn = false := by
  have hsilent : ∀ rest : List (RunItem T), Silent rest →
      Silent ((s.appendAssistant message).2 ++ .committed usage :: rest) := by
    intro rest hrest item hitem
    rcases List.mem_append.mp hitem with hitem | hitem
    · rw [List.mem_singleton.mp hitem]
      rfl
    · rcases List.mem_cons.mp hitem with rfl | hitem
      · rfl
      · exact hrest item hitem
  have hfacts : ∀ facts : TurnFacts, Silent [(.turnBoundary facts : RunItem T)] := by
    intro facts item hitem
    rw [List.mem_singleton.mp hitem]
    rfl
  unfold AgentRun.commitTurn
  dsimp only
  split
  · split
    · exact ⟨hsilent _ (silent_exit _ _), rfl⟩
    · exact ⟨hsilent _ (hfacts _), rfl⟩
  · exact ⟨hsilent _ (hfacts _), rfl⟩

theorem silent_died {error : LoopError} {text reasoning : String} :
    Silent (AgentRun.salvage s.handle.aborted error text reasoning ++ (s.fail error).2) := by
  refine Silent.append (fun item hitem => ?_) (silent_exit s _)
  obtain ⟨reason, message, rfl⟩ := mem_salvage hitem
  rfl

/-- **A block of the loop that is not its stream's** leaves a turn alone, or it is in none. -/
theorem atTurn_step {label : RunLabel T} {next : AgentRun T × List (RunItem T)}
    (hlabel : ofStream s label = false) (h : s.step cfg label = some next) :
    Silent next.2 ∧ next.1.phase = s.phase ∨ s.phase.inTurn = false ∧ AtTurn next := by
  cases fired_of_step h with
  | textDelta | reasoningDelta | toolUseDelta | complete | streamEnded | turnReturns => cases hlabel
  | turnThrows error hphase =>
    rcases hphase with hphase | ⟨message, usage, hphase⟩
    · simp [ofStream, hphase] at hlabel
    · simp [ofStream, hphase] at hlabel
  | batchThrows error hphase =>
    right
    rw [hphase]
    exact ⟨rfl, atTurn_exit s _⟩
  | rested hphase =>
    right
    rw [hphase]
    exact ⟨rfl, atTurn_head (loopHead_head cfg s)⟩
  | dispatched hcalls hphase =>
    right
    rw [hphase]
    refine ⟨rfl, .outside (fun item hitem => ?_) rfl⟩
    rw [List.mem_singleton.mp hitem]
    rfl
  | batchReturns results accepted instant hphase =>
    right
    rw [hphase]
    exact ⟨rfl, atTurn_commitBatch⟩
  | @wakes since park hphase hresolved =>
    right
    rw [hphase]
    exact ⟨rfl, atTurn_head (loopHead_head cfg _)⟩
  | _ =>
    obtain ⟨houtside, hitems⟩ := outside_step rfl h
    refine Or.inl ⟨fun item hitem => ?_, houtside.phase⟩
    have hinside := hitems item hitem
    cases item <;> first | rfl | cases hinside

end AtTurn

end EphemeralAgent.Engine
