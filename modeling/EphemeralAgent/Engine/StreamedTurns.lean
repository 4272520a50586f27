import EphemeralAgent.Engine.Replay
import EphemeralAgent.Engine.Streaming

/-!
# The turns of a run come from its provider streams

* `Tuned` — the invariant: what is shown of a turn is what the loop has taken from its stream
* `Performed` — what a block does
* `tuned_step`, `tuned_of_run` — one block keeps it, so it holds in every run
* `loop_run_of_run` — the whole is a run of the loop whose turns a decoder has completed
* `streamed_turns` — **no event is lost, shown twice, or shown in another turn**
-/

namespace EphemeralAgent.Engine

open Lib LlmClient StreamClient StreamingRun

/-- A run with all it has shown. -/
abbrev StreamingHistory (T : Type) (wire : Wire) (E : Type) :=
  Recorded (StreamingRun T wire E) (RunItem T)

section Invariant

variable {T : Type} {wire : Wire} {E : Type}

/-- The client has been called with a live signal, and has gone on from there. -/
def Reached (cfg : StreamingConfig E) (client : StreamClient.State wire E) : Prop :=
  ∃ labels, Run (StreamClient.step cfg.client) Free (StreamClient.initial wire .live) labels client

/-- The stream of a turn, by the place where the loop is suspended. -/
def Position : LoopPhase → Option (StreamClient.State wire E) → Prop
  | .streaming _ _, some client => client.IsOpen
  | .completing _ _ message usage, some client => client.IsClosed ∧
      ∃ deltas stopReason,
        client.yielded = deltas ++ [.assistantMessageComplete message.val usage stopReason]
  | .streaming _ _, none => False
  | .completing _ _ _ _, none => False
  | _, stream => stream = none

/-- What is shown of each turn is what the loop has taken from its stream. -/
structure Tuned (cfg : StreamingConfig E) (r : StreamingHistory T wire E) : Prop where
  reached : ∀ client ∈ r.state.streams, Reached cfg client
  shown : turns r.history = r.state.streams.map State.taken
  position : Position r.state.run.phase r.state.stream

variable {cfg : StreamingConfig E} {client client' : StreamClient.State wire E}

theorem Position.outside {phase : LoopPhase} {stream : Option (StreamClient.State wire E)}
    (hphase : phase.inTurn = false) : Position phase stream ↔ stream = none := by
  cases phase <;> first | rfl | cases hphase

theorem Reached.step {label : StreamClient.Label wire E} (h : Reached cfg client)
    (hstep : StreamClient.step cfg.client client label = some client') : Reached cfg client' := by
  obtain ⟨labels, run⟩ := h
  exact ⟨labels ++ [label], .snoc run trivial hstep⟩

theorem Reached.place (h : Reached cfg client) : Place client := by
  obtain ⟨labels, run⟩ := h
  exact (leg_of_run run).place

theorem Reached.followed (h : Reached cfg client) : Followed client := by
  obtain ⟨labels, run⟩ := h
  exact followed_of_run run

/-- A client that goes on by itself has not yielded. -/
theorem Reached.not_yielded {label : StreamClient.Label wire E} (h : Reached cfg client)
    (hlabel : ofLoop label = false)
    (hstep : StreamClient.step cfg.client client label = some client') (i : Nat) :
    client.gate.phase ≠ .yielded i := by
  intro hphase
  have hnone : StreamClient.step cfg.client client label = none := yielded_waits h.place hphase
    (by rintro rfl; cases hlabel) (by rintro rfl; cases hlabel) (by rintro reason rfl; cases hlabel)
  rw [hnone] at hstep
  cases hstep

/-! ### A new stream -/

theorem streamMessage_step (cfg : StreamingConfig E) (wire : Wire) :
    StreamClient.step cfg.client (StreamClient.initial wire .live) .next =
      some (streamMessage cfg.client wire) := rfl

theorem reached_streamMessage : Reached cfg (streamMessage cfg.client wire) :=
  ⟨[.next], Run.single trivial (streamMessage_step cfg wire)⟩

theorem taken_streamMessage (retry : StreamClient.Config E) :
    (streamMessage retry wire).taken = [] := rfl

theorem isOpen_streamMessage (retry : StreamClient.Config E) :
    (streamMessage retry wire).IsOpen :=
  ⟨nofun, nofun⟩

/-! ### A block of the loop -/

theorem requests_of_silent {items : List (RunItem T)} (h : Silent items) : requests items = false := by
  refine List.any_eq_false.mpr fun item hitem => ?_
  have hquiet := h item hitem
  cases item <;> simp_all [RunItem.ofTurn]

/-- What the consumer sees of two clients is the same. -/
structure SameSeen (client client' : StreamClient.State wire E) : Prop where
  phase : client'.gate.phase = client.gate.phase
  yielded : client'.yielded = client.yielded
  attempt : client'.attempt = client.attempt

theorem SameSeen.refl (client : StreamClient.State wire E) : SameSeen client client :=
  ⟨rfl, rfl, rfl⟩

theorem SameSeen.taken (h : SameSeen client client') : client'.taken = client.taken := by
  unfold State.taken
  rw [h.phase, h.yielded]

theorem SameSeen.position (h : SameSeen client client') {phase : LoopPhase}
    (hposition : Position phase (some client)) : Position phase (some client') := by
  cases phase with
  | streaming text reasoning =>
    obtain ⟨hcreated, hclosed⟩ := hposition
    exact ⟨by rw [h.phase]; exact hcreated, by rw [h.phase]; exact hclosed⟩
  | completing text reasoning message usage =>
    obtain ⟨hclosed, deltas, stopReason, hyielded⟩ := hposition
    refine ⟨⟨h.phase.trans hclosed.phase, ?_⟩, deltas, stopReason, h.yielded.trans hyielded⟩
    rw [h.attempt]
    exact hclosed.attempt
  | _ => cases hposition

/-- The signal reaches the stream. -/
theorem reached_abort (h : Reached cfg client) :
    Reached cfg ((StreamClient.step cfg.client client (.abort (.other cfg.abortError))).getD client) ∧
      SameSeen client
        ((StreamClient.step cfg.client client (.abort (.other cfg.abortError))).getD client) := by
  cases hstep : StreamClient.step cfg.client client (.abort (.other cfg.abortError)) with
  | none => exact ⟨h, .refl client⟩
  | some next =>
    refine ⟨h.step hstep, ?_⟩
    obtain ⟨gate, hgate, rfl⟩ := Option.map_eq_some_iff.mp hstep
    simp only [LlmClient.step] at hgate
    split at hgate
    · cases hgate
      exact ⟨rfl, yielded_item client (.aborted _) rfl, rfl⟩
    · cases hgate

/-- A block of the loop that starts no turn leaves the stream, but for its signal. -/
theorem follow_silent {items : List (RunItem T)} (hsilent : Silent items)
    {stream : Option (StreamClient.State wire E)} (h : ∀ client ∈ stream, Reached cfg client) :
    (∀ client ∈ follow cfg stream items, Reached cfg client) ∧
      (follow cfg stream items).map State.taken = stream.map State.taken ∧
      ∀ phase, Position phase stream → Position phase (follow cfg stream items) := by
  unfold follow
  rw [requests_of_silent hsilent, if_neg Bool.false_ne_true]
  by_cases hinterrupts : interrupts items = true
  · rw [if_pos hinterrupts]
    cases stream with
    | none => exact ⟨h, rfl, fun _ hposition => hposition⟩
    | some client =>
      obtain ⟨hreached, hseen⟩ := reached_abort (h client rfl)
      refine ⟨?_, ?_, fun phase hposition => hseen.position hposition⟩
      · rintro next ⟨⟩
        exact hreached
      · exact congrArg some hseen.taken
  · rw [if_neg hinterrupts]
    exact ⟨h, rfl, fun _ hposition => hposition⟩

theorem follow_requested {items : List (RunItem T)} {messages : List Message}
    (stream : Option (StreamClient.State wire E)) :
    follow cfg stream (items ++ [.requested messages]) = some (streamMessage cfg.client wire) := by
  unfold follow
  rw [if_pos]
  simp [requests]

/-! ### A block where an event passes -/

theorem held_cases {event : LlmStreamEvent} (h : held client = some event) :
    ∃ i deltas, client.gate.phase = .yielded i ∧ client.yielded = deltas ++ [event] ∧
      client.taken = deltas := by
  unfold held at h
  split at h
  · next i hphase =>
    obtain ⟨deltas, hyielded⟩ := List.getLast?_eq_some_iff.mp h
    refine ⟨i, deltas, hphase, hyielded, ?_⟩
    simp only [State.taken, hphase, hyielded, List.dropLast_concat]
  · cases h

theorem taking_cases {event : LlmStreamEvent} {labels : RunLabel T × StreamClient.Label wire E}
    (h : taking event = some labels) :
    (∃ (message : AssistantMessage) (usage : UsageSnapshot) (stopReason : Option String),
      event = .assistantMessageComplete message.val usage stopReason ∧
        labels = (.complete message usage stopReason, .close)) ∨
      labels = (.delta event, .next) := by
  unfold taking at h
  split at h
  · next message usage stopReason =>
    split at h
    · next hrole =>
      cases h
      exact Or.inl ⟨⟨message, hrole⟩, usage, stopReason, rfl, rfl⟩
    · cases h
  · cases h
    exact Or.inr rfl

/-- The loop asks for the next event. -/
theorem next_of_yielded {i : Nat} (hphase : client.gate.phase = .yielded i)
    (hstep : StreamClient.step cfg.client client .next = some client') :
    client'.gate.phase = .streaming i ∧ client'.yielded = client.yielded := by
  simp only [StreamClient.step] at hstep
  split at hstep
  · next hcreated _ =>
    rw [hphase] at hcreated
    cases hcreated
  · obtain ⟨gate, hgate, rfl⟩ := Option.map_eq_some_iff.mp hstep
    simp only [LlmClient.step, hphase, Option.some.injEq] at hgate
    subst hgate
    exact ⟨rfl, rfl⟩
  · cases hstep

/-- The loop closes the stream. -/
theorem close_of_yielded {i : Nat} (hphase : client.gate.phase = .yielded i)
    (hstep : StreamClient.step cfg.client client .close = some client') :
    client'.IsClosed ∧ client'.yielded = client.yielded := by
  simp only [StreamClient.step] at hstep
  split at hstep
  · next hcreated _ =>
    rw [hphase] at hcreated
    cases hcreated
  · obtain ⟨gate, hgate, rfl⟩ := Option.map_eq_some_iff.mp hstep
    simp only [LlmClient.step, hphase, Option.some.injEq] at hgate
    subst hgate
    exact ⟨⟨rfl, Or.inr ⟨_, rfl⟩⟩, rfl⟩
  · cases hstep

/-! ### Every block -/

section Step

variable {r : StreamingHistory T wire E} {label : StreamingLabel T wire E}

/-- What a block of the whole has done. -/
inductive Performed (cfg : StreamingConfig E) (s : StreamingRun T wire E) :
    StreamingRun T wire E → List (RunItem T) → Prop
  /-- A block of the loop that takes nothing from the stream. -/
  | loop (label : RunLabel T) (next : AgentRun T × List (RunItem T))
      (hlabel : ofStream s.run label = false) (hrun : s.run.step cfg.loop label = some next) :
      Performed cfg s { s with run := next.1, stream := follow cfg s.stream next.2 } next.2
  /-- A block of the client that the loop has not asked for. -/
  | client (label : StreamClient.Label wire E) (client client' : StreamClient.State wire E)
      (hlabel : ofLoop label = false) (hstream : s.stream = some client)
      (hclient : StreamClient.step cfg.client client label = some client') :
      Performed cfg s { s with stream := some client' } []
  /-- An event is taken. -/
  | takes (client client' : StreamClient.State wire E) (event : LlmStreamEvent)
      (labels : RunLabel T × StreamClient.Label wire E) (next : AgentRun T × List (RunItem T))
      (hstream : s.stream = some client) (hheld : held client = some event)
      (htaking : taking event = some labels) (hrun : s.run.step cfg.loop labels.1 = some next)
      (hclient : StreamClient.step cfg.client client labels.2 = some client') :
      Performed cfg s { s with run := next.1, stream := some client' } next.2
  /-- The turn is over, with its stream. -/
  | ended (client : StreamClient.State wire E) (next : AgentRun T × List (RunItem T))
      (hstream : s.stream = some client) (hrun : s.run.step cfg.loop .streamEnded = some next) :
      Performed cfg s (s.finishTurn client next).1 (s.finishTurn client next).2
  | threw (client : StreamClient.State wire E) (error : LoopError)
      (next : AgentRun T × List (RunItem T)) (hstream : s.stream = some client)
      (hrun : s.run.step cfg.loop (.throws error) = some next) :
      Performed cfg s (s.finishTurn client next).1 (s.finishTurn client next).2
  | returned (client : StreamClient.State wire E) (next : AgentRun T × List (RunItem T))
      (hstream : s.stream = some client) (hrun : s.run.step cfg.loop .turnReturns = some next) :
      Performed cfg s (s.finishTurn client next).1 (s.finishTurn client next).2

theorem performed_of_step {s state : StreamingRun T wire E} {items : List (RunItem T)}
    (h : s.step cfg label = some (state, items)) : Performed cfg s state items := by
  cases label with
  | loop label =>
    simp only [StreamingRun.step] at h
    split at h
    · cases h
    · next hlabel =>
      obtain ⟨next, hrun, heq⟩ := Option.map_eq_some_iff.mp h
      cases heq
      exact .loop label next (by simpa using hlabel) hrun
  | client label =>
    simp only [StreamingRun.step] at h
    split at h
    · cases h
    · next hlabel =>
      obtain ⟨client, hstream, h⟩ := Option.bind_eq_some_iff.mp h
      obtain ⟨client', hclient, heq⟩ := Option.map_eq_some_iff.mp h
      cases heq
      exact .client label client client' (by simpa using hlabel) hstream hclient
  | takes =>
    obtain ⟨client, hstream, h⟩ := Option.bind_eq_some_iff.mp h
    obtain ⟨event, hheld, h⟩ := Option.bind_eq_some_iff.mp h
    obtain ⟨labels, htaking, h⟩ := Option.bind_eq_some_iff.mp h
    obtain ⟨next, hrun, h⟩ := Option.bind_eq_some_iff.mp h
    obtain ⟨client', hclient, heq⟩ := Option.map_eq_some_iff.mp h
    cases heq
    exact .takes client client' event labels next hstream hheld htaking hrun hclient
  | ends =>
    obtain ⟨client, hstream, h⟩ := Option.bind_eq_some_iff.mp h
    split at h
    · obtain ⟨next, hrun, heq⟩ := Option.map_eq_some_iff.mp h
      cases heq
      exact .ended client next hstream hrun
    · obtain ⟨next, hrun, heq⟩ := Option.map_eq_some_iff.mp h
      cases heq
      exact .threw client _ next hstream hrun
    · cases h
  | leaves =>
    obtain ⟨client, hstream, h⟩ := Option.bind_eq_some_iff.mp h
    split at h
    · obtain ⟨next, hrun, heq⟩ := Option.map_eq_some_iff.mp h
      cases heq
      exact .returned client next hstream hrun
    · cases h

theorem Tuned.past (h : Tuned cfg r) : ∀ client ∈ r.state.past, Reached cfg client :=
  fun client hmem => h.reached client (List.mem_append_left _ hmem)

theorem Tuned.stream (h : Tuned cfg r) : ∀ client ∈ r.state.stream, Reached cfg client :=
  fun client hmem => h.reached client
    (List.mem_append_right _ (Option.mem_toList.mpr hmem))

/-- The stream of the turn has changed. -/
theorem Tuned.replace (h : Tuned cfg r) {run : AgentRun T} {items : List (RunItem T)}
    {stream : Option (StreamClient.State wire E)} (hreached : ∀ client ∈ stream, Reached cfg client)
    (hshown : turns (r.history ++ items) =
      r.state.past.map State.taken ++ (stream.map State.taken).toList)
    (hposition : Position run.phase stream) :
    Tuned cfg { state := { r.state with run, stream }, history := r.history ++ items } where
  reached := by
    intro client hmem
    rcases List.mem_append.mp hmem with hmem | hmem
    · exact h.past client hmem
    · exact hreached client (Option.mem_toList.mp hmem)
  shown := by
    rw [hshown, StreamingRun.streams, List.map_append]
    cases stream <;> rfl
  position := hposition

/-- The turn is over. -/
theorem Tuned.finish (h : Tuned cfg r) {client : StreamClient.State wire E}
    (hstream : r.state.stream = some client) {next : AgentRun T × List (RunItem T)}
    (hsilent : Silent next.2) (hphase : next.1.phase.inTurn = false) :
    Tuned cfg { state := (r.state.finishTurn client next).1
                history := r.history ++ (r.state.finishTurn client next).2 } where
  reached := by
    intro other hmem
    refine h.reached other ?_
    rw [StreamingRun.streams, hstream]
    simpa [StreamingRun.streams, finishTurn] using hmem
  shown := by
    show turns (r.history ++ next.2) = _
    rw [turns_append_silent hsilent, h.shown]
    simp [StreamingRun.streams, finishTurn, hstream]
  position := (Position.outside hphase).mpr rfl

/-- What is shown, with the stream of the turn apart. -/
theorem Tuned.shown_apart (h : Tuned cfg r) :
    turns r.history = r.state.past.map State.taken ++ (r.state.stream.map State.taken).toList := by
  rw [h.shown, StreamingRun.streams, List.map_append]
  cases r.state.stream <;> rfl

theorem tuned_loop {label : RunLabel T} {next : AgentRun T × List (RunItem T)} (h : Tuned cfg r)
    (hlabel : ofStream r.state.run label = false)
    (hstep : r.state.run.step cfg.loop label = some next) :
    Tuned cfg { state := { r.state with run := next.1, stream := follow cfg r.state.stream next.2 }
                history := r.history ++ next.2 } := by
  rcases atTurn_step hlabel hstep with ⟨hsilent, hphase⟩ | ⟨houtside, hat⟩
  · obtain ⟨hreached, htaken, hposition⟩ := follow_silent hsilent h.stream
    refine h.replace hreached ?_ ?_
    · rw [turns_append_silent hsilent, h.shown_apart, htaken]
    · rw [hphase]
      exact hposition _ h.position
  · have hnone : r.state.stream = none := (Position.outside houtside).mp h.position
    cases hat with
    | outside hsilent hphase =>
      obtain ⟨hreached, htaken, hposition⟩ := follow_silent hsilent h.stream
      refine h.replace hreached ?_ ?_
      · rw [turns_append_silent hsilent, h.shown_apart, htaken]
      · refine hposition _ ?_
        rw [hnone]
        exact (Position.outside hphase).mpr rfl
    | starts before messages hitems hsilent hphase =>
      rw [hitems, follow_requested]
      refine h.replace ?_ ?_ ?_
      · rintro client ⟨⟩
        exact reached_streamMessage
      · rw [turns_append_requested hsilent, h.shown_apart, hnone]
        show r.state.past.map State.taken ++ [] ++ [[]] =
          r.state.past.map State.taken ++ [(streamMessage cfg.client wire).taken]
        rw [List.append_nil, taken_streamMessage]
      · rw [hphase]
        exact isOpen_streamMessage cfg.client

theorem tuned_client {label : StreamClient.Label wire E} (h : Tuned cfg r)
    (hlabel : ofLoop label = false) (hstream : r.state.stream = some client)
    (hstep : StreamClient.step cfg.client client label = some client') :
    Tuned cfg { state := { r.state with stream := some client' }, history := r.history ++ [] } := by
  have hreached : Reached cfg client := h.stream client hstream
  have hquiet := hreached.not_yielded hlabel hstep
  have hmoved := moved_of_step hstep
  have hposition := h.position
  rw [hstream] at hposition
  refine h.replace ?_ ?_ ?_
  · rintro other ⟨⟩
    exact hreached.step hstep
  · rw [List.append_nil, h.shown_apart, hstream]
    show _ = r.state.past.map State.taken ++ [client'.taken]
    rw [taken_of_moved hmoved hquiet]
    rfl
  · cases hphase : r.state.run.phase with
    | streaming text reasoning =>
      rw [hphase] at hposition
      exact isOpen_of_moved hmoved hquiet hposition
    | completing text reasoning message usage =>
      rw [hphase] at hposition
      obtain ⟨hclosed, deltas, stopReason, hyielded⟩ := hposition
      obtain ⟨hclosed', hyielded'⟩ := isClosed_of_moved hmoved hclosed
      exact ⟨hclosed', deltas, stopReason, hyielded'.trans hyielded⟩
    | _ =>
      rw [hphase] at hposition
      cases hposition

/-- A block in which the loop takes an event. -/
theorem Tuned.take (h : Tuned cfg r) (hstream : r.state.stream = some client)
    {event : LlmStreamEvent} (hreached : Reached cfg client')
    (htaken : client'.taken = client.taken ++ [event]) {run : AgentRun T}
    (hposition : Position run.phase (some client')) :
    Tuned cfg { state := { r.state with run, stream := some client' }
                history := r.history ++ [.streamed event] } := by
  refine h.replace ?_ ?_ hposition
  · rintro other ⟨⟩
    exact hreached
  · have hshown := h.shown_apart
    rw [hstream] at hshown
    rw [turns_append_streamed hshown event]
    show _ = r.state.past.map State.taken ++ [client'.taken]
    rw [htaken]

theorem tuned_takes {event : LlmStreamEvent} {labels : RunLabel T × StreamClient.Label wire E}
    {next : AgentRun T × List (RunItem T)} (h : Tuned cfg r) (hstream : r.state.stream = some client)
    (hheld : held client = some event) (htaking : taking event = some labels)
    (hrun : r.state.run.step cfg.loop labels.1 = some next)
    (hclient : StreamClient.step cfg.client client labels.2 = some client') :
    Tuned cfg { state := { r.state with run := next.1, stream := some client' }
                history := r.history ++ next.2 } := by
  have hreached : Reached cfg client := h.stream client hstream
  obtain ⟨i, deltas, hphase, hyielded, htaken⟩ := held_cases hheld
  rcases taking_cases htaking with ⟨message, usage, stopReason, rfl, rfl⟩ | rfl
  · obtain ⟨hclosed, hsame⟩ := close_of_yielded hphase hclient
    cases fired_of_step hrun with
    | complete _ _ _ hstreaming =>
      refine h.take hstream (hreached.step hclient) ?_ ?_
      · rw [taken_eq_yielded (by simp [hclosed.phase]), hsame, hyielded, htaken]
      · exact ⟨hclosed, deltas, stopReason, hsame.trans hyielded⟩
  · obtain ⟨hopen, hsame⟩ := next_of_yielded hphase hclient
    have htakes : client'.taken = client.taken ++ [event] := by
      rw [taken_eq_yielded (by simp [hopen]), hsame, hyielded, htaken]
    have hclient' : client'.IsOpen := ⟨by simp [hopen], by simp [hopen]⟩
    cases fired_of_step hrun with
    | textDelta | reasoningDelta =>
      exact h.take hstream (hreached.step hclient) htakes hclient'
    | toolUseDelta _ _ _ hstreaming =>
      refine h.take hstream (hreached.step hclient) htakes ?_
      rw [hstreaming]
      exact hclient'

theorem tuned_step (h : Tuned cfg r) {state : StreamingRun T wire E} {items : List (RunItem T)}
    (hstep : r.state.step cfg label = some (state, items)) :
    Tuned cfg { state, history := r.history ++ items } := by
  cases performed_of_step hstep with
  | loop label next hlabel hrun => exact tuned_loop h hlabel hrun
  | client label client client' hlabel hstream hclient =>
    exact tuned_client h hlabel hstream hclient
  | takes client client' event labels next hstream hheld htaking hrun hclient =>
    exact tuned_takes h hstream hheld htaking hrun hclient
  | ended client next hstream hrun =>
    cases fired_of_step hrun with
    | streamEnded => exact h.finish hstream silent_died rfl
  | threw client error next hstream hrun =>
    cases fired_of_step hrun with
    | turnThrows => exact h.finish hstream silent_died rfl
    | batchThrows error hphase =>
      -- no stream is open while a batch runs
      have hposition := h.position
      rw [hphase, hstream] at hposition
      cases hposition
  | returned client next hstream hrun =>
    cases fired_of_step hrun with
    | turnReturns =>
      obtain ⟨hsilent, hphase⟩ := atTurn_commitTurn
      exact h.finish hstream hsilent hphase

end Step

/-! ### Every run -/

section Runs

variable {messages : List UserMessage} {labels : List (StreamingLabel T wire E)}
  {r : StreamingHistory T wire E}

/-- The first block may start a turn. -/
theorem tuned_first {next : AgentRun T × List (RunItem T)} (h : AtTurn next) :
    Tuned cfg { state := ({ run := next.1, past := [], stream := follow cfg none next.2 } :
                  StreamingRun T wire E)
                history := next.2 } := by
  cases h with
  | outside hsilent hphase =>
    have hnone : follow cfg none next.2 = (none : Option (StreamClient.State wire E)) := by
      unfold follow
      rw [requests_of_silent hsilent, if_neg Bool.false_ne_true]
      split <;> rfl
    rw [hnone]
    refine ⟨fun client hmem => absurd hmem List.not_mem_nil, ?_, (Position.outside hphase).mpr rfl⟩
    exact foldl_silent hsilent []
  | starts before request hitems hsilent hphase =>
    rw [hitems, follow_requested]
    have hshown : turns ([] ++ (before ++ [.requested request])) = turns [] ++ [[]] :=
      turns_append_requested hsilent request
    refine ⟨?_, hshown, ?_⟩
    · intro client hmem
      rw [List.mem_singleton.mp hmem]
      exact reached_streamMessage
    · rw [hphase]
      exact isOpen_streamMessage cfg.client

theorem tuned_start (cfg : StreamingConfig E) (messages : List UserMessage) :
    Tuned cfg (StreamingRun.start (T := T) cfg wire messages) := by
  refine tuned_first (AtTurn.after (atTurn_head (loopHead_head cfg.loop _)) fun item hitem => ?_)
  obtain ⟨message, -, rfl⟩ := List.mem_map.mp hitem
  rfl

theorem tuned_of_run (run : Run (Recorded.step (StreamingRun.step cfg)) Free
    (StreamingRun.start cfg wire messages) labels r) : Tuned cfg r := by
  refine run.invariant (tuned_start cfg messages) ?_
  intro r label r' _ hr hstep
  obtain ⟨state, items, hstate, rfl⟩ := Recorded.step_cases hstep
  exact tuned_step hr hstate

end Runs

/-! ## The loop by itself -/

/-- A decoder of this wire completes this message. -/
def CompletedBy (wire : Wire) (message : Message) : Prop :=
  ∃ (requestId : Option String) (chunks : List wire.Chunk) (d : wire.Decoder)
    (emitted : List LlmStreamEvent) (usage : UsageSnapshot) (stopReason : Option String),
    decode wire.handle (wire.decoder requestId) chunks = .ok (d, emitted) ∧
      .assistantMessageComplete message usage stopReason ∈ emitted

section Loop

variable {messages : List UserMessage} {labels : List (StreamingLabel T wire E)}
  {label : StreamingLabel T wire E} {r : StreamingHistory T wire E}

/-- What the client holds comes from a decoder. -/
theorem completedBy_of_held {message : Message} {usage : UsageSnapshot} {stopReason : Option String}
    (h : Reached cfg client)
    (hheld : held client = some (.assistantMessageComplete message usage stopReason)) :
    CompletedBy wire message := by
  obtain ⟨i, deltas, hphase, hyielded, -⟩ := held_cases hheld
  obtain ⟨-, -, d, -, hdecode⟩ := h.followed.stands hphase
  refine ⟨client.requestId, _, d, client.yielded, usage, stopReason, hdecode, ?_⟩
  rw [hyielded]
  simp

/-- A turn is completed by what its stream holds. -/
def HeldBy (s : StreamingRun T wire E) : RunLabel T → Prop
  | .complete message usage stopReason => ∃ client ∈ s.stream,
      held client = some (.assistantMessageComplete message.val usage stopReason)
  | _ => True

theorem HeldBy.completed {runLabel : RunLabel T} {history : AgentHistory T} (h : Tuned cfg r)
    (hheld : HeldBy r.state runLabel) : Completed (CompletedBy wire) history runLabel := by
  cases runLabel with
  | complete message usage stopReason =>
    obtain ⟨client, hstream, hclient⟩ := hheld
    exact completedBy_of_held (h.stream client hstream) hclient
  | _ => trivial

/-- A block of the whole is a block of the loop, or the loop does not notice it. -/
theorem loop_step {state : StreamingRun T wire E} {items : List (RunItem T)}
    (hstep : r.state.step cfg label = some (state, items)) :
    state.run = r.state.run ∧ items = [] ∨ ∃ runLabel, HeldBy r.state runLabel ∧
      r.state.run.step cfg.loop runLabel = some (state.run, items) := by
  cases performed_of_step hstep with
  | loop label next hlabel hrun =>
    refine Or.inr ⟨label, ?_, hrun⟩
    cases label <;> trivial
  | client => exact Or.inl ⟨rfl, rfl⟩
  | takes client client' event labels next hstream hheld htaking hrun hclient =>
    refine Or.inr ⟨labels.1, ?_, hrun⟩
    rcases taking_cases htaking with ⟨message, usage, stopReason, rfl, rfl⟩ | rfl
    · exact ⟨client, hstream, hheld⟩
    · trivial
  | ended client next hstream hrun => exact Or.inr ⟨.streamEnded, trivial, hrun⟩
  | threw client error next hstream hrun => exact Or.inr ⟨.throws error, trivial, hrun⟩
  | returned client next hstream hrun => exact Or.inr ⟨.turnReturns, trivial, hrun⟩

/-- **The whole is a run of the loop** whose turns a decoder has completed. -/
theorem loop_run_of_run (run : Run (Recorded.step (StreamingRun.step cfg)) Free
    (StreamingRun.start cfg wire messages) labels r) :
    ∃ runLabels, Run (Recorded.step (AgentRun.step cfg.loop)) (Completed (CompletedBy wire))
      (AgentRun.start cfg.loop messages) runLabels
      { state := r.state.run, history := r.history } := by
  refine run.invariant_of (J := Tuned cfg)
    (I := fun r => ∃ runLabels, Run (Recorded.step (AgentRun.step cfg.loop))
      (Completed (CompletedBy wire)) (AgentRun.start cfg.loop messages) runLabels
      { state := r.state.run, history := r.history })
    (fun hrun => tuned_of_run hrun.free) ⟨[], .nil _⟩ ?_
  rintro r label r' _ hr ⟨runLabels, hrun⟩ hstep
  obtain ⟨state, items, hstate, rfl⟩ := Recorded.step_cases hstep
  rcases loop_step hstate with ⟨hsame, rfl⟩ | ⟨runLabel, hlabel, hnext⟩
  · refine ⟨runLabels, ?_⟩
    rw [List.append_nil, hsame]
    exact hrun
  · refine ⟨runLabels ++ [runLabel], .snoc hrun (hlabel.completed hr) ?_⟩
    rw [Recorded.step, hnext]
    rfl

end Loop

/-! ## A turn goes on -/

section Progress

variable {r : StreamingHistory T wire E}

/-- The step is the stream's or the provider's. -/
def StreamingLabel.isLoop : StreamingLabel T wire E → Bool
  | .loop _ => true
  | _ => false

/-- The client can go on, or it has come to its end. -/
theorem client_goes_on (h : Reached cfg client) (hopen : client.IsOpen) :
    (∃ i, client.gate.phase = .yielded i) ∨ client.gate.phase = .returned ∨
      (∃ error, client.gate.phase = .threw error) ∨
      ∃ label, ofLoop label = false ∧
        (StreamClient.step cfg.client client label).isSome = true := by
  cases hphase : client.gate.phase with
  | created => exact absurd hphase hopen.1
  | closed => exact absurd hphase hopen.2
  | yielded i => exact Or.inl ⟨i, rfl⟩
  | returned => exact Or.inr (Or.inl rfl)
  | threw error => exact Or.inr (Or.inr (Or.inl ⟨error, rfl⟩))
  | sleeping i =>
    exact Or.inr (Or.inr (Or.inr ⟨.wake, rfl, by simp [StreamClient.step, LlmClient.step, hphase]⟩))
  | retrying i =>
    exact Or.inr (Or.inr (Or.inr ⟨.resume, rfl,
      by simp [StreamClient.step, LlmClient.step, hphase]⟩))
  | streaming i =>
    obtain ⟨-, hfollows⟩ := h.followed.stands hphase
    refine Or.inr (Or.inr (Or.inr ?_))
    cases hattempt : client.attempt with
    | opening => exact ⟨.opened none, rfl, by simp [StreamClient.step, hattempt]⟩
    | reading d => exact ⟨.done, rfl, by simp [StreamClient.step, hattempt, hphase]⟩
    | offering d event =>
      exact ⟨.deliver, rfl, by simp [StreamClient.step, LlmClient.step, hattempt, hphase]⟩
    | releasing d exit => exact ⟨.released, rfl, by simp [StreamClient.step, hattempt]⟩
    | settled result =>
      refine ⟨.deliver, rfl, ?_⟩
      cases result <;> simp [StreamClient.step, LlmClient.step, hattempt, hphase]
    | idle | held d =>
      rw [hattempt] at hfollows
      exact hfollows.elim

theorem held_of_yielded (h : Reached cfg client) {i : Nat} (hphase : client.gate.phase = .yielded i) :
    ∃ event d, held client = some event ∧ client.attempt = .held d := by
  obtain ⟨-, hyielded, d, hattempt, -⟩ := h.followed.stands hphase
  refine ⟨client.yielded.getLast hyielded, d, ?_, hattempt⟩
  unfold held
  rw [hphase]
  exact List.getLast?_eq_some_getLast hyielded

/-- What the client holds can be taken. -/
theorem takes_of_held (hassistant : ∀ message, CompletedBy wire message → message.role = .assistant)
    (h : Tuned cfg r) {text reasoning : String} (hrun : r.state.run.phase = .streaming text reasoning)
    (hstream : r.state.stream = some client) {i : Nat} (hphase : client.gate.phase = .yielded i) :
    (r.state.step cfg .takes).isSome = true := by
  have hreached := h.stream client hstream
  obtain ⟨event, d, hheld, hattempt⟩ := held_of_yielded hreached hphase
  cases event with
  | assistantMessageComplete message usage stopReason =>
    have hrole := hassistant message (completedBy_of_held hreached hheld)
    simp [StreamingRun.step, hstream, hheld, taking, hrole, AgentRun.step, hrun, StreamClient.step,
      hphase, hattempt, LlmClient.step]
  | _ =>
    simp [StreamingRun.step, hstream, hheld, taking, AgentRun.step, hrun, StreamClient.step,
      hphase, hattempt, LlmClient.step]

/-- **A turn that is under way goes on** by itself or by its provider. -/
theorem turn_goes_on (hassistant : ∀ message, CompletedBy wire message → message.role = .assistant)
    (h : Tuned cfg r) (hturn : r.state.run.phase.inTurn = true) :
    ∃ label, StreamingLabel.isLoop label = false ∧ (r.state.step cfg label).isSome = true := by
  have hposition := h.position
  cases hstream : r.state.stream with
  | none =>
    rw [hstream] at hposition
    cases hrun : r.state.run.phase <;> rw [hrun] at hposition hturn <;>
      first | exact hposition.elim | cases hturn
  | some client =>
    rw [hstream] at hposition
    cases hrun : r.state.run.phase with
    | streaming text reasoning =>
      rw [hrun] at hposition
      rcases client_goes_on (h.stream client hstream) hposition with
        ⟨i, hphase⟩ | hphase | ⟨error, hphase⟩ | ⟨label, hlabel, hstep⟩
      · exact ⟨.takes, rfl, takes_of_held hassistant h hrun hstream hphase⟩
      · refine ⟨.ends, rfl, ?_⟩
        simp [StreamingRun.step, hstream, hphase, AgentRun.step, hrun]
      · refine ⟨.ends, rfl, ?_⟩
        simp [StreamingRun.step, hstream, hphase, AgentRun.step, hrun]
      · refine ⟨.client label, rfl, ?_⟩
        simpa [StreamingRun.step, hlabel, hstream] using hstep
    | completing text reasoning message usage =>
      rw [hrun] at hposition
      obtain ⟨⟨hclosed, hidle | ⟨d, hreleasing⟩⟩, -⟩ := hposition
      · refine ⟨.leaves, rfl, ?_⟩
        simp [StreamingRun.step, hstream, hclosed, hidle, AgentRun.step, hrun]
      · refine ⟨.client .released, rfl, ?_⟩
        simp [StreamingRun.step, hstream, ofLoop, StreamClient.step, hreleasing]
    | _ =>
      rw [hrun] at hturn
      cases hturn

end Progress

end Invariant

/-! ## The two wires -/

/-- A completed message is an assistant's. -/
def FromAssistant : LlmStreamEvent → Prop
  | .assistantMessageComplete message _ _ => message.role = .assistant
  | _ => True

theorem fromAssistant_anthropic {jsonParse : String → Option Json}
    {d d' : Anthropic.AnthropicDecoder} {event : Anthropic.RawMessageStreamEvent}
    {yielded : Option LlmStreamEvent}
    (h : Anthropic.AnthropicDecoder.handle jsonParse d event = .ok (d', yielded)) :
    ∀ item ∈ yielded, FromAssistant item := by
  cases event with
  | messageStart | contentBlockStart | messageDelta | other => cases h; exact nofun
  | contentBlockDelta index delta =>
    cases delta <;> cases h <;> rintro item ⟨⟩ <;> trivial
  | contentBlockStop index =>
    simp only [Anthropic.AnthropicDecoder.handle] at h
    split at h
    · cases h
      exact nofun
    · unfold Anthropic.AnthropicDecoder.closeBlock at h
      split at h
      · cases h
        exact nofun
      · split at h
        · cases h
          exact nofun
        · split at h
          · split at h
            · cases h
            · cases h
              rintro item ⟨⟩
              trivial
          · cases h
            exact nofun
  | messageStop =>
    cases h
    rintro item ⟨⟩
    rfl

theorem fromAssistant_openAi {jsonParse : String → Option Json} {d d' : OpenAi.OpenAiDecoder}
    {event : OpenAi.ResponseStreamEvent} {yielded : Option LlmStreamEvent}
    (h : OpenAi.OpenAiDecoder.handle jsonParse d event = .ok (d', yielded)) :
    ∀ item ∈ yielded, FromAssistant item := by
  cases event with
  | outputTextDelta | reasoningSummaryTextDelta =>
    cases h
    rintro item ⟨⟩
    trivial
  | outputItemAdded item => cases item <;> cases h <;> exact nofun
  | functionCallArgumentsDelta | other => cases h; exact nofun
  | functionCallArgumentsDone itemId =>
    simp only [OpenAi.OpenAiDecoder.handle] at h
    split at h
    · cases h
      exact nofun
    · split at h
      · cases h
      · cases h
        rintro item ⟨⟩
        trivial
  | completed response | incomplete response =>
    cases h
    rintro item ⟨⟩
    rfl
  | failed | error => cases h

theorem role_of_completedBy (provider : Provider) (jsonParse : String → Option Json)
    {message : Message} (h : CompletedBy (provider.wire jsonParse) message) :
    message.role = .assistant := by
  obtain ⟨requestId, chunks, d, emitted, usage, stopReason, hdecode, hmem⟩ := h
  cases provider with
  | anthropicApi | claudeCodingPlan =>
    exact decode_invariant (I := fun _ : Anthropic.AnthropicDecoder => True) (P := FromAssistant)
      (fun _ hhandle => ⟨trivial, fromAssistant_anthropic hhandle⟩) trivial hdecode _ hmem
  | openaiApi | codexCodingPlan =>
    exact decode_invariant (I := fun _ : OpenAi.OpenAiDecoder => True) (P := FromAssistant)
      (fun _ hhandle => ⟨trivial, fromAssistant_openAi hhandle⟩) trivial hdecode _ hmem

theorem decodable_of_completedBy {provider : Provider} {jsonParse : String → Option Json}
    {message : Message} (h : CompletedBy (provider.wire jsonParse) message) :
    Decodable jsonParse message :=
  ⟨provider, h⟩

/-- **The loop over the streaming client**, with any provider, and whatever is retried, fails, times
out or is aborted: it is a run of the loop whose turns a decoder has completed, what is shown of each
turn is what one decoder yields over the chunks of one attempt, and a turn never gets stuck. -/
theorem streamed_turns {T E : Type} (provider : Provider) (jsonParse : String → Option Json)
    (cfg : StreamingConfig E) {messages : List UserMessage}
    {labels : List (StreamingLabel T (provider.wire jsonParse) E)}
    {r : StreamingHistory T (provider.wire jsonParse) E}
    (run : Run (Recorded.step (StreamingRun.step cfg)) Free
      (StreamingRun.start cfg (provider.wire jsonParse) messages) labels r) :
    (∃ runLabels, Run (Recorded.step (AgentRun.step cfg.loop)) (Completed (Decodable jsonParse))
      (AgentRun.start cfg.loop messages) runLabels { state := r.state.run, history := r.history }) ∧
    turns r.history = r.state.streams.map State.taken ∧
    (∀ client ∈ r.state.streams, Faithful client) ∧
    (r.state.run.phase.inTurn = true →
      ∃ label, StreamingLabel.isLoop label = false ∧ (r.state.step cfg label).isSome = true) := by
  have htuned := tuned_of_run run
  obtain ⟨runLabels, hrun⟩ := loop_run_of_run run
  refine ⟨⟨runLabels, hrun.mono fun _ label hlabel => ?_⟩, htuned.shown, fun client hmem => ?_, ?_⟩
  · cases label with
    | complete message usage stopReason => exact decodable_of_completedBy hlabel
    | _ => trivial
  · exact (htuned.reached client hmem).followed.faithful
  · exact turn_goes_on (fun _ => role_of_completedBy provider jsonParse) htuned

/-- A run that retries at once. -/
def promptRun : StreamingConfig Unit :=
  { loop := sampleConfig .text, client := promptly, abortError := () }

/-- A connection that fails at first, and then a turn of one text. -/
theorem streamed_turns_retried :
    ∃ r : StreamingHistory Unit (Provider.openaiApi.wire fun _ => none) Unit,
      r.state.run.handle.finished = true ∧ turns r.history = r.state.streams.map State.taken ∧
        ∀ client ∈ r.state.streams, Faithful client := by
  obtain ⟨r, run, hfinished⟩ := exists_run (Recorded.step (StreamingRun.step promptRun)) Free
    (StreamingRun.start (T := Unit) promptRun (Provider.openaiApi.wire fun _ => none)
      [⟨userText "go", rfl⟩])
    [.client (.opened none), .client (.readFailed (.provider (.transport "reset"))),
      .client .released, .client .deliver, .client .resume, .client (.opened none),
      .client (.chunk (OpenAi.ResponseStreamEvent.outputTextDelta "hi")), .client .deliver, .takes,
      .client (.chunk (OpenAi.ResponseStreamEvent.completed
        { usage := none, status := none, incompleteReason := none, errorMessage := none })),
      .client .deliver, .takes, .client .released, .leaves]
    (fun r => r.state.run.handle.finished) (by decide +kernel)
  obtain ⟨-, hshown, hfaithful, -⟩ := streamed_turns .openaiApi (fun _ => none) promptRun run
  exact ⟨r, hfinished, hshown, hfaithful⟩

end EphemeralAgent.Engine
