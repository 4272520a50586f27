import EphemeralAgent.Engine.RunHandle
import EphemeralAgent.Streams.Copies

/-!
# The events of a run

`emit` and `finish` of `RunHandle` in `src/agents/engine/run-handle.ts`, over the event stream of the
handle.

* `RunEvents` — a run handle with its event stream
* `RunEvents.step` — one block of the run or of the consumer of its events
* `event_delivery` — **the events are numbered and delivered, and `run_finished` is the last one**
-/

namespace EphemeralAgent.Streams

open Lib Engine

/-- `AgentEventBody`; only `finish` emits `run_finished`. -/
inductive AgentEventBody (T B : Type) where
  | runFinished (outcome : AgentOutcome T)
  | other (body : B)
  deriving DecidableEq

structure AgentEvent (T B : Type) where
  body : AgentEventBody T B
  seq : Nat
  deriving DecidableEq

/-- A run handle with its event stream, and the consumer of that. -/
structure RunEvents (T B : Type) where
  handle : RunHandle T
  seq : Nat
  events : Streaming (EventStream (AgentEvent T B))

inductive RunEventLabel (T B : Type) where
  | emit (body : B)
  | finish (outcome : AgentOutcome T)
  | consumer (label : ConsumerLabel)

/-- What is seen of the events of a run: by the tap, and of the stream. -/
inductive RunEventItem (T B : Type) where
  | emitted (event : AgentEvent T B)
  | stream (item : StreamItem (AgentEvent T B))

namespace RunEvents

variable {T B : Type}

def initial : RunEvents T B :=
  { handle := .initial, seq := 0, events := (eventStream _).start }

/-- A block of the stream. -/
def feed (s : RunEvents T B) (label : StreamLabel (AgentEvent T B)) :
    Option (RunEvents T B × List (RunEventItem T B)) :=
  ((eventStream _).step s.events label).map fun next =>
    ({ s with events := next.1 }, next.2.map .stream)

/-- `emit(body)`: the tap first, then the stream. -/
def emit (s : RunEvents T B) (body : AgentEventBody T B) :
    Option (RunEvents T B × List (RunEventItem T B)) :=
  let event : AgentEvent T B := { body, seq := s.seq }
  (feed { s with seq := s.seq + 1 } (.push event)).map fun next =>
    (next.1, .emitted event :: next.2)

/-- `finish(outcome)`. -/
def finish (s : RunEvents T B) (outcome : AgentOutcome T) :
    Option (RunEvents T B × List (RunEventItem T B)) :=
  if s.handle.finished then some (s, [])
  else
    (emit { s with handle := s.handle.finish outcome } (.runFinished outcome)).bind fun emitted =>
      (emitted.1.feed .close).map fun closed => (closed.1, emitted.2 ++ closed.2)

/-- One synchronous block. -/
def step (s : RunEvents T B) :
    RunEventLabel T B → Option (RunEvents T B × List (RunEventItem T B))
  | .emit body => s.emit (.other body)
  | .finish outcome => s.finish outcome
  | .consumer label => s.feed (.consumer label)

end RunEvents

/-! ## Reading a history -/

section History

variable {T B : Type}

/-- `run_finished`, with its outcome. -/
def AgentEvent.outcome? (event : AgentEvent T B) : Option (AgentOutcome T) :=
  match event.body with
  | .runFinished outcome => some outcome
  | .other _ => none

/-- The events, in the order in which they are stamped. -/
def emitted (history : List (RunEventItem T B)) : List (AgentEvent T B) :=
  history.filterMap fun item =>
    match item with
    | .emitted event => some event
    | .stream _ => none

def streamItems (history : List (RunEventItem T B)) : List (StreamItem (AgentEvent T B)) :=
  history.filterMap fun item =>
    match item with
    | .emitted _ => none
    | .stream item => some item

/-- The events up to the first `run_finished`. -/
def upToFinish : List (AgentEvent T B) → List (AgentEvent T B)
  | [] => []
  | event :: rest => if event.outcome?.isSome then [event] else event :: upToFinish rest

theorem upToFinish_append (events : List (AgentEvent T B)) (event : AgentEvent T B) :
    upToFinish (events ++ [event]) =
      upToFinish events ++ if events.any (·.outcome?.isSome) then [] else [event] := by
  induction events with
  | nil =>
    show (if _ then _ else _) = _
    split <;> rfl
  | cons first rest ih =>
    rw [List.cons_append, upToFinish, upToFinish, List.any_cons]
    by_cases hfirst : first.outcome?.isSome = true
    · simp [hfirst]
    · rw [if_neg hfirst, if_neg hfirst, ih]
      simp [hfirst]

theorem emitted_append (history items : List (RunEventItem T B)) :
    emitted (history ++ items) = emitted history ++ emitted items := List.filterMap_append

theorem streamItems_append (history items : List (RunEventItem T B)) :
    streamItems (history ++ items) = streamItems history ++ streamItems items :=
  List.filterMap_append

theorem emitted_stream (items : List (StreamItem (AgentEvent T B))) :
    emitted (T := T) (B := B) (items.map .stream) = [] := by
  simp [emitted, List.filterMap_map]

theorem streamItems_stream (items : List (StreamItem (AgentEvent T B))) :
    streamItems (T := T) (B := B) (items.map .stream) = items := by
  simp [streamItems, List.filterMap_map]

end History

/-! ## The invariant -/

section Invariant

variable {T B : Type}

/-- The consumer publishes nothing. -/
theorem consume_items {E : Type} {s : Streaming (EventStream E)} {label : ConsumerLabel}
    {next : Streaming (EventStream E) × List (StreamItem E)}
    (h : (eventStream E).consume s label = some next) :
    published next.2 = [] ∧ next.2.any isClose = false := by
  have hanswered : ∀ (call : Nat) (result : Option (IteratorResult E)),
      published (result.toList.map (.answered call)) = [] ∧
        (result.toList.map (StreamItem.answered call)).any isClose = false := by
    intro call result
    cases result <;> exact ⟨rfl, rfl⟩
  cases label with
  | iterator =>
    simp only [StreamClass.consume] at h
    split at h <;> cases h <;> exact ⟨rfl, rfl⟩
  | next =>
    simp only [StreamClass.consume] at h
    split at h
    · cases h
      exact hanswered _ _
    · cases h
  | resume call =>
    simp only [StreamClass.consume] at h
    split at h
    · cases h
      exact hanswered _ _
    · cases h
  | «return» =>
    simp only [StreamClass.consume] at h
    split at h
    · cases h
      exact ⟨rfl, rfl⟩
    · cases h

/-- What the handle is, by what it has emitted. -/
structure Emitting (s : RunEvents T B) (history : List (RunEventItem T B)) : Prop where
  stream : ∃ labels, Run (Recorded.step (eventStream _).step) Free ⟨(eventStream _).start, []⟩ labels
    ⟨s.events, streamItems history⟩
  seq : s.seq = (emitted history).length
  stamped : (emitted history).map (·.seq) = List.range (emitted history).length
  published : published (streamItems history) = upToFinish (emitted history)
  closed : (streamItems history).any isClose = s.handle.finished
  finished : (emitted history).any (·.outcome?.isSome) = s.handle.finished
  outcome : (emitted history).filterMap (·.outcome?) = s.handle.outcome.toList
  resolved : s.handle.outcome.isSome = s.handle.finished

theorem emitting_initial : Emitting (T := T) (B := B) .initial [] where
  stream := ⟨[], .nil _⟩
  seq := rfl
  stamped := rfl
  published := rfl
  closed := rfl
  finished := rfl
  outcome := rfl
  resolved := rfl

variable {s : RunEvents T B} {history : List (RunEventItem T B)}

/-- A block of the consumer. -/
theorem Emitting.consumed (h : Emitting s history) {label : ConsumerLabel}
    {next : RunEvents T B × List (RunEventItem T B)} (hstep : s.feed (.consumer label) = some next) :
    Emitting next.1 (history ++ next.2) := by
  obtain ⟨⟨events, items⟩, hnext, rfl⟩ := Option.map_eq_some_iff.mp hstep
  obtain ⟨labels, run⟩ := h.stream
  obtain ⟨hpublished, hclosed⟩ := consume_items hnext
  have hemitted : emitted (history ++ items.map .stream) = emitted history := by
    rw [emitted_append, emitted_stream, List.append_nil]
  have hstream : streamItems (history ++ items.map .stream) = streamItems history ++ items := by
    rw [streamItems_append, streamItems_stream]
  dsimp only at hpublished hclosed ⊢
  refine ⟨⟨labels ++ [.consumer label], ?_⟩, ?_, ?_, ?_, ?_, ?_, ?_, h.resolved⟩
  · rw [hstream]
    exact .snoc run trivial (by rw [Recorded.step, hnext]; rfl)
  · rw [hemitted]
    exact h.seq
  · rw [hemitted]
    exact h.stamped
  · rw [hstream, hemitted, published_append, hpublished, ite_self, List.append_nil]
    exact h.published
  · rw [hstream, List.any_append, hclosed, Bool.or_false]
    exact h.closed
  · rw [hemitted]
    exact h.finished
  · rw [hemitted]
    exact h.outcome

/-- The stream of a run after a block. -/
theorem Emitting.fed (h : Emitting s history) {label : StreamLabel (AgentEvent T B)}
    {events : Streaming (EventStream (AgentEvent T B))} {items : List (StreamItem (AgentEvent T B))}
    (hnext : (eventStream _).step s.events label = some (events, items)) :
    ∃ labels, Run (Recorded.step (eventStream _).step) Free ⟨(eventStream _).start, []⟩ labels
      ⟨events, streamItems history ++ items⟩ := by
  obtain ⟨labels, run⟩ := h.stream
  exact ⟨labels ++ [label], .snoc run trivial (by rw [Recorded.step, hnext]; rfl)⟩

/-- An event that is not `run_finished`. -/
theorem Emitting.emit (h : Emitting s history) {body : B}
    {next : RunEvents T B × List (RunEventItem T B)} (hstep : s.emit (.other body) = some next) :
    Emitting next.1 (history ++ next.2) := by
  let event : AgentEvent T B := { body := .other body, seq := s.seq }
  unfold RunEvents.emit at hstep
  obtain ⟨fed, hfed, rfl⟩ := Option.map_eq_some_iff.mp hstep
  obtain ⟨⟨events, items⟩, hnext, rfl⟩ := Option.map_eq_some_iff.mp hfed
  have hitems : items = [.push event] := by
    cases hnext
    rfl
  obtain ⟨labels, run⟩ := h.fed hnext
  have hemitted : emitted (history ++ .emitted event :: items.map .stream) =
      emitted history ++ [event] := by
    rw [emitted_append, hitems]
    rfl
  have hstream : streamItems (history ++ .emitted event :: items.map .stream) =
      streamItems history ++ items := by
    rw [streamItems_append, hitems]
    rfl
  have hnot : event.outcome? = none := rfl
  dsimp only
  refine ⟨⟨labels, ?_⟩, ?_, ?_, ?_, ?_, ?_, ?_, h.resolved⟩
  · rw [hstream]
    exact run
  · rw [hemitted, List.length_append, ← h.seq]
    rfl
  · rw [hemitted, List.map_append, h.stamped, List.length_append, List.length_singleton,
      List.range_succ, ← h.seq]
    rfl
  · rw [hstream, hemitted, published_append, upToFinish_append, h.published, h.closed, h.finished,
      hitems]
    rfl
  · rw [hstream, List.any_append, h.closed, hitems]
    exact Bool.or_false _
  · rw [hemitted, List.any_append, h.finished]
    exact Bool.or_false _
  · rw [hemitted, List.filterMap_append, h.outcome, List.filterMap_cons_none hnot]
    exact List.append_nil _

/-- `finish` of a run that has not finished. -/
theorem Emitting.finish (h : Emitting s history) (hlive : s.handle.finished = false)
    (outcome : AgentOutcome T) {next : RunEvents T B × List (RunEventItem T B)}
    (hstep : s.finish outcome = some next) : Emitting next.1 (history ++ next.2) := by
  let event : AgentEvent T B := { body := .runFinished outcome, seq := s.seq }
  have hhandle : (s.handle.finish outcome).finished = true ∧
      (s.handle.finish outcome).outcome = some outcome := by
    unfold RunHandle.finish
    rw [hlive]
    exact ⟨rfl, rfl⟩
  unfold RunEvents.finish at hstep
  rw [hlive, if_neg nofun] at hstep
  obtain ⟨pushed, hpushed, hstep⟩ := Option.bind_eq_some_iff.mp hstep
  obtain ⟨closed, hclosed, rfl⟩ := Option.map_eq_some_iff.mp hstep
  unfold RunEvents.emit at hpushed
  obtain ⟨fed, hfed, rfl⟩ := Option.map_eq_some_iff.mp hpushed
  obtain ⟨⟨events, items⟩, hnext, rfl⟩ := Option.map_eq_some_iff.mp hfed
  obtain ⟨⟨events', items'⟩, hnext', rfl⟩ := Option.map_eq_some_iff.mp hclosed
  have hitems : items = [.push event] := by
    cases hnext
    rfl
  have hitems' : items' = [.close] := by
    cases hnext'
    rfl
  -- the event first, then the close: two labels of the stream
  obtain ⟨labels, run⟩ := h.fed hnext
  have run' : Run (Recorded.step (eventStream _).step) Free ⟨(eventStream _).start, []⟩
      (labels ++ [.close]) ⟨events', streamItems history ++ items ++ items'⟩ :=
    .snoc run trivial (by
      dsimp only at hnext'
      rw [Recorded.step, hnext']
      rfl)
  have hemitted : emitted (history ++ (.emitted event :: items.map .stream ++ items'.map .stream)) =
      emitted history ++ [event] := by
    rw [emitted_append, hitems, hitems']
    rfl
  have hstream : streamItems
      (history ++ (.emitted event :: items.map .stream ++ items'.map .stream)) =
      streamItems history ++ items ++ items' := by
    rw [streamItems_append, hitems, hitems', List.append_assoc]
    rfl
  -- nothing has been closed or resolved before
  have hopen : (streamItems history).any isClose = false := h.closed.trans hlive
  have hnone : (emitted history).any (·.outcome?.isSome) = false := h.finished.trans hlive
  have houtcome : s.handle.outcome = none := by
    have := h.resolved.trans hlive
    simpa using this
  dsimp only
  refine ⟨⟨labels ++ [.close], ?_⟩, ?_, ?_, ?_, ?_, ?_, ?_, ?_⟩
  · rw [hstream]
    exact run'
  · rw [hemitted, List.length_append, ← h.seq]
    rfl
  · rw [hemitted, List.map_append, h.stamped, List.length_append, List.length_singleton,
      List.range_succ, ← h.seq]
    rfl
  · rw [hstream, hemitted, List.append_assoc, published_append, upToFinish_append, h.published,
      hopen, hnone, hitems, hitems']
    rfl
  · rw [hstream, hhandle.1, hitems']
    simp [isClose]
  · rw [hemitted, hhandle.1]
    simp [event, AgentEvent.outcome?]
  · rw [hemitted, List.filterMap_append, h.outcome, houtcome, hhandle.2]
    rfl
  · rw [hhandle.1, hhandle.2]
    rfl

/-- **One block.** -/
theorem emitting_step {label : RunEventLabel T B} {next : RunEvents T B × List (RunEventItem T B)}
    (h : Emitting s history) (hstep : s.step label = some next) :
    Emitting next.1 (history ++ next.2) := by
  cases label with
  | emit body => exact h.emit hstep
  | finish outcome =>
    cases hfinished : s.handle.finished with
    | false => exact h.finish hfinished outcome hstep
    | true =>
      simp only [RunEvents.step, RunEvents.finish, hfinished, if_pos] at hstep
      cases hstep
      rw [List.append_nil]
      exact h
  | consumer label => exact h.consumed hstep

end Invariant

/-! ## Every run -/

section Runs

variable {T B : Type}

/-- **The events of a run and their delivery.** -/
structure EventsDelivered (s : RunEvents T B) (history : List (RunEventItem T B)) : Prop where
  /-- The stamps are 0, 1, 2, … -/
  stamped : (emitted history).map (·.seq) = List.range (emitted history).length
  /-- `run_finished` is emitted once, when the run has finished, with the outcome of the handle. -/
  finished : (emitted history).filterMap (·.outcome?) = s.handle.outcome.toList
  /-- What the stream has to deliver ends with it. -/
  published : published (streamItems history) = upToFinish (emitted history)
  closed : (streamItems history).any isClose = s.handle.outcome.isSome
  delivered : Delivered (streamItems history) s.events.woken

theorem Emitting.events {s : RunEvents T B} {history : List (RunEventItem T B)}
    (h : Emitting s history) : EventsDelivered s history := by
  obtain ⟨labels, run⟩ := h.stream
  exact ⟨h.stamped, h.outcome, h.published, h.closed.trans h.resolved.symm,
    (flow_of_run run).delivered⟩

theorem emitting_of_run {labels : List (RunEventLabel T B)}
    {r : Recorded (RunEvents T B) (RunEventItem T B)}
    (run : Run (Recorded.step RunEvents.step) Free ⟨.initial, []⟩ labels r) :
    Emitting r.state r.history := by
  refine run.invariant (I := fun r => Emitting r.state r.history) emitting_initial ?_
  intro r label r' _ hr hstep
  obtain ⟨state, items, hstate, rfl⟩ := Recorded.step_cases hstep
  exact emitting_step hr hstate

/-- The outcome that a label brings. -/
def RunEventLabel.finish? : RunEventLabel T B → Option (AgentOutcome T)
  | .finish outcome => some outcome
  | _ => none

/-- The first `finish` gives the run its outcome. -/
theorem outcome_step {s : RunEvents T B} {label : RunEventLabel T B}
    {next : RunEvents T B × List (RunEventItem T B)}
    (hresolved : s.handle.outcome.isSome = s.handle.finished) (hstep : s.step label = some next) :
    next.1.handle.outcome = s.handle.outcome.or label.finish? := by
  -- the stream leaves the handle alone
  have hfeed : ∀ {s : RunEvents T B} {label : StreamLabel (AgentEvent T B)}
      {next : RunEvents T B × List (RunEventItem T B)}, s.feed label = some next →
      next.1.handle = s.handle := by
    intro s label next h
    obtain ⟨_, -, rfl⟩ := Option.map_eq_some_iff.mp h
    rfl
  have hemit : ∀ {s : RunEvents T B} {body : AgentEventBody T B}
      {next : RunEvents T B × List (RunEventItem T B)}, s.emit body = some next →
      next.1.handle = s.handle := by
    intro s body next h
    unfold RunEvents.emit at h
    obtain ⟨fed, hfed, rfl⟩ := Option.map_eq_some_iff.mp h
    have hhandle := hfeed hfed
    exact hhandle
  cases label with
  | emit body =>
    rw [hemit hstep]
    exact (Option.or_none).symm
  | consumer label =>
    rw [hfeed hstep]
    exact (Option.or_none).symm
  | finish outcome =>
    simp only [RunEvents.step, RunEvents.finish] at hstep
    cases hfinished : s.handle.finished with
    | true =>
      rw [hfinished, if_pos rfl] at hstep
      cases hstep
      rw [hfinished] at hresolved
      obtain ⟨first, hfirst⟩ := Option.isSome_iff_exists.mp hresolved
      rw [hfirst]
      rfl
    | false =>
      rw [hfinished, if_neg nofun] at hstep
      obtain ⟨pushed, hpushed, hstep⟩ := Option.bind_eq_some_iff.mp hstep
      obtain ⟨closed, hclosed, rfl⟩ := Option.map_eq_some_iff.mp hstep
      have hnone : s.handle.outcome = none := by
        rw [hfinished] at hresolved
        simpa using hresolved
      show closed.1.handle.outcome = _
      rw [hfeed hclosed, hemit hpushed, hnone]
      simp [RunHandle.finish, hfinished, RunEventLabel.finish?]

theorem outcome_of_run {labels : List (RunEventLabel T B)}
    {r : Recorded (RunEvents T B) (RunEventItem T B)}
    (run : Run (Recorded.step RunEvents.step) Free ⟨.initial, []⟩ labels r) :
    r.state.handle.outcome = labels.findSome? RunEventLabel.finish? := by
  induction run with
  | nil => rfl
  | @snoc r r' labels label run hok hstep ih =>
    obtain ⟨state, items, hstate, rfl⟩ := Recorded.step_cases hstep
    have hlast : [label].findSome? RunEventLabel.finish? = label.finish? := by
      rw [List.findSome?_cons]
      cases label.finish? <;> rfl
    rw [outcome_step (emitting_of_run run).resolved hstate, ih, List.findSome?_append, hlast]

/-- **Every run of a handle emits and delivers its events**, its outcome is that of the first
`finish`, and the two copies of the stream deliver the same under every schedule. -/
theorem event_delivery {E : Type} :
    (∀ (labels : List (RunEventLabel T B)) (r : Recorded (RunEvents T B) (RunEventItem T B)),
      Run (Recorded.step RunEvents.step) Free ⟨.initial, []⟩ labels r →
        EventsDelivered r.state r.history ∧
          r.state.handle.outcome = labels.findSome? RunEventLabel.finish?) ∧
    (∀ labels history woken, Shows (eventStream E) labels history woken →
      Delivered history woken) ∧
    (∀ labels history woken, Shows (Nodes.liveEventStream E) labels history woken ↔
      Shows (eventStream E) labels history woken) ∧
    ∀ labels history woken, Shows (Runs.liveEventStream E) labels history woken ↔
      Shows (eventStream E) labels history woken := by
  refine ⟨?_, ?_, same_histories nodes_mirrors, same_histories runs_mirrors⟩
  · intro labels r run
    exact ⟨(emitting_of_run run).events, outcome_of_run run⟩
  · rintro labels history woken ⟨r, run, rfl, rfl⟩
    exact (flow_of_run run).delivered

end Runs

/-- The blocks of a run whose consumer waits before the first event and goes on to the end; an event
comes after `finish`, and `finish` is called twice. -/
def sampleEvents : List (RunEventLabel Unit Nat) :=
  let outcome : AgentOutcome Unit :=
    { usage := ⟨0, 0, none, none⟩, turns := 0, status := .cancelled }
  [.consumer .iterator, .consumer .next, .emit 7, .consumer (.resume 0), .emit 8, .finish outcome,
    .emit 9, .finish { outcome with turns := 1 }, .consumer .next, .consumer .next, .consumer .next]

theorem event_delivery_late :
    ∃ r : Recorded (RunEvents Unit Nat) (RunEventItem Unit Nat),
      (answers (streamItems r.history)).length = 4 ∧ (emitted r.history).length = 4 ∧
        EventsDelivered r.state r.history := by
  obtain ⟨r, run, hr⟩ := exists_run (Recorded.step RunEvents.step) Free ⟨.initial, []⟩ sampleEvents
    (fun r => (answers (streamItems r.history)).length == 4 && (emitted r.history).length == 4)
    (by decide +kernel)
  rw [Bool.and_eq_true, beq_iff_eq, beq_iff_eq] at hr
  exact ⟨r, hr.1, hr.2, ((event_delivery (E := Unit)).1 sampleEvents r run).1⟩

end EphemeralAgent.Streams
