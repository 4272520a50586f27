import EphemeralAgent.Streams.Copies

/-!
# A loop over a stream

A consumer that runs `for await (const event of stream)`: it gets one iterator, makes one call of
`next()` at a time, and tells the iterator to return when the body throws.

* `Loop` — where such a loop stands
* `Taken` — what it has taken, by where it stands
* `Taken.next`, `Taken.resume` — a call waits, or brings the next event or the end
* `Taken.published`, `Taken.ended` — it takes the published events in order, and at its end all
-/

namespace EphemeralAgent.Streams

open Lib

variable {E : Type}

/-- Where a loop over a stream stands. -/
inductive Loop where
  | idle
  /-- No call is out: the loop is at its head or in its body. -/
  | between
  | calling (call : Nat)
  /-- `next()` has told the end. -/
  | ended
  /-- The body has thrown, and the iterator has returned. -/
  | left
  deriving DecidableEq, Repr

namespace Loop

/-- The calls that are out. -/
def calls : Loop → List Nat
  | .calling call => [call]
  | _ => []

def ends : Loop → List (IteratorResult E)
  | .ended => [.done]
  | _ => []

def isIdle : Loop → Bool
  | .idle => true
  | _ => false

def isLeft : Loop → Bool
  | .left => true
  | _ => false

end Loop

/-- The producer of a stream pushes an event or closes it. -/
def StreamLabel.Feeds : StreamLabel E → Prop
  | .push _ | .close => True
  | .consumer _ => False

/-- What the producer does to a stream. -/
def Fed (s : Streaming (EventStream E)) (history : List (StreamItem E))
    (t : Streaming (EventStream E)) (history' : List (StreamItem E)) : Prop :=
  ∃ labels, Run (Recorded.step (eventStream E).step) (fun _ l => l.Feeds) ⟨s, history⟩ labels
    ⟨t, history'⟩

/-- A stream and what the loop over it has taken. -/
structure Taken (s : Streaming (EventStream E)) (history : List (StreamItem E)) (taken : List E)
    (loop : Loop) : Prop where
  flow : Flow s history
  answers : answers history = taken.map .event ++ loop.ends
  pending : (s.stream.wakers ++ s.woken).Perm loop.calls
  iterating : s.iterating = !loop.isIdle
  consumed : s.stream.consumed = s.iterating
  detached : history.any isDetached = loop.isLeft

theorem taken_start : Taken (E := E) (eventStream E).start [] [] .idle where
  flow := flow_start
  answers := rfl
  pending := .refl _
  iterating := rfl
  consumed := rfl
  detached := rfl

section Taken

variable {s t : Streaming (EventStream E)} {history history' : List (StreamItem E)}
  {taken : List E} {loop : Loop}

/-! ## The producer -/

/-- What the producer leaves as it is. -/
structure Untouched (r r' : Recorded (Streaming (EventStream E)) (StreamItem E)) : Prop where
  answers : Streams.answers r'.history = Streams.answers r.history
  pending : (r'.state.stream.wakers ++ r'.state.woken).Perm
    (r.state.stream.wakers ++ r.state.woken)
  iterating : r'.state.iterating = r.state.iterating
  consumed : r'.state.stream.consumed = r.state.stream.consumed
  detached : r'.history.any isDetached = r.history.any isDetached

theorem untouched_feed {r r' : Recorded (Streaming (EventStream E)) (StreamItem E)}
    {label : StreamLabel E} (hlabel : label.Feeds)
    (h : Recorded.step (eventStream E).step r label = some r') : Untouched r r' := by
  obtain ⟨state, items, hstate, rfl⟩ := Recorded.step_cases h
  have hpending : (r.state.woken ++ r.state.stream.wakers).Perm
      (r.state.stream.wakers ++ r.state.woken) := List.perm_append_comm
  cases label with
  | push event =>
    cases hstate
    refine ⟨?_, ?_, rfl, ?_, ?_⟩
    · rw [answers_append]
      exact List.append_nil _
    · simp only [eventStream, EventStream.push]
      split
      · rw [List.append_nil]
      · exact hpending
    · simp only [eventStream, EventStream.push]
      split <;> rfl
    · rw [List.any_append]
      exact Bool.or_false _
  | close =>
    cases hstate
    refine ⟨?_, hpending, rfl, rfl, ?_⟩
    · rw [answers_append]
      exact List.append_nil _
    · rw [List.any_append]
      exact Bool.or_false _
  | consumer label => exact absurd hlabel not_false

/-- **The producer takes nothing.** -/
theorem Taken.fed (h : Taken s history taken loop) (hfed : Fed s history t history') :
    Taken t history' taken loop := by
  obtain ⟨labels, run⟩ := hfed
  refine run.invariant (I := fun r => Taken r.state r.history taken loop) h ?_
  intro r label r' hlabel hr hstep
  have hsame := untouched_feed hlabel hstep
  obtain ⟨state, items, hstate, rfl⟩ := Recorded.step_cases hstep
  exact ⟨flow_step hr.flow hstate, hsame.answers.trans hr.answers, hsame.pending.trans hr.pending,
    hsame.iterating.trans hr.iterating,
    hsame.consumed.trans (hr.consumed.trans hsame.iterating.symm),
    hsame.detached.trans hr.detached⟩

/-! ## The loop -/

theorem Taken.consume (h : Taken s history taken loop) {label : ConsumerLabel}
    {next : Streaming (EventStream E) × List (StreamItem E)}
    (hnext : (eventStream E).consume s label = some next) : Flow next.1 (history ++ next.2) :=
  flow_step h.flow (show (eventStream E).step s (.consumer label) = some next from hnext)

/-- The loop gets its iterator. -/
theorem Taken.iterator (h : Taken s history taken .idle)
    {next : Streaming (EventStream E) × List (StreamItem E)}
    (hnext : (eventStream E).consume s .iterator = some next) :
    next.2 = [.iterator] ∧ Taken next.1 (history ++ next.2) taken .between := by
  have hflow := h.consume hnext
  have hfresh : s.stream.consumed = false := h.consumed.trans h.iterating
  simp only [StreamClass.consume, eventStream, EventStream.iterator, hfresh] at hnext
  cases hnext
  refine ⟨rfl, hflow, ?_, h.pending, rfl, rfl, ?_⟩
  · rw [answers_append]
    exact (List.append_nil _).trans h.answers
  · rw [List.any_append, h.detached]
    rfl

/-- What a turn of a call shows, and what it leaves. -/
theorem turn_cases (s : Streaming (EventStream E)) (call : Nat) :
    ((eventStream E).turn s call).1.woken = s.woken ∧
    ((eventStream E).turn s call).1.iterating = s.iterating ∧
    ((eventStream E).turn s call).1.stream.consumed = s.stream.consumed ∧
    (((eventStream E).turn s call).2 = [] ∧
        ((eventStream E).turn s call).1.stream.wakers = s.stream.wakers ++ [call] ∨
      ∃ result, ((eventStream E).turn s call).2 = [.answered call result] ∧
        ((eventStream E).turn s call).1.stream.wakers = s.stream.wakers) := by
  simp only [StreamClass.turn, eventStream, EventStream.next]
  by_cases hdetached : s.stream.detached = true
  · simp [hdetached]
  · cases hbuffer : s.stream.buffer with
    | cons event rest => simp [hdetached]
    | nil =>
      by_cases hclosed : s.stream.closed = true
      · simp [hdetached, hclosed]
      · simp [hdetached, hclosed]

/-- How a call of `next()` can go on. -/
inductive Turned (taken : List E) (call : Nat) (next : Streaming (EventStream E) × List (StreamItem E))
    (history : List (StreamItem E)) : Prop
  | waits (hanswers : answers next.2 = [])
      (htaken : Taken next.1 (history ++ next.2) taken (.calling call))
  | takes (event : E) (hanswers : answers next.2 = [.event event])
      (htaken : Taken next.1 (history ++ next.2) (taken ++ [event]) .between)
  | ends (hanswers : answers next.2 = [.done])
      (htaken : Taken next.1 (history ++ next.2) taken .ended)

/-- A turn of the one call that is in hand. -/
theorem turned {call : Nat} (called : List (StreamItem E))
    (hcalled : answers called = [] ∧ called.any isDetached = false)
    (hflow : Flow ((eventStream E).turn s call).1
      (history ++ (called ++ ((eventStream E).turn s call).2)))
    (hanswers : answers history = taken.map .event) (hwakers : s.stream.wakers = [])
    (hwoken : s.woken = []) (hiterating : s.iterating = true)
    (hconsumed : s.stream.consumed = s.iterating) (hdetached : history.any isDetached = false) :
    Turned taken call
      (((eventStream E).turn s call).1, called ++ ((eventStream E).turn s call).2) history := by
  obtain ⟨hwoken', hiterating', hconsumed', hcases⟩ := turn_cases s call
  have hnone : ∀ items : List (StreamItem E), items.any isDetached = false →
      (history ++ (called ++ items)).any isDetached = false := by
    intro items hitems
    rw [List.any_append, List.any_append, hdetached, hcalled.2, hitems]
    rfl
  have hold : ∀ items : List (StreamItem E), answers (called ++ items) = answers items := by
    intro items
    rw [answers_append, hcalled.1, List.nil_append]
  have hsame : ((eventStream E).turn s call).1.stream.consumed =
      ((eventStream E).turn s call).1.iterating := by
    rw [hconsumed', hiterating', hconsumed]
  rcases hcases with ⟨hitems, hstays⟩ | ⟨result, hitems, hstays⟩
  · refine .waits ?_ ⟨hflow, ?_, ?_, hiterating'.trans hiterating, hsame, ?_⟩
    · rw [hold, hitems]
      rfl
    · rw [answers_append, hold, hitems, hanswers]
      rfl
    · rw [hstays, hwoken', hwakers, hwoken]
      exact .refl _
    · rw [hitems]
      exact hnone [] rfl
  · have hpending : (((eventStream E).turn s call).1.stream.wakers ++
        ((eventStream E).turn s call).1.woken).Perm [] := by
      rw [hstays, hwoken', hwakers, hwoken]
      exact .refl _
    have hleft : (history ++ (called ++ ((eventStream E).turn s call).2)).any isDetached = false := by
      rw [hitems]
      exact hnone _ rfl
    cases result with
    | event event =>
      refine .takes event ?_ ⟨hflow, ?_, hpending, hiterating'.trans hiterating, hsame, hleft⟩
      · rw [hold, hitems]
        rfl
      · rw [answers_append, hold, hitems, hanswers, List.map_append, List.append_assoc]
        rfl
    | done =>
      refine .ends ?_ ⟨hflow, ?_, hpending, hiterating'.trans hiterating, hsame, hleft⟩
      · rw [hold, hitems]
        rfl
      · rw [answers_append, hold, hitems, hanswers]
        rfl

/-- **The loop calls `next()`.** -/
theorem Taken.next (h : Taken s history taken .between)
    {next : Streaming (EventStream E) × List (StreamItem E)}
    (hnext : (eventStream E).consume s .next = some next) : Turned taken s.calls next history := by
  have hflow := h.consume hnext
  have hiterating : s.iterating = true := h.iterating
  obtain ⟨hwakers, hwoken⟩ := List.append_eq_nil_iff.mp (List.perm_nil.mp h.pending)
  simp only [StreamClass.consume] at hnext
  rw [if_pos hiterating] at hnext
  cases hnext
  refine turned (s := { s with calls := s.calls + 1 }) [.called s.calls] ⟨rfl, rfl⟩ hflow
    ?_ hwakers hwoken hiterating h.consumed h.detached
  rw [h.answers]
  exact List.append_nil _

/-- **The call of `next()` goes on.** -/
theorem Taken.resume {call : Nat} (h : Taken s history taken (.calling call))
    {next : Streaming (EventStream E) × List (StreamItem E)}
    (hnext : (eventStream E).consume s (.resume call) = some next) :
    Turned taken call next history := by
  have hflow := h.consume hnext
  simp only [StreamClass.consume] at hnext
  split at hnext
  · next hcall =>
    cases hnext
    -- the waker has been called, so nothing else is pending
    have hlength := h.pending.length_eq
    rw [List.length_append] at hlength
    have hpos : 0 < s.woken.length := List.length_pos_of_mem hcall
    have hwakers : s.stream.wakers = [] := by
      apply List.length_eq_zero_iff.mp
      simp only [Loop.calls, List.length_singleton] at hlength
      omega
    have hwoken : s.woken.erase call = [] := by
      apply List.length_eq_zero_iff.mp
      rw [List.length_erase_of_mem hcall]
      simp only [Loop.calls, List.length_singleton] at hlength
      omega
    refine turned (s := { s with woken := s.woken.erase call }) [] ⟨rfl, rfl⟩ hflow ?_
      hwakers hwoken h.iterating h.consumed h.detached
    rw [h.answers]
    exact List.append_nil _
  · cases hnext

/-- The body throws. -/
theorem Taken.return (h : Taken s history taken .between)
    {next : Streaming (EventStream E) × List (StreamItem E)}
    (hnext : (eventStream E).consume s .return = some next) :
    Taken next.1 (history ++ next.2) taken .left := by
  have hflow := h.consume hnext
  have hiterating : s.iterating = true := h.iterating
  simp only [StreamClass.consume] at hnext
  rw [if_pos hiterating] at hnext
  cases hnext
  refine ⟨hflow, ?_, ?_, hiterating, h.consumed, ?_⟩
  · rw [answers_append, h.answers]
    exact List.append_nil _
  · have hwake : (s.woken ++ s.stream.wakers).Perm (s.stream.wakers ++ s.woken) :=
      List.perm_append_comm
    exact hwake.trans h.pending
  · rw [List.any_append]
    exact Bool.or_true _

/-! ## What the loop has taken -/

/-- The event of a result. -/
def eventOf : IteratorResult E → Option E
  | .event event => some event
  | .done => none

theorem filterMap_eventOf (events : List E) (ends : List (IteratorResult E))
    (h : ∀ result ∈ ends, result = .done) :
    (events.map IteratorResult.event ++ ends).filterMap eventOf = events := by
  have hnone : ends.filterMap eventOf = [] := by
    rw [List.filterMap_eq_nil_iff]
    intro result hresult
    rw [h result hresult]
    rfl
  rw [List.filterMap_append, hnone, List.append_nil, List.filterMap_map]
  exact List.filterMap_some

/-- What the stream has delivered is what the loop has taken. -/
theorem Taken.delivered (h : Taken s history taken loop) :
    ∃ ends, Streams.answers history = taken.map .event ++ List.replicate ends .done ∧
      taken <+: Streams.published history ∧ (ends ≠ 0 → history.any isDetached = true ∨
        history.any isClose = true ∧ taken = Streams.published history) := by
  obtain ⟨received, ends, hanswers, hfirst, hends⟩ := h.flow.delivered.ordered
  have hloop : ∀ result ∈ loop.ends (E := E), result = .done := by
    cases loop <;> simp [Loop.ends]
  have htaken := filterMap_eventOf taken loop.ends hloop
  rw [← h.answers, hanswers,
    filterMap_eventOf received _ fun result hresult => List.eq_of_mem_replicate hresult] at htaken
  subst htaken
  exact ⟨ends, hanswers, hfirst, hends⟩

/-- **What is taken was published**, in this order. -/
theorem Taken.published (h : Taken s history taken loop) : taken <+: Streams.published history := by
  obtain ⟨-, -, hfirst, -⟩ := h.delivered
  exact hfirst

/-- **A loop that has come to the end has taken everything**, and the stream is closed. -/
theorem Taken.ended (h : Taken s history taken .ended) :
    history.any isClose = true ∧ taken = Streams.published history := by
  obtain ⟨ends, hanswers, -, hends⟩ := h.delivered
  have hsome : ends ≠ 0 := by
    rintro rfl
    rw [h.answers] at hanswers
    exact absurd (List.append_cancel_left hanswers) (List.cons_ne_nil _ _)
  rcases hends hsome with hleft | hall
  · rw [h.detached] at hleft
    cases hleft
  · exact hall

/-- **A call that waits has nothing to bring**, or it has been woken. -/
theorem Taken.prompt {call : Nat} (h : Taken s history taken (.calling call))
    (hthere : history.any isClose = true ∨ taken.length < (Streams.published history).length) :
    call ∈ s.woken := by
  have hlength : (Streams.answers history).length = taken.length := by
    rw [h.answers]
    simp [Loop.ends]
  have hprompt := h.flow.delivered.prompt (by
    rcases hthere with hclosed | hmore
    · exact Or.inl hclosed
    · exact Or.inr (Or.inr (by omega)))
  have hcount := h.flow.pending
  rw [h.flow.calls] at hprompt
  have hwakers : s.stream.wakers = [] := List.length_eq_zero_iff.mp (by omega)
  have hpending := h.pending
  rw [hwakers, List.nil_append] at hpending
  exact hpending.mem_iff.mpr (List.mem_singleton_self call)

end Taken

end EphemeralAgent.Streams
