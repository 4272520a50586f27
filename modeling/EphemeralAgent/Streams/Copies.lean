import EphemeralAgent.Streams.Delivery

/-!
# The copies of the stream

The two `LiveEventStream` classes keep their wakers in a set.  No call registers a waker twice, so
neither class can be told from `EventStream`.

* `Mirrors` — a class whose operations are those of `EventStream`, seen through a function
* `mirrors_step` — each block shows the same
* `same_histories` — **the histories of the class are those of `EventStream`**
-/

namespace EphemeralAgent.Streams

open Lib

variable {E S : Type}

/-- The operations of the class are those of `EventStream`, as long as no waker is added twice. -/
structure Mirrors (c : StreamClass E S) (view : S → EventStream E) : Prop where
  initial : view c.initial = EventStream.initial
  push : ∀ s event, (view (c.push s event).1, (c.push s event).2) = (view s).push event
  close : ∀ s, (view (c.close s).1, (c.close s).2) = (view s).close
  iterator : ∀ s, (c.iterator s).map view = (view s).iterator
  next : ∀ s call, call ∉ (view s).wakers →
    (view (c.next s call).1, (c.next s call).2) = (view s).next call
  detach : ∀ s, (view (c.detach s).1, (c.detach s).2) = (view s).detach

/-! ## The two classes -/

/-- `LiveEventStream` of the nodes, with its wakers in an array. -/
def Nodes.LiveEventStream.view (s : Nodes.LiveEventStream E) : EventStream E :=
  { buffer := s.buffer, wakers := s.wakers.wakers, closed := s.closed, detached := s.detached
    consumed := s.consumed }

/-- `LiveEventStream` of the runs, with its wakers in an array. -/
def Runs.LiveEventStream.view (s : Runs.LiveEventStream E) : EventStream E :=
  { buffer := s.buffer, wakers := s.wakers.wakers, closed := s.closed, detached := s.detached
    consumed := s.consumed }

theorem nodes_mirrors : Mirrors (Nodes.liveEventStream E) Nodes.LiveEventStream.view where
  initial := rfl
  push := by
    rintro ⟨buffer, wakers, closed, detached, consumed⟩ event
    cases closed <;> cases detached <;> rfl
  close := fun _ => rfl
  iterator := by
    rintro ⟨buffer, wakers, closed, detached, consumed⟩
    cases consumed <;> rfl
  next := by
    rintro ⟨buffer, wakers, closed, detached, consumed⟩ call hcall
    have hadd : (wakers.add call).wakers = wakers.wakers ++ [call] := WakerSet.add_wakers hcall
    cases detached with
    | true => rfl
    | false =>
      cases buffer with
      | cons event rest => rfl
      | nil =>
        cases closed with
        | true => rfl
        | false =>
          simp [Nodes.liveEventStream, Nodes.LiveEventStream.next, Nodes.LiveEventStream.view,
            EventStream.next, hadd]
  detach := fun _ => rfl

theorem runs_mirrors : Mirrors (Runs.liveEventStream E) Runs.LiveEventStream.view where
  initial := rfl
  push := by
    rintro ⟨buffer, wakers, closed, detached, consumed⟩ event
    cases closed <;> cases detached <;> rfl
  close := fun _ => rfl
  iterator := by
    rintro ⟨buffer, wakers, closed, detached, consumed⟩
    cases consumed <;> rfl
  next := by
    rintro ⟨buffer, wakers, closed, detached, consumed⟩ call hcall
    have hadd : (wakers.add call).wakers = wakers.wakers ++ [call] := WakerSet.add_wakers hcall
    cases detached with
    | true => rfl
    | false =>
      cases buffer with
      | cons event rest => rfl
      | nil =>
        cases closed with
        | true => rfl
        | false =>
          simp [Runs.liveEventStream, Runs.LiveEventStream.next, Runs.LiveEventStream.view,
            EventStream.next, hadd]
  detach := fun _ => rfl

/-! ## Runs -/

/-- A stream at work, seen as an `EventStream` at work. -/
def Streaming.view (view : S → EventStream E) (s : Streaming S) : Streaming (EventStream E) :=
  { stream := view s.stream, iterating := s.iterating, calls := s.calls, woken := s.woken }

section Mirrors

variable {c : StreamClass E S} {view : S → EventStream E}

theorem mirrors_turn (h : Mirrors c view) (s : Streaming S) {call : Nat}
    (hcall : call ∉ (view s.stream).wakers) :
    ((c.turn s call).1.view view, (c.turn s call).2) = (eventStream E).turn (s.view view) call := by
  have hnext := h.next s.stream call hcall
  have hstream : view (c.next s.stream call).1 = ((view s.stream).next call).1 :=
    congrArg Prod.fst hnext
  have hresult : (c.next s.stream call).2 = ((view s.stream).next call).2 :=
    congrArg Prod.snd hnext
  simp only [StreamClass.turn, Streaming.view, eventStream, hstream, hresult]

/-- **Each block of the class is that of `EventStream`.** -/
theorem mirrors_step (h : Mirrors c view) {s : Streaming S} {history : List (StreamItem E)}
    (hflow : Flow (s.view view) history) (label : StreamLabel E) :
    (c.step s label).map (fun next => (next.1.view view, next.2)) =
      (eventStream E).step (s.view view) label := by
  cases label with
  | push event =>
    have hpush := h.push s.stream event
    have hstream : view (c.push s.stream event).1 = ((view s.stream).push event).1 :=
      congrArg Prod.fst hpush
    have hwoken : (c.push s.stream event).2 = ((view s.stream).push event).2 :=
      congrArg Prod.snd hpush
    simp only [StreamClass.step, Option.map_some, Streaming.view, eventStream, hstream, hwoken]
  | close =>
    have hclose := h.close s.stream
    have hstream : view (c.close s.stream).1 = (view s.stream).close.1 := congrArg Prod.fst hclose
    have hwoken : (c.close s.stream).2 = (view s.stream).close.2 := congrArg Prod.snd hclose
    simp only [StreamClass.step, Option.map_some, Streaming.view, eventStream, hstream, hwoken]
  | consumer label =>
    cases label with
    | iterator =>
      have hiterator := h.iterator s.stream
      simp only [StreamClass.step, StreamClass.consume, Streaming.view, eventStream]
      rw [← hiterator]
      cases c.iterator s.stream <;> rfl
    | next =>
      show Option.map _ (if s.iterating = true then _ else _) = if s.iterating = true then _ else _
      by_cases hiterating : s.iterating = true
      · rw [if_pos hiterating, if_pos hiterating, Option.map_some]
        -- the call that is made now has registered no waker
        have hfresh : s.calls ∉ (view s.stream).wakers := by
          intro hmem
          exact absurd (hflow.bounded s.calls (List.mem_append_left _ hmem)) (Nat.lt_irrefl _)
        have hturn := mirrors_turn h { s with calls := s.calls + 1 } hfresh
        exact congrArg (fun next => some (next.1, StreamItem.called s.calls :: next.2)) hturn
      · rw [if_neg hiterating, if_neg hiterating]
        rfl
    | resume call =>
      show Option.map _ (if call ∈ s.woken then _ else _) = if call ∈ s.woken then _ else _
      by_cases hcall : call ∈ s.woken
      · rw [if_pos hcall, if_pos hcall, Option.map_some]
        have hgone : call ∉ (view s.stream).wakers := fun hmem =>
          (List.nodup_append.mp hflow.distinct).2.2 call hmem call hcall rfl
        exact congrArg some (mirrors_turn h { s with woken := s.woken.erase call } hgone)
      · rw [if_neg hcall, if_neg hcall]
        rfl
    | «return» =>
      have hdetach := h.detach s.stream
      have hstream : view (c.detach s.stream).1 = (view s.stream).detach.1 :=
        congrArg Prod.fst hdetach
      have hwoken : (c.detach s.stream).2 = (view s.stream).detach.2 := congrArg Prod.snd hdetach
      show Option.map _ (if s.iterating = true then _ else _) = if s.iterating = true then _ else _
      by_cases hiterating : s.iterating = true
      · rw [if_pos hiterating, if_pos hiterating]
        simp only [Option.map_some, Streaming.view, eventStream, hstream, hwoken]
      · rw [if_neg hiterating, if_neg hiterating]
        rfl

theorem mirrors_start (h : Mirrors c view) : c.start.view view = (eventStream E).start := by
  simp only [StreamClass.start, Streaming.view, h.initial]
  rfl

/-- A run of the class is a run of `EventStream`. -/
theorem mirrored_run (h : Mirrors c view) {labels : List (StreamLabel E)}
    {r : Recorded (Streaming S) (StreamItem E)}
    (run : Run (Recorded.step c.step) Free ⟨c.start, []⟩ labels r) :
    Run (Recorded.step (eventStream E).step) Free ⟨(eventStream E).start, []⟩ labels
      ⟨r.state.view view, r.history⟩ := by
  induction run with
  | nil =>
    rw [mirrors_start h]
    exact .nil _
  | @snoc r r' labels label run hok hstep ih =>
    obtain ⟨state, items, hstate, rfl⟩ := Recorded.step_cases hstep
    refine .snoc ih trivial ?_
    have hsame := mirrors_step h (flow_of_run ih) label
    rw [hstate, Option.map_some] at hsame
    unfold Recorded.step
    dsimp only
    rw [← hsame]
    rfl

/-- And a run of `EventStream` is one of the class. -/
theorem run_of_mirrored (h : Mirrors c view) {labels : List (StreamLabel E)}
    {r : Recorded (Streaming (EventStream E)) (StreamItem E)}
    (run : Run (Recorded.step (eventStream E).step) Free ⟨(eventStream E).start, []⟩ labels r) :
    ∃ r', Run (Recorded.step c.step) Free ⟨c.start, []⟩ labels r' ∧
      r'.state.view view = r.state ∧ r'.history = r.history := by
  induction run with
  | nil => exact ⟨_, .nil _, mirrors_start h, rfl⟩
  | @snoc r next labels label run hok hstep ih =>
    obtain ⟨r', run', hview, hhistory⟩ := ih
    obtain ⟨state, items, hstate, rfl⟩ := Recorded.step_cases hstep
    have hflow : Flow (r'.state.view view) r.history := by
      rw [hview]
      exact flow_of_run run
    have hsame := mirrors_step h hflow label
    rw [hview, hstate] at hsame
    obtain ⟨⟨state', items'⟩, hstate', heq⟩ := Option.map_eq_some_iff.mp hsame
    cases heq
    refine ⟨{ state := state', history := r'.history ++ items' }, .snoc run' trivial ?_, rfl, ?_⟩
    · unfold Recorded.step
      rw [hstate']
      rfl
    · rw [hhistory]

/-- What a schedule shows of a class. -/
def Shows (c : StreamClass E S) (labels : List (StreamLabel E)) (history : List (StreamItem E))
    (woken : List Nat) : Prop :=
  ∃ r, Run (Recorded.step c.step) Free ⟨c.start, []⟩ labels r ∧ r.history = history ∧
    r.state.woken = woken

/-- **A class that mirrors `EventStream` shows the same under every schedule.** -/
theorem same_histories (h : Mirrors c view) (labels : List (StreamLabel E))
    (history : List (StreamItem E)) (woken : List Nat) :
    Shows c labels history woken ↔ Shows (eventStream E) labels history woken := by
  constructor
  · rintro ⟨r, run, rfl, rfl⟩
    exact ⟨_, mirrored_run h run, rfl, rfl⟩
  · rintro ⟨r, run, rfl, rfl⟩
    obtain ⟨r', run', hview, hhistory⟩ := run_of_mirrored h run
    exact ⟨r', run', hhistory, by rw [← hview]; rfl⟩

end Mirrors

end EphemeralAgent.Streams
