import EphemeralAgent.Lib.Transition
import EphemeralAgent.Streams.EventStream

/-!
# Delivery to the consumer

What the consumer of an `EventStream` is given, over every order of the producer's and its own
blocks.  The results of overlapping `next()` calls are taken in the order in which they are given.

* `Flow` — the invariant of a stream and its history
* `Delivered` — no loss, no duplicate, in order, and no call is left waiting for what is there
* `flow_of_run` — **every stream delivers**
-/

namespace EphemeralAgent.Streams

open Lib

variable {E : Type}

/-! ## Histories -/

section History

variable {history items : List (StreamItem E)}

theorem published_append (history items : List (StreamItem E)) :
    published (history ++ items) =
      published history ++ if history.any isClose then [] else published items := by
  induction history with
  | nil => rfl
  | cons item rest ih =>
    cases item with
    | close => rfl
    | push event =>
      show event :: published (rest ++ items) = _
      rw [ih]
      rfl
    | _ => exact ih

theorem answers_append (history items : List (StreamItem E)) :
    answers (history ++ items) = answers history ++ answers items :=
  List.filterMap_append

end History

/-! ## The invariant -/

/-- What a stream is, by what it has shown. -/
structure Flow (s : Streaming (EventStream E)) (history : List (StreamItem E)) : Prop where
  closed : s.stream.closed = history.any isClose
  detached : s.stream.detached = history.any isDetached
  /-- Events first, then only the end; what has not been received is in the buffer. -/
  answered : ∃ received ends, answers history = received.map .event ++ List.replicate ends .done ∧
    received <+: published history ∧
    (s.stream.detached = false → received ++ s.stream.buffer = published history) ∧
    (ends ≠ 0 → s.stream.detached = true ∨ s.stream.closed = true ∧ s.stream.buffer = [])
  dropped : s.stream.detached = true → s.stream.buffer = []
  /-- A call waits only when there is nothing to tell it. -/
  waiting : s.stream.wakers ≠ [] →
    s.stream.buffer = [] ∧ s.stream.closed = false ∧ s.stream.detached = false
  pending : (answers history).length + s.woken.length + s.stream.wakers.length = s.calls
  calls : history.countP isCalled = s.calls
  distinct : (s.stream.wakers ++ s.woken).Nodup
  bounded : ∀ call ∈ s.stream.wakers ++ s.woken, call < s.calls

theorem flow_start : Flow (E := E) (eventStream E).start [] where
  closed := rfl
  detached := rfl
  answered := ⟨[], 0, rfl, List.nil_prefix, fun _ => rfl, fun h => absurd rfl h⟩
  dropped := nofun
  waiting := fun h => absurd rfl h
  pending := rfl
  calls := rfl
  distinct := List.nodup_nil
  bounded := nofun

section Step

variable {s : Streaming (EventStream E)} {history : List (StreamItem E)}

/-- Waking the wakers moves them to the calls that go on. -/
theorem Flow.woken (h : Flow s history) :
    (s.woken ++ s.stream.wakers).Nodup ∧ ∀ call ∈ s.woken ++ s.stream.wakers, call < s.calls := by
  have hperm : (s.woken ++ s.stream.wakers).Perm (s.stream.wakers ++ s.woken) :=
    List.perm_append_comm
  exact ⟨hperm.nodup_iff.mpr h.distinct, fun call hcall => h.bounded call (hperm.mem_iff.mp hcall)⟩

theorem Flow.push (h : Flow s history) (event : E) :
    Flow { s with stream := (s.stream.push event).1, woken := s.woken ++ (s.stream.push event).2 }
      (history ++ [.push event]) := by
  obtain ⟨received, ends, hanswers, hprefix, hbuffer, hends⟩ := h.answered
  have hanswers' : answers (history ++ [.push event]) = answers history := by
    rw [answers_append]
    exact List.append_nil _
  have hpublished := published_append history [.push event]
  unfold EventStream.push
  by_cases hshut : s.stream.detached = true ∨ s.stream.closed = true
  · rw [if_pos hshut]
    simp only [List.append_nil]
    have hsub : published history <+: published (history ++ [.push event]) := by
      rw [hpublished]
      exact List.prefix_append _ _
    refine ⟨?_, ?_, ⟨received, ends, ?_, hprefix.trans hsub, ?_, hends⟩, h.dropped, h.waiting, ?_, ?_,
      h.distinct, h.bounded⟩
    · rw [List.any_append, ← h.closed]
      simp [isClose]
    · rw [List.any_append, ← h.detached]
      simp [isDetached]
    · rw [hanswers']
      exact hanswers
    · intro hlive
      -- the event is dropped because the stream is closed
      have hclosed : s.stream.closed = true := by
        rcases hshut with hdetached | hclosed
        · rw [hlive] at hdetached
          cases hdetached
        · exact hclosed
      rw [hpublished, ← h.closed, if_pos hclosed, List.append_nil]
      exact hbuffer hlive
    · rw [hanswers']
      exact h.pending
    · rw [List.countP_append, h.calls]
      rfl
  · rw [if_neg hshut]
    rw [not_or, Bool.not_eq_true, Bool.not_eq_true] at hshut
    obtain ⟨hlive, hopen⟩ := hshut
    have hnew : published (history ++ [.push event]) = published history ++ [event] := by
      rw [hpublished, ← h.closed, hopen]
      rfl
    dsimp only [EventStream.wake]
    refine ⟨?_, ?_, ⟨received, ends, ?_, ?_, ?_, ?_⟩, ?_, fun hne => absurd rfl hne, ?_, ?_, ?_, ?_⟩
    · rw [List.any_append, ← h.closed]
      simp [isClose]
    · rw [List.any_append, ← h.detached]
      simp [isDetached]
    · rw [hanswers']
      exact hanswers
    · rw [hnew]
      exact hprefix.trans (List.prefix_append _ _)
    · intro _
      rw [hnew, ← hbuffer hlive, List.append_assoc]
    · intro hne
      rcases hends hne with hdetached | ⟨hclosed, -⟩
      · exact Or.inl hdetached
      · rw [hopen] at hclosed
        cases hclosed
    · intro hdetached
      rw [hlive] at hdetached
      cases hdetached
    · have := h.pending
      rw [hanswers', List.length_append]
      simp only [List.length_nil]
      omega
    · rw [List.countP_append, h.calls]
      rfl
    · exact h.woken.1
    · exact h.woken.2

theorem Flow.close (h : Flow s history) :
    Flow { s with stream := s.stream.close.1, woken := s.woken ++ s.stream.close.2 }
      (history ++ [.close]) := by
  obtain ⟨received, ends, hanswers, hprefix, hbuffer, hends⟩ := h.answered
  have hanswers' : answers (history ++ [.close]) = answers history := by
    rw [answers_append]
    exact List.append_nil _
  have hpublished : published (history ++ [.close]) = published history := by
    rw [published_append]
    split <;> exact List.append_nil _
  dsimp only [EventStream.close, EventStream.wake]
  refine ⟨?_, ?_, ⟨received, ends, ?_, ?_, ?_, ?_⟩, h.dropped, fun hne => absurd rfl hne, ?_, ?_, h.woken.1,
    h.woken.2⟩
  · simp [isClose]
  · rw [List.any_append, ← h.detached]
    simp [isDetached]
  · rw [hanswers']
    exact hanswers
  · rw [hpublished]
    exact hprefix
  · rw [hpublished]
    exact hbuffer
  · intro hne
    rcases hends hne with hdetached | ⟨-, hempty⟩
    · exact Or.inl hdetached
    · exact Or.inr ⟨rfl, hempty⟩
  · have := h.pending
    rw [hanswers', List.length_append]
    simp only [List.length_nil]
    omega
  · rw [List.countP_append, h.calls]
    rfl

theorem Flow.detach (h : Flow s history) :
    Flow { s with stream := s.stream.detach.1, woken := s.woken ++ s.stream.detach.2 }
      (history ++ [.detached]) := by
  obtain ⟨received, ends, hanswers, hprefix, hbuffer, hends⟩ := h.answered
  have hanswers' : answers (history ++ [.detached]) = answers history := by
    rw [answers_append]
    exact List.append_nil _
  have hpublished : published (history ++ [.detached]) = published history := by
    rw [published_append]
    split <;> exact List.append_nil _
  dsimp only [EventStream.detach, EventStream.wake]
  refine ⟨?_, ?_, ⟨received, ends, ?_, ?_, nofun, fun _ => Or.inl rfl⟩, fun _ => rfl,
    fun hne => absurd rfl hne, ?_, ?_, h.woken.1, h.woken.2⟩
  · rw [List.any_append, ← h.closed]
    simp [isClose]
  · simp [isDetached]
  · rw [hanswers']
    exact hanswers
  · rw [hpublished]
    exact hprefix
  · have := h.pending
    rw [hanswers', List.length_append]
    simp only [List.length_nil]
    omega
  · rw [List.countP_append, h.calls]
    rfl

/-- `next()` is called: the call is in hand. -/
theorem Flow.called (h : Flow s history) :
    Flow { s with calls := s.calls + 1, woken := s.calls :: s.woken }
      (history ++ [.called s.calls]) := by
  obtain ⟨received, ends, hanswers, hprefix, hbuffer, hends⟩ := h.answered
  have hanswers' : answers (history ++ [.called s.calls]) = answers history := by
    rw [answers_append]
    exact List.append_nil _
  have hpublished : published (history ++ [.called s.calls]) = published history := by
    rw [published_append]
    split <;> exact List.append_nil _
  have hfresh : s.calls ∉ s.stream.wakers ++ s.woken := by
    intro hmem
    exact absurd (h.bounded _ hmem) (Nat.lt_irrefl _)
  have hperm : (s.stream.wakers ++ s.calls :: s.woken).Perm
      (s.calls :: (s.stream.wakers ++ s.woken)) := List.perm_middle
  refine ⟨?_, ?_, ⟨received, ends, ?_, ?_, ?_, hends⟩, h.dropped, h.waiting, ?_, ?_, ?_, ?_⟩
  · rw [List.any_append, ← h.closed]
    simp [isClose]
  · rw [List.any_append, ← h.detached]
    simp [isDetached]
  · rw [hanswers']
    exact hanswers
  · rw [hpublished]
    exact hprefix
  · rw [hpublished]
    exact hbuffer
  · have := h.pending
    rw [hanswers', List.length_cons]
    dsimp only
    omega
  · rw [List.countP_append, h.calls]
    rfl
  · exact hperm.nodup_iff.mpr (List.nodup_cons.mpr ⟨hfresh, h.distinct⟩)
  · intro call hcall
    rcases List.mem_cons.mp (hperm.mem_iff.mp hcall) with rfl | hcall
    · exact Nat.lt_succ_self _
    · exact Nat.lt_succ_of_lt (h.bounded call hcall)

/-- A call whose waker has been called is in hand. -/
theorem Flow.resumed (h : Flow s history) {call : Nat} (hcall : call ∈ s.woken) :
    Flow { s with woken := call :: s.woken.erase call } history := by
  have hperm : (call :: s.woken.erase call).Perm s.woken := (List.perm_cons_erase hcall).symm
  have happend := hperm.append_left s.stream.wakers
  refine ⟨h.closed, h.detached, h.answered, h.dropped, h.waiting, ?_, h.calls,
    happend.nodup_iff.mpr h.distinct, fun other hother => h.bounded other (happend.mem_iff.mp hother)⟩
  rw [hperm.length_eq]
  exact h.pending

/-- The result of a call in hand. -/
theorem Flow.answer {call : Nat} (h : Flow { s with woken := call :: s.woken } history)
    {stream : EventStream E} {result : IteratorResult E}
    (hwakers : stream.wakers = s.stream.wakers) (hclosed : stream.closed = s.stream.closed)
    (hdetached : stream.detached = s.stream.detached)
    (hresult : result = .done ∧ stream.buffer = s.stream.buffer ∧
        (s.stream.detached = true ∨ s.stream.closed = true ∧ s.stream.buffer = []) ∨
      ∃ event, result = .event event ∧ s.stream.detached = false ∧
        s.stream.buffer = event :: stream.buffer) :
    Flow { s with stream } (history ++ [.answered call result]) := by
  obtain ⟨received, ends, hanswers, hprefix, hbuffer, hends⟩ := h.answered
  have hanswers' : answers (history ++ [.answered call result]) = answers history ++ [result] :=
    answers_append _ _
  have hpublished : published (history ++ [.answered call result]) = published history := by
    rw [published_append]
    split <;> exact List.append_nil _
  have hdistinct := h.distinct
  rw [List.perm_middle.nodup_iff, List.nodup_cons] at hdistinct
  refine ⟨?_, ?_, ?_, ?_, ?_, ?_, ?_, ?_, ?_⟩
  · rw [List.any_append, ← h.closed]
    simp [isClose, hclosed]
  · rw [List.any_append, ← h.detached]
    simp [isDetached, hdetached]
  · rw [hanswers', hpublished]
    dsimp only at hbuffer hends ⊢
    rcases hresult with ⟨rfl, hsame, hover⟩ | ⟨event, rfl, hlive, hhead⟩
    · refine ⟨received, ends + 1, ?_, hprefix, ?_, fun _ => ?_⟩
      · rw [hanswers, List.replicate_succ', List.append_assoc]
      · rw [hdetached, hsame]
        exact hbuffer
      · rw [hdetached, hclosed, hsame]
        exact hover
    · -- an event is there, so the end has not been told yet
      have hnone : ends = 0 := by
        by_contra hne
        rcases hends hne with hover | ⟨-, hempty⟩
        · rw [hlive] at hover
          cases hover
        · rw [hhead] at hempty
          cases hempty
      have hall := hbuffer hlive
      rw [hhead] at hall
      refine ⟨received ++ [event], 0, ?_, ?_, ?_, fun hne => absurd rfl hne⟩
      · rw [hanswers, hnone]
        simp
      · rw [← hall]
        exact ⟨stream.buffer, by simp⟩
      · intro _
        rw [← hall]
        simp
  · intro hover
    dsimp only at hover ⊢
    rw [hdetached] at hover
    have hempty : s.stream.buffer = [] := h.dropped hover
    rcases hresult with ⟨-, hsame, -⟩ | ⟨event, -, hlive, -⟩
    · rw [hsame]
      exact hempty
    · rw [hlive] at hover
      cases hover
  · intro hne
    dsimp only at hne ⊢
    rw [hwakers] at hne
    obtain ⟨hempty, hopen, hlive⟩ := h.waiting hne
    rw [hclosed, hdetached]
    refine ⟨?_, hopen, hlive⟩
    rcases hresult with ⟨-, hsame, -⟩ | ⟨event, -, -, hhead⟩
    · rw [hsame]
      exact hempty
    · rw [hhead] at hempty
      cases hempty
  · have := h.pending
    rw [hanswers', List.length_append]
    dsimp only [List.length_cons, List.length_nil] at this ⊢
    rw [hwakers]
    omega
  · rw [List.countP_append, h.calls]
    rfl
  · dsimp only
    rw [hwakers]
    exact hdistinct.2
  · intro other hother
    dsimp only at hother
    rw [hwakers] at hother
    refine h.bounded other ?_
    exact List.perm_middle.mem_iff.mpr (List.mem_cons_of_mem _ hother)

/-- **A turn of a call in hand.** -/
theorem Flow.turn {call : Nat} (h : Flow { s with woken := call :: s.woken } history) :
    Flow ((eventStream E).turn s call).1 (history ++ ((eventStream E).turn s call).2) := by
  simp only [StreamClass.turn, eventStream, EventStream.next]
  by_cases hdetached : s.stream.detached = true
  · rw [if_pos hdetached]
    exact h.answer rfl rfl rfl (Or.inl ⟨rfl, rfl, Or.inl hdetached⟩)
  · rw [if_neg hdetached]
    rw [Bool.not_eq_true] at hdetached
    cases hbuffer : s.stream.buffer with
    | cons event rest => exact h.answer rfl rfl rfl (Or.inr ⟨event, rfl, hdetached, hbuffer⟩)
    | nil =>
      by_cases hclosed : s.stream.closed = true
      · dsimp only
        rw [if_pos hclosed]
        exact h.answer rfl rfl rfl (Or.inl ⟨rfl, rfl, Or.inr ⟨hclosed, hbuffer⟩⟩)
      · dsimp only
        rw [if_neg hclosed]
        rw [Bool.not_eq_true] at hclosed
        -- the call waits, and there is nothing to tell it
        have hperm : ((s.stream.wakers ++ [call]) ++ s.woken).Perm
            (s.stream.wakers ++ call :: s.woken) := by
          rw [List.append_assoc]
          exact .refl _
        have hanswered := h.answered
        dsimp only at hanswered
        rw [hbuffer] at hanswered
        rw [Option.toList_none, List.map_nil, List.append_nil]
        refine ⟨h.closed, h.detached, hanswered, fun _ => rfl, fun _ => ⟨rfl, hclosed, hdetached⟩, ?_,
          h.calls, hperm.nodup_iff.mpr h.distinct, fun other hother => ?_⟩
        · have := h.pending
          rw [List.length_append]
          dsimp only [List.length_cons, List.length_nil] at this ⊢
          omega
        · exact h.bounded other (hperm.mem_iff.mp hother)

/-- The iterator is asked for: nothing that is delivered depends on it. -/
theorem Flow.iterated (h : Flow s history) (consumed iterating : Bool) {item : StreamItem E}
    (hitem : item = .iterator ∨ item = .refused) :
    Flow { s with stream := { s.stream with consumed }, iterating } (history ++ [item]) := by
  have hanswers : answers (history ++ [item]) = answers history := by
    rw [answers_append]
    rcases hitem with rfl | rfl <;> exact List.append_nil _
  have hpublished : published (history ++ [item]) = published history := by
    rw [published_append]
    rcases hitem with rfl | rfl <;> split <;> exact List.append_nil _
  refine ⟨?_, ?_, ?_, h.dropped, h.waiting, ?_, ?_, h.distinct, h.bounded⟩
  · rw [List.any_append, ← h.closed]
    rcases hitem with rfl | rfl <;> simp [isClose]
  · rw [List.any_append, ← h.detached]
    rcases hitem with rfl | rfl <;> simp [isDetached]
  · rw [hanswers, hpublished]
    exact h.answered
  · rw [hanswers]
    exact h.pending
  · rw [List.countP_append, h.calls]
    rcases hitem with rfl | rfl <;> rfl

/-- **One block.** -/
theorem flow_step {label : StreamLabel E} {next : Streaming (EventStream E) × List (StreamItem E)}
    (h : Flow s history) (hstep : (eventStream E).step s label = some next) :
    Flow next.1 (history ++ next.2) := by
  cases label with
  | push event =>
    cases hstep
    exact h.push event
  | close =>
    cases hstep
    exact h.close
  | consumer label =>
    cases label with
    | iterator =>
      simp only [StreamClass.step, StreamClass.consume, eventStream, EventStream.iterator] at hstep
      by_cases hconsumed : s.stream.consumed = true
      · rw [if_pos hconsumed] at hstep
        cases hstep
        exact h.iterated s.stream.consumed s.iterating (Or.inr rfl)
      · rw [if_neg hconsumed] at hstep
        cases hstep
        exact h.iterated true true (Or.inl rfl)
    | next =>
      simp only [StreamClass.step, StreamClass.consume] at hstep
      split at hstep
      · cases hstep
        have hturn := (h.called).turn (s := { s with calls := s.calls + 1 })
        rw [List.append_assoc] at hturn
        exact hturn
      · cases hstep
    | resume call =>
      simp only [StreamClass.step, StreamClass.consume] at hstep
      split at hstep
      · next hcall =>
        cases hstep
        exact (h.resumed hcall).turn (s := { s with woken := s.woken.erase call })
      · cases hstep
    | «return» =>
      simp only [StreamClass.step, StreamClass.consume] at hstep
      split at hstep
      · cases hstep
        exact h.detach
      · cases hstep

end Step

/-! ## Every run -/

/-- **What a stream delivers**, in a state in which `woken` are the calls that go on by themselves. -/
structure Delivered (history : List (StreamItem E)) (woken : List Nat) : Prop where
  /-- Each event once and in order, then only the end; the end is told when the consumer has
  detached, or when the stream is closed and all events have been received. -/
  ordered : ∃ received ends, answers history = received.map .event ++ List.replicate ends .done ∧
    received <+: published history ∧
    (ends ≠ 0 → history.any isDetached = true ∨
      history.any isClose = true ∧ received = published history)
  /-- No call is left waiting while there is an event or an end for it. -/
  prompt : history.any isClose = true ∨ history.any isDetached = true ∨
      (answers history).length < (published history).length →
    (answers history).length + woken.length = history.countP isCalled
  /-- Of a closed stream, a consumer that has not detached gets exactly its events, and then the
  end. -/
  complete : history.any isClose = true → history.any isDetached = false → woken = [] →
    answers history = ((published history).take (history.countP isCalled)).map .event ++
      List.replicate (history.countP isCalled - (published history).length) .done

theorem Flow.delivered {s : Streaming (EventStream E)} {history : List (StreamItem E)}
    (h : Flow s history) : Delivered history s.woken := by
  obtain ⟨received, ends, hanswers, hprefix, hbuffer, hends⟩ := h.answered
  have hpending := h.pending
  have hends' : ends ≠ 0 → history.any isDetached = true ∨
      history.any isClose = true ∧ received = published history := by
    intro hne
    cases hdetached : s.stream.detached with
    | true => exact Or.inl (h.detached ▸ hdetached)
    | false =>
      rcases hends hne with hover | ⟨hclosed, hempty⟩
      · rw [hdetached] at hover
        cases hover
      · have hall := hbuffer hdetached
        rw [hempty, List.append_nil] at hall
        exact Or.inr ⟨h.closed ▸ hclosed, hall⟩
  have hprompt : history.any isClose = true ∨ history.any isDetached = true ∨
      (answers history).length < (published history).length →
      (answers history).length + s.woken.length = history.countP isCalled := by
    intro hthere
    have hnone : s.stream.wakers = [] := by
      by_contra hne
      obtain ⟨hempty, hopen, hlive⟩ := h.waiting hne
      rw [← h.closed, ← h.detached, hopen, hlive] at hthere
      have hall := hbuffer hlive
      rw [hempty, List.append_nil] at hall
      rcases hthere with hthere | hthere | hthere
      · cases hthere
      · cases hthere
      · rw [hanswers, ← hall] at hthere
        simp only [List.length_append, List.length_map] at hthere
        omega
    rw [hnone, List.length_nil] at hpending
    rw [h.calls]
    omega
  refine ⟨⟨received, ends, hanswers, hprefix, hends'⟩, hprompt, ?_⟩
  intro hclosed hlive hwoken
  have hcount := hprompt (Or.inl hclosed)
  rw [hwoken, hanswers] at hcount
  simp only [List.length_append, List.length_map, List.length_replicate, List.length_nil] at hcount
  rw [hanswers]
  by_cases hmore : ends = 0
  · subst hmore
    -- the consumer has not come to the end of the events yet
    have hle := hprefix.length_le
    have hlength : history.countP isCalled = received.length := by omega
    rw [hlength, ← List.prefix_iff_eq_take.mp hprefix, Nat.sub_eq_zero_of_le hle]
  · obtain hover | ⟨-, hall⟩ := hends' hmore
    · rw [hlive] at hover
      cases hover
    · rw [← hall, List.take_of_length_le (by omega)]
      congr 2
      omega

/-- **Every stream delivers.** -/
theorem flow_of_run {ok : Recorded (Streaming (EventStream E)) (StreamItem E) → StreamLabel E → Prop}
    {labels : List (StreamLabel E)} {r : Recorded (Streaming (EventStream E)) (StreamItem E)}
    (run : Run (Recorded.step (eventStream E).step) ok ⟨(eventStream E).start, []⟩ labels r) :
    Flow r.state r.history := by
  refine run.invariant (I := fun r => Flow r.state r.history) flow_start ?_
  intro r label r' _ hr hstep
  obtain ⟨state, items, hstate, rfl⟩ := Recorded.step_cases hstep
  exact flow_step hr hstate

end EphemeralAgent.Streams
