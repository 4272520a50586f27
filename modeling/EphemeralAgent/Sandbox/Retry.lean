import EphemeralAgent.Lib.Transition
import EphemeralAgent.Sandbox.Once

/-!
# Retries of a gateway call

`#withRetry` of `SandboxGatewayClient`: an attempt whose connection is refused is followed by another
one after a delay, at most three times.  Events reach every socket that was opened, also those of
attempts that are over.

* `Call`, `start`, `step` — the loop over the attempts
* `SocketContract` — what a socket reports of its connection
* `step_cases` — what one step does
* `Retried`, `retried_of_run` — what the attempts of a call have come to
-/

namespace EphemeralAgent.Sandbox

open Lib

/-- `CONNECT_RETRY_DELAYS_MS`. -/
def connectRetryDelaysMs : List Nat := [100, 250, 500]

/-- Where `#withRetry` waits. -/
inductive Phase where
  | attempting
  | delaying
  | done (settlement : Settlement)

/-- A call of `#withRetry`: its attempts in order, and its signal. -/
structure Call where
  attempts : List Attempt
  phase : Phase
  signal : Option Bool

/-- An event of a socket or of its timer, the abort of the signal, or one of the two continuations
of the loop. -/
inductive Label where
  | delivered (i : Nat) (e : Event)
  | abort
  | resumed
  | elapsed

namespace Call

/-- The loop before its first `await`. -/
def start (signal : Option Bool) : Call :=
  { attempts := [.start signal], phase := .attempting, signal }

/-- The settlement that the current attempt has come to. -/
def settlement? (s : Call) : Option Settlement :=
  (s.attempts[s.attempts.length - 1]?).bind (·.settlements.head?)

def step (host : GatewayHost) (line : List Char) (s : Call) : Label → Option Call
  | .delivered i e =>
    if i < s.attempts.length ∧ e ≠ .abort then
      some { s with attempts := s.attempts.modify i (·.deliver host line e) }
    else none
  | .abort =>
    if s.signal = some false then
      some { s with attempts := s.attempts.map (·.deliver host line .abort), signal := some true }
    else none
  | .resumed =>
    match s.phase, s.settlement? with
    | .attempting, some (.ok response) => some { s with phase := .done (.ok response) }
    | .attempting, some (.error error) =>
      if !isConnectionRefused error || s.attempts.length - 1 == connectRetryDelaysMs.length then
        some { s with phase := .done (.error error) }
      else some { s with phase := .delaying }
    | _, _ => none
  | .elapsed =>
    match s.phase with
    | .delaying => some { s with attempts := s.attempts ++ [.start s.signal], phase := .attempting }
    | _ => none

/-- The lines that a call has written, over all its sockets. -/
def writes (s : Call) : List (List Char) :=
  s.attempts.flatMap (·.written)

/-- The number of sockets that a call has opened. -/
def sockets (s : Call) : Nat :=
  s.attempts.countP (·.opened)

end Call

/-! ## Events of one socket -/

def Label.event? (i : Nat) : Label → Option Event
  | .delivered j e => if j = i then some e else none
  | _ => none

/-- The events that were delivered to one socket. -/
def eventsOf (i : Nat) (ls : List Label) : List Event :=
  ls.filterMap (·.event? i)

theorem eventsOf_concat (i : Nat) (ls : List Label) (l : Label) :
    eventsOf i (ls ++ [l]) = eventsOf i ls ++ (l.event? i).toList := by
  unfold eventsOf
  rw [List.filterMap_append]
  cases h : l.event? i <;> simp [h]

/-- A socket connects once at most, and does not when it reports `ECONNREFUSED`. -/
structure SocketContract (events : List Event) : Prop where
  once : events.count .connect ≤ 1
  refused : ∀ error, isConnectionRefused error = true → .error error ∈ events →
    .connect ∉ events

/-! ## What one step does -/

section Step

variable {host : GatewayHost} {line : List Char} {s s' : Call} {l : Label}

/-- Each attempt has received an event or stays as it is. -/
def Delivered (host : GatewayHost) (line : List Char) (l : Label) (s s' : Call) : Prop :=
  s'.attempts.length = s.attempts.length ∧
    ∀ i a', s'.attempts[i]? = some a' → ∃ a, s.attempts[i]? = some a ∧
      (a' = a ∨ ∃ e, a' = a.deliver host line e ∧ (e = .abort ∨ l.event? i = some e))

/-- **A step delivers events, goes on after an attempt, or starts the next attempt.** -/
theorem step_cases (h : s.step host line l = some s') :
    (Delivered host line l s s' ∧ s'.phase = s.phase ∧
      (s'.signal = s.signal ∨ s.signal = some false ∧ s'.signal = some true)) ∨
    (l = .resumed ∧ s.phase = .attempting ∧ ∃ settlement, s.settlement? = some settlement ∧
      ((s' = { s with phase := .done settlement } ∧
          ∀ error, settlement = .error error → isConnectionRefused error = true →
            s.attempts.length = 4) ∨
        ∃ error, settlement = .error error ∧ isConnectionRefused error = true ∧
          s.attempts.length ≠ 4 ∧ s' = { s with phase := .delaying })) ∨
    (l = .elapsed ∧ s.phase = .delaying ∧
      s' = { s with attempts := s.attempts ++ [.start s.signal], phase := .attempting }) := by
  unfold Call.step at h
  cases l with
  | delivered i e =>
    simp only at h
    split at h
    · simp only [Option.some.injEq] at h
      subst h
      refine Or.inl ⟨⟨by simp, fun j a' ha' => ?_⟩, rfl, Or.inl rfl⟩
      -- the event reaches the attempt it is about, and no other
      simp only [List.getElem?_modify, Option.map_eq_map, Option.map_eq_some_iff] at ha'
      obtain ⟨a, ha, rfl⟩ := ha'
      refine ⟨a, ha, ?_⟩
      by_cases hij : i = j
      · exact Or.inr ⟨e, if_pos hij, Or.inr (if_pos hij)⟩
      · exact Or.inl (if_neg hij)
    · cases h
  | abort =>
    simp only at h
    split at h
    · next hsignal =>
      simp only [Option.some.injEq] at h
      subst h
      refine Or.inl ⟨⟨by simp, fun j a' ha' => ?_⟩, rfl, Or.inr ⟨hsignal, rfl⟩⟩
      simp only [List.getElem?_map, Option.map_eq_some_iff] at ha'
      obtain ⟨a, ha, rfl⟩ := ha'
      exact ⟨a, ha, Or.inr ⟨.abort, rfl, Or.inl rfl⟩⟩
    · cases h
  | resumed =>
    simp only at h
    split at h
    · next response hphase hsettlement =>
      simp only [Option.some.injEq] at h
      exact Or.inr (Or.inl ⟨rfl, hphase, _, hsettlement, Or.inl ⟨h.symm, nofun⟩⟩)
    · next error hphase hsettlement =>
      refine Or.inr (Or.inl ⟨rfl, hphase, _, hsettlement, ?_⟩)
      split at h
      · next hlast =>
        simp only [Option.some.injEq] at h
        refine Or.inl ⟨h.symm, ?_⟩
        intro error' heq hrefused
        cases heq
        -- a refusal is thrown only when the delays are used up
        simp only [hrefused, connectRetryDelaysMs, List.length_cons, List.length_nil,
          Bool.not_true, Bool.false_or, beq_iff_eq] at hlast
        omega
      · next hnext =>
        simp only [Option.some.injEq] at h
        simp only [connectRetryDelaysMs, List.length_cons, List.length_nil, Bool.or_eq_true,
          Bool.not_eq_true', beq_iff_eq, not_or, Bool.not_eq_false] at hnext
        exact Or.inr ⟨error, rfl, hnext.1, by omega, h.symm⟩
    · cases h
  | elapsed =>
    simp only at h
    split at h
    · next hphase =>
      simp only [Option.some.injEq] at h
      exact Or.inr (Or.inr ⟨rfl, hphase, h.symm⟩)
    · cases h

end Step

/-! ## One attempt among others -/

/-- What an attempt owes to the events of its socket. -/
structure Attempted (line : List Char) (signal : Option Bool) (events : List Event)
    (a : Attempt) : Prop where
  coherent : a.Coherent signal
  lines : ∀ text ∈ a.written, text = line
  writes : a.written.length ≤ events.count .connect
  refused : ∀ error, .error error ∈ a.settlements → isConnectionRefused error = true →
    .error error ∈ events

section Attempted

variable {host : GatewayHost} {line : List Char} {signal : Option Bool} {events : List Event}
  {a : Attempt}

theorem attempted_start {signal' : Option Bool} (h : signal'.isSome = signal.isSome) :
    Attempted line signal events (.start signal') := by
  have hcoherent := Attempt.coherent_start signal'
  refine ⟨⟨hcoherent.settled, hcoherent.once, hcoherent.closed, ?_⟩, ?_, ?_, ?_⟩
  · rw [← h]
    exact hcoherent.armed
  all_goals unfold Attempt.start; split
  · simp
  · simp
  · simp
  · simp
  · intro error herror hrefused
    simp only [List.mem_singleton, Except.error.injEq] at herror
    rw [herror] at hrefused
    cases hrefused
  · simp

theorem Attempted.more (h : Attempted line signal events a) (more : List Event) :
    Attempted line signal (events ++ more) a := by
  refine ⟨h.coherent, h.lines, ?_, fun error herror hrefused => ?_⟩
  · rw [List.count_append]
    exact Nat.le_add_right_of_le h.writes
  · exact List.mem_append_left _ (h.refused error herror hrefused)

theorem mem_finish {settlement other : Settlement} (h : other ∈ (a.finish settlement).settlements) :
    other ∈ a.settlements ∨ other = settlement := by
  unfold Attempt.finish at h
  split at h
  · exact Or.inl h
  · rwa [List.mem_append, List.mem_singleton] at h

theorem written_finish (settlement : Settlement) : (a.finish settlement).written = a.written := by
  unfold Attempt.finish
  split <;> rfl

theorem opened_finish (settlement : Settlement) : (a.finish settlement).opened = a.opened := by
  unfold Attempt.finish
  split <;> rfl

theorem opened_deliver (e : Event) : (a.deliver host line e).opened = a.opened := by
  unfold Attempt.deliver
  split <;> split <;> simp [opened_finish]

/-- Only a connection writes the line, and it writes it once. -/
theorem written_deliver (host : GatewayHost) (line : List Char) (a : Attempt) (e : Event) :
    (a.deliver host line e).written = a.written ∨
      e = .connect ∧ (a.deliver host line e).written = a.written ++ [line] := by
  cases e with
  | connect =>
    simp only [Attempt.deliver]
    split
    · exact Or.inr ⟨trivial, rfl⟩
    · exact Or.inl rfl
  | data | error | close | timer | abort =>
    simp only [Attempt.deliver]
    split
    · first | exact Or.inl (written_finish _) | exact Or.inl rfl
    · exact Or.inl rfl

/-- **Only the socket refuses a connection.** -/
theorem refused_deliver {e : Event} {error : CallError}
    (h : .error error ∈ (a.deliver host line e).settlements)
    (hrefused : isConnectionRefused error = true) :
    .error error ∈ a.settlements ∨ e = .error error := by
  cases e with
  | connect | data =>
    simp only [Attempt.deliver] at h
    split at h <;> exact Or.inl h
  | error other =>
    simp only [Attempt.deliver] at h
    split at h
    · rcases mem_finish h with h | h
      · exact Or.inl h
      · cases h
        exact Or.inr rfl
    · exact Or.inl h
  | close =>
    simp only [Attempt.deliver] at h
    split at h
    · rcases mem_finish h with h | h
      · exact Or.inl h
      · rw [decodeResponse_not_refused h.symm] at hrefused
        cases hrefused
    · exact Or.inl h
  | timer | abort =>
    simp only [Attempt.deliver] at h
    split at h
    · rcases mem_finish h with h | h
      · exact Or.inl h
      · cases h
        cases hrefused
    · exact Or.inl h

theorem Attempted.deliver {l : Label} {i : Nat} {e : Event} (h : Attempted line signal events a)
    (he : e = .abort ∨ l.event? i = some e) :
    Attempted line signal (events ++ (l.event? i).toList) (a.deliver host line e) := by
  have hmore := h.more (l.event? i).toList
  refine ⟨Attempt.coherent_deliver h.coherent e, ?_, ?_, ?_⟩
  · rcases written_deliver host line a e with heq | ⟨-, heq⟩
    · rw [heq]
      exact h.lines
    · rw [heq]
      intro text htext
      rw [List.mem_append, List.mem_singleton] at htext
      rcases htext with htext | rfl
      · exact h.lines text htext
      · rfl
  · rcases written_deliver host line a e with heq | ⟨rfl, heq⟩
    · rw [heq]
      exact hmore.writes
    · have hevent : l.event? i = some .connect := by
        rcases he with he | he
        · cases he
        · exact he
      have hwrites := h.writes
      rw [heq, hevent, List.count_append, List.length_append]
      simp only [Option.toList_some, List.count_singleton_self, List.length_singleton]
      omega
  · intro error herror hrefused
    rcases refused_deliver herror hrefused with hold | rfl
    · exact List.mem_append_left _ (h.refused error hold hrefused)
    · rcases he with he | he
      · cases he
      · rw [he]
        simp

/-- A settled attempt keeps its settlements. -/
theorem Attempted.settlements_deliver (h : Attempted line signal events a) {settlement : Settlement}
    (hsettled : a.settlements = [settlement]) (e : Event) :
    (a.deliver host line e).settlements = [settlement] := by
  have hdone : a.settled = true := by
    rw [h.coherent.settled, hsettled]
    simp
  rw [(Attempt.deliver_of_settled host line h.coherent hdone e).2.1, hsettled]

end Attempted
/-! ## The attempts of a call -/

/-- The attempts of a call: every one but the last was refused, and so was the last when the loop
waits for the next one. -/
structure Retried (line : List Char) (signal : Option Bool) (ls : List Label) (s : Call) : Prop where
  given : s.signal.isSome = signal.isSome
  attempted : ∀ i a, s.attempts[i]? = some a → Attempted line signal (eventsOf i ls) a
  count : 1 ≤ s.attempts.length ∧ s.attempts.length ≤ 4
  refused : ∀ i a, s.attempts[i]? = some a → i + 1 < s.attempts.length ∨ s.phase = .delaying →
    ∃ error, a.settlements = [.error error] ∧ isConnectionRefused error = true
  delaying : s.phase = .delaying → s.attempts.length < 4
  done : ∀ settlement, s.phase = .done settlement →
    (∃ a, s.attempts[s.attempts.length - 1]? = some a ∧ a.settlements = [settlement]) ∧
      ∀ error, settlement = .error error → isConnectionRefused error = true →
        s.attempts.length = 4

section Retried

variable {host : GatewayHost} {line : List Char} {signal : Option Bool} {ls : List Label}
  {s s' : Call} {l : Label}

theorem retried_start (line : List Char) (signal : Option Bool) :
    Retried line signal [] (.start signal) := by
  refine ⟨rfl, fun i a ha => ?_, by simp [Call.start], fun i a ha hlt => ?_, nofun, nofun⟩
  · obtain ⟨hi, rfl⟩ := List.getElem?_eq_some_iff.mp ha
    simp only [Call.start, List.getElem_singleton]
    exact attempted_start rfl
  · obtain ⟨hi, -⟩ := List.getElem?_eq_some_iff.mp ha
    rcases hlt with hlt | hlt
    · simp only [Call.start, List.length_singleton] at hlt
      omega
    · cases hlt

/-- What the current attempt has come to is all it has come to. -/
theorem Retried.settlements_of_last (h : Retried line signal ls s) {settlement : Settlement}
    (hlast : s.settlement? = some settlement) :
    ∃ a, s.attempts[s.attempts.length - 1]? = some a ∧ a.settlements = [settlement] := by
  obtain ⟨a, ha, hhead⟩ := Option.bind_eq_some_iff.mp hlast
  refine ⟨a, ha, ?_⟩
  have honce := (h.attempted _ a ha).coherent.once
  cases hs : a.settlements with
  | nil => simp [hs] at hhead
  | cons first rest =>
    rw [hs] at hhead honce
    simp only [List.head?_cons, Option.some.injEq] at hhead
    rw [List.length_cons] at honce
    rw [hhead, List.eq_nil_of_length_eq_zero (l := rest) (by omega)]

theorem Retried.attempted_more (h : Retried line signal ls s) (l : Label) {i : Nat} {a : Attempt}
    (ha : s.attempts[i]? = some a) : Attempted line signal (eventsOf i (ls ++ [l])) a := by
  rw [eventsOf_concat]
  exact (h.attempted i a ha).more _

theorem retried_step (h : Retried line signal ls s) (hstep : s.step host line l = some s') :
    Retried line signal (ls ++ [l]) s' := by
  rcases step_cases hstep with ⟨⟨hlength, hdelivered⟩, hphase, hsignal⟩ |
    ⟨-, hphase, settlement, hlast, hnext⟩ | ⟨-, hphase, rfl⟩
  · -- events: what has settled stays, so nothing is refused or done any other way
    have hkept : ∀ i a', s'.attempts[i]? = some a' → ∃ a, s.attempts[i]? = some a ∧
        Attempted line signal (eventsOf i (ls ++ [l])) a' ∧
        ∀ settlement, a.settlements = [settlement] → a'.settlements = [settlement] := by
      intro i a' ha'
      obtain ⟨a, ha, rfl | ⟨e, rfl, he⟩⟩ := hdelivered i a' ha'
      · exact ⟨_, ha, h.attempted_more l ha, fun _ => id⟩
      · have hattempted := h.attempted i a ha
        refine ⟨a, ha, ?_, fun _ hs => hattempted.settlements_deliver hs e⟩
        rw [eventsOf_concat]
        exact hattempted.deliver he
    refine ⟨?_, fun i a' ha' => (hkept i a' ha').choose_spec.2.1, ?_, ?_, ?_, ?_⟩
    · rcases hsignal with heq | ⟨hold, hnew⟩
      · rw [heq, h.given]
      · rw [hnew, ← h.given, hold]
        rfl
    · rw [hlength]
      exact h.count
    · intro i a' ha' hlt
      obtain ⟨a, ha, -, hsame⟩ := hkept i a' ha'
      rw [hlength, hphase] at hlt
      obtain ⟨error, herror, hrefused⟩ := h.refused i a ha hlt
      exact ⟨error, hsame _ herror, hrefused⟩
    · rw [hphase, hlength]
      exact h.delaying
    · intro settlement hdone
      rw [hphase] at hdone
      obtain ⟨⟨a, ha, hsettled⟩, hfour⟩ := h.done settlement hdone
      rw [hlength]
      refine ⟨?_, hfour⟩
      -- nothing is delivered to an attempt that has settled
      have hlt : s.attempts.length - 1 < s'.attempts.length := by
        have hcount := h.count
        omega
      obtain ⟨a₀, ha₀, -, hsame⟩ := hkept _ _ (List.getElem?_eq_getElem hlt)
      rw [ha] at ha₀
      cases ha₀
      exact ⟨_, List.getElem?_eq_getElem hlt, hsame _ hsettled⟩
  · -- the loop goes on after the attempt that is over
    obtain ⟨a, ha, hsettled⟩ := h.settlements_of_last hlast
    rcases hnext with ⟨rfl, hfour⟩ | ⟨error, rfl, hrefused, hne, rfl⟩
    · refine ⟨h.given, fun i a' ha' => h.attempted_more l ha', h.count, ?_, nofun, ?_⟩
      · rintro i a' ha' (hlt | hdelaying)
        · exact h.refused i a' ha' (Or.inl hlt)
        · cases hdelaying
      · intro other hother
        cases hother
        exact ⟨⟨a, ha, hsettled⟩, hfour⟩
    · refine ⟨h.given, fun i a' ha' => h.attempted_more l ha', h.count, ?_, ?_, nofun⟩
      · intro i a' ha' _
        by_cases hlt : i + 1 < s.attempts.length
        · exact h.refused i a' ha' (Or.inl hlt)
        · obtain ⟨hi, -⟩ := List.getElem?_eq_some_iff.mp ha'
          have hi : i < s.attempts.length := hi
          -- the attempt that has just settled, with the refusal that is retried
          have hlast : i = s.attempts.length - 1 := by omega
          rw [hlast] at ha'
          rw [Option.some.inj (ha'.symm.trans ha)]
          exact ⟨error, hsettled, hrefused⟩
      · intro _
        have hcount := h.count
        show s.attempts.length < 4
        omega
  · -- the next attempt starts, and the one before it was refused
    have hlt := h.delaying hphase
    refine ⟨h.given, fun i a' ha' => ?_, ?_, ?_, nofun, nofun⟩
    · rw [List.getElem?_append] at ha'
      split at ha'
      · exact h.attempted_more l ha'
      · obtain ⟨hi, rfl⟩ := List.getElem?_eq_some_iff.mp ha'
        rw [List.getElem_singleton]
        exact attempted_start h.given
    · simp only [List.length_append, List.length_singleton]
      omega
    · rintro i a' ha' (hi | hdelaying)
      · simp only [List.length_append, List.length_singleton] at hi
        rw [List.getElem?_append_left (by omega)] at ha'
        exact h.refused i a' ha' (Or.inr hphase)
      · cases hdelaying

/-- **The attempts of every call.** -/
theorem retried_of_run (run : Run (Call.step host line) Free (.start signal) ls s) :
    Retried line signal ls s := by
  induction run with
  | nil => exact retried_start line signal
  | snoc _ _ hstep ih => exact retried_step ih hstep

end Retried

end EphemeralAgent.Sandbox
