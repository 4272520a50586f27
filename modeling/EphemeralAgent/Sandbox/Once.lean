import Mathlib.Data.List.Induction
import EphemeralAgent.Sandbox.Gateway

/-!
# One attempt of a gateway call

`#once` of `SandboxGatewayClient`.  The events of the socket, the connect timer and the abort signal
race for one `settled` flag, and whichever comes first settles the promise.

* `Attempt`, `Attempt.start`, `finish`, `deliver` — the attempt and what each event does to it
* `settling` — the events that settle a call
* `deliver_of_settled`, `deliver_of_open` — what one event does to a call
* `SettlesOnce` — a call settles once, and its timer bounds connecting only
* `InTime` — the timer does not fire on a call that has connected and is still open
-/

namespace EphemeralAgent.Sandbox

open Json

/-- What a call of `resolve` or `reject` is given. -/
abbrev Settlement := Except CallError GatewayResponse

/-- The variables of `#once`, with the writes on its socket and the calls of `resolve` and
`reject`. -/
structure Attempt where
  opened : Bool
  buf : List Char
  settled : Bool
  listening : Bool
  timer : Bool
  destroyed : Bool
  written : List (List Char)
  settlements : List Settlement

/-- What may be delivered to an attempt. -/
inductive Event where
  | connect
  | data (chunk : List Char)
  | error (error : CallError)
  | close
  | timer
  | abort
deriving DecidableEq

namespace Attempt

/-- The executor of the promise; `signal` says whether there is a signal, and if it is aborted. -/
def start (signal : Option Bool) : Attempt :=
  if signal = some true then
    { opened := false, buf := [], settled := true, listening := false, timer := false,
      destroyed := false, written := [], settlements := [.error (.plain "aborted")] }
  else
    { opened := true, buf := [], settled := false, listening := signal.isSome, timer := true,
      destroyed := false, written := [], settlements := [] }

/-- `finish`. -/
def finish (a : Attempt) (settlement : Settlement) : Attempt :=
  if a.settled then a
  else
    { a with settled := true, listening := false, timer := false,
             settlements := a.settlements ++ [settlement] }

/-- One event.  A timer that is cleared does not fire, and a listener that is gone is not called. -/
def deliver (host : GatewayHost) (line : List Char) (a : Attempt) : Event → Attempt
  | .connect => if a.opened then { a with written := a.written ++ [line] } else a
  | .data chunk => if a.opened then { a with buf := a.buf ++ chunk } else a
  | .error error => if a.opened then a.finish (.error error) else a
  | .close => if a.opened then a.finish (decodeResponse host a.buf) else a
  | .timer =>
    if a.timer then
      { a with timer := false, destroyed := true }.finish (.error (.plain "gateway connect timeout"))
    else a
  | .abort =>
    if a.listening then
      { a with listening := false, destroyed := true }.finish (.error (.plain "aborted"))
    else a

/-- An attempt after a history of events. -/
def after (host : GatewayHost) (line : List Char) (signal : Option Bool) (history : List Event) :
    Attempt :=
  history.foldl (deliver host line) (start signal)

theorem after_concat (host : GatewayHost) (line : List Char) (signal : Option Bool)
    (history : List Event) (e : Event) :
    after host line signal (history ++ [e]) =
      (after host line signal history).deliver host line e := by
  simp [after]

end Attempt

/-! ## What one event does -/

/-- The events that settle a call that is still open; nobody aborts a call without a signal. -/
def Event.settling (signal : Option Bool) : Event → Bool
  | .error _ => true
  | .close => true
  | .timer => true
  | .abort => signal.isSome
  | _ => false

namespace Attempt

variable {host : GatewayHost} {line : List Char} {signal : Option Bool}

/-- What the variables of an attempt say of each other. -/
structure Coherent (signal : Option Bool) (a : Attempt) : Prop where
  settled : a.settled = true ↔ a.settlements ≠ []
  once : a.settlements.length ≤ 1
  closed : a.settled = true → a.listening = false ∧ a.timer = false
  armed : a.settled = false → a.opened = true ∧ a.timer = true ∧ a.listening = signal.isSome

theorem coherent_start (signal : Option Bool) : Coherent signal (start signal) := by
  unfold start
  split
  · exact ⟨by simp, by simp, by simp, by simp⟩
  · exact ⟨by simp, by simp, by simp, by simp⟩

/-- A call that has settled stays as it is, up to what its socket reads and writes. -/
theorem deliver_of_settled (host : GatewayHost) (line : List Char) {a : Attempt}
    (h : Coherent signal a) (hsettled : a.settled = true) (e : Event) :
    (a.deliver host line e).settled = true ∧
      (a.deliver host line e).settlements = a.settlements ∧
      (a.deliver host line e).listening = false ∧ (a.deliver host line e).timer = false := by
  obtain ⟨hlistening, htimer⟩ := h.closed hsettled
  cases e with
  | connect | data =>
    simp only [deliver]
    split <;> exact ⟨hsettled, rfl, hlistening, htimer⟩
  | error | close =>
    simp only [deliver, finish, hsettled, if_true]
    split <;> exact ⟨hsettled, rfl, hlistening, htimer⟩
  | timer =>
    simp only [deliver, htimer]
    exact ⟨hsettled, rfl, hlistening, htimer⟩
  | abort =>
    simp only [deliver, hlistening]
    exact ⟨hsettled, rfl, hlistening, htimer⟩

/-- A call that is open is settled by a settling event, and by no other. -/
theorem deliver_of_open (host : GatewayHost) (line : List Char) {a : Attempt}
    (h : Coherent signal a) (hopen : a.settled = false) (e : Event) :
    if e.settling signal = true then
      ∃ settlement, a.deliver host line e =
        { a.deliver host line e with settled := true, listening := false, timer := false,
                                     settlements := [settlement] }
    else
      (a.deliver host line e).settled = false ∧ (a.deliver host line e).opened = true ∧
        (a.deliver host line e).settlements = [] ∧ (a.deliver host line e).timer = true ∧
        (a.deliver host line e).listening = signal.isSome := by
  obtain ⟨hopened, htimer, hlistening⟩ := h.armed hopen
  have hnone : a.settlements = [] := by
    by_contra hne
    have hsettled := h.settled.mpr hne
    rw [hopen] at hsettled
    cases hsettled
  cases e with
  | connect | data => simp [deliver, Event.settling, hopened, hopen, hnone, htimer, hlistening]
  | error | close => simp [deliver, Event.settling, finish, hopened, hopen, hnone]
  | timer => simp [deliver, Event.settling, finish, htimer, hopen, hnone]
  | abort =>
    by_cases hsignal : signal.isSome = true
    · simp [deliver, Event.settling, finish, hlistening, hsignal, hopen, hnone]
    · simp [deliver, Event.settling, hlistening, hsignal, hopen, hopened, hnone, htimer]

theorem coherent_deliver {a : Attempt} (h : Coherent signal a) (e : Event) :
    Coherent signal (a.deliver host line e) := by
  by_cases hsettled : a.settled = true
  · obtain ⟨hkept, hsame, hlistening, htimer⟩ :=
      deliver_of_settled host line h hsettled e
    refine ⟨?_, ?_, fun _ => ⟨hlistening, htimer⟩, ?_⟩
    · rw [hsame, hkept, ← h.settled, hsettled]
    · rw [hsame]
      exact h.once
    · rw [hkept]
      nofun
  · rw [Bool.not_eq_true] at hsettled
    have hopen := deliver_of_open host line h hsettled e
    split at hopen
    · obtain ⟨settlement, heq⟩ := hopen
      rw [heq]
      exact ⟨by simp, by simp, by simp, by simp⟩
    · obtain ⟨hkept, hopened, hnone, htimer, hlistening⟩ := hopen
      exact ⟨by simp [hkept, hnone], by simp [hnone], by simp [hkept],
        fun _ => ⟨hopened, htimer, hlistening⟩⟩

/-- The variables agree after every history. -/
theorem coherent_after (host : GatewayHost) (line : List Char) (signal : Option Bool)
    (history : List Event) : Coherent signal (after host line signal history) := by
  induction history using List.reverseRecOn with
  | nil => exact coherent_start signal
  | append_singleton history e ih =>
    rw [after_concat]
    exact coherent_deliver ih e

/-- **A call has settled when it was aborted from the start, or a settling event has come.** -/
theorem settled_after (host : GatewayHost) (line : List Char) (signal : Option Bool)
    (history : List Event) :
    (after host line signal history).settled = true ↔
      signal = some true ∨ ∃ e ∈ history, e.settling signal = true := by
  induction history using List.reverseRecOn with
  | nil =>
    simp only [after, List.foldl_nil, List.not_mem_nil, false_and, exists_false, or_false]
    unfold start
    split
    · next h => simp [h]
    · next h => simp [h]
  | append_singleton history e ih =>
    rw [after_concat]
    have hcoherent := coherent_after host line signal history
    by_cases hsettled : (after host line signal history).settled = true
    · have hkept := (deliver_of_settled host line hcoherent hsettled e).1
      refine iff_of_true hkept ?_
      rcases ih.mp hsettled with hsignal | ⟨old, hold, hsettling⟩
      · exact Or.inl hsignal
      · exact Or.inr ⟨old, List.mem_append_left _ hold, hsettling⟩
    · have hbefore := mt ih.mpr hsettled
      rw [Bool.not_eq_true] at hsettled
      have hopen := deliver_of_open host line hcoherent hsettled e
      split at hopen
      · next hsettling =>
        obtain ⟨settlement, heq⟩ := hopen
        rw [heq]
        exact iff_of_true rfl (Or.inr ⟨e, by simp, hsettling⟩)
      · next hsettling =>
        rw [hopen.1]
        refine iff_of_false (by simp) ?_
        rintro (hsignal | ⟨old, hold, hold'⟩)
        · exact hbefore (Or.inl hsignal)
        · rw [List.mem_append, List.mem_singleton] at hold
          rcases hold with hold | rfl
          · exact hbefore (Or.inr ⟨old, hold, hold'⟩)
          · exact hsettling hold'

/-- **An event settles the call when the call is open and the event is a settling one.** -/
theorem settlements_changed (host : GatewayHost) (line : List Char) {signal : Option Bool}
    {history : List Event} {e : Event} :
    (after host line signal (history ++ [e])).settlements ≠
        (after host line signal history).settlements ↔
      e.settling signal = true ∧ (after host line signal history).settled = false := by
  have hcoherent := coherent_after host line signal history
  rw [after_concat]
  by_cases hsettled : (after host line signal history).settled = true
  · have hsame := (deliver_of_settled host line hcoherent hsettled e).2.1
    simp [hsame, hsettled]
  · have hnone : (after host line signal history).settlements = [] := by
      by_contra hne
      exact hsettled (hcoherent.settled.mpr hne)
    rw [Bool.not_eq_true] at hsettled
    have hopen := deliver_of_open host line hcoherent hsettled e
    split at hopen
    · next hsettling =>
      obtain ⟨settlement, heq⟩ := hopen
      rw [heq, hnone]
      simp [hsettling, hsettled]
    · next hsettling =>
      rw [hopen.2.2.1, hnone]
      simp [hsettling]

end Attempt

/-! ## The promise of a call -/

/-- The promise of an attempt settles once, as soon as a settling event comes; nothing is left of
the listener and the timer then, and the timer settles no call that has connected. -/
structure SettlesOnce (host : GatewayHost) (line : List Char) (signal : Option Bool)
    (history : List Event) : Prop where
  once : (Attempt.after host line signal history).settlements.length =
    if signal = some true ∨ ∃ e ∈ history, e.settling signal = true then 1 else 0
  closed : (Attempt.after host line signal history).settlements ≠ [] →
    (Attempt.after host line signal history).listening = false ∧
      (Attempt.after host line signal history).timer = false
  connecting : ∀ before e rest, history = before ++ e :: rest → .connect ∈ before →
    (Attempt.after host line signal (before ++ [e])).settlements ≠
      (Attempt.after host line signal before).settlements →
    e = .close ∨ (∃ error, e = .error error) ∨ e = .abort

/-- The timer fires on no call that has connected and is still open. -/
def InTime (signal : Option Bool) (history : List Event) : Prop :=
  ∀ before rest, history = before ++ .timer :: rest → .connect ∈ before →
    signal = some true ∨ ∃ e ∈ before, e.settling signal = true

/-- **A call settles once with a timer for connecting only, exactly when the timer does not fire
on an open call that has connected.** -/
theorem settles_once_iff (host : GatewayHost) (line : List Char) (signal : Option Bool)
    (history : List Event) : SettlesOnce host line signal history ↔ InTime signal history := by
  constructor
  · intro h before rest heq hconnect
    by_contra hopen
    have hsettled : (Attempt.after host line signal before).settled = false := by
      rw [← Bool.not_eq_true, Attempt.settled_after]
      exact hopen
    have hchanged := (Attempt.settlements_changed host line).mpr
      ⟨show Event.settling signal .timer = true from rfl, hsettled⟩
    rcases h.connecting before .timer rest heq hconnect hchanged with h | ⟨_, h⟩ | h <;> cases h
  · intro h
    have hcoherent := Attempt.coherent_after host line signal history
    refine ⟨?_, ?_, ?_⟩
    · split
      · next hdone =>
        have hne := hcoherent.settled.mp ((Attempt.settled_after host line signal history).mpr hdone)
        have hpos := List.length_pos_iff.mpr hne
        have honce := hcoherent.once
        omega
      · next hopen =>
        rw [List.length_eq_zero_iff]
        by_contra hne
        exact hopen ((Attempt.settled_after host line signal history).mp (hcoherent.settled.mpr hne))
    · exact fun hne => hcoherent.closed (hcoherent.settled.mpr hne)
    · intro before e rest heq hconnect hchanged
      obtain ⟨hsettling, hsettled⟩ := (Attempt.settlements_changed host line).mp hchanged
      cases e with
      | close => exact Or.inl rfl
      | error error => exact Or.inr (Or.inl ⟨error, rfl⟩)
      | abort => exact Or.inr (Or.inr rfl)
      | connect | data => cases hsettling
      | timer =>
        have hdone := (Attempt.settled_after host line signal before).mpr (h before rest heq hconnect)
        rw [hsettled] at hdone
        cases hdone

/-- A process whose numbers are quotients. -/
def quotientHost : GatewayHost where
  numbers := quotients
  reader := quotientReader
  syntaxMessage _ := "not JSON"
  envelopeMessage _ := "no envelope"
  acquireMessage _ := "no sandbox"

/-- **The connect timer rejects a call whose connection stands.** -/
theorem timer_settles_connected :
    ¬ ∀ (host : GatewayHost) (line : List Char) (signal : Option Bool) (history : List Event),
      SettlesOnce host line signal history := by
  intro hall
  have h := hall quotientHost ['x', '\n'] none [.connect, .timer]
  have hchanged : (Attempt.after quotientHost ['x', '\n'] none ([.connect] ++ [.timer])).settlements ≠
      (Attempt.after quotientHost ['x', '\n'] none [.connect]).settlements := by
    simp [Attempt.after, Attempt.start, Attempt.deliver, Attempt.finish]
  rcases h.connecting [.connect] .timer [] rfl (by simp) hchanged with h | ⟨_, h⟩ | h <;> cases h

end EphemeralAgent.Sandbox
