import EphemeralAgent.Sandbox.Retry

/-!
# Requests are delivered at most once

`call` and `acquire` of `SandboxGatewayClient`, over every order of the events of their sockets, of
the timers and of the abort.

* `Request`, `Request.line`, `Request.answer` — the two methods
* `sockets_of_run` — an aborted call opens no socket
* `writes_of_retried` — the line is written on the last socket, once
-/

namespace EphemeralAgent.Sandbox

open Lib Json

/-- A call of `call` or of `acquire`, with the invocation id of its options. -/
inductive Request where
  | call (req : GatewayRequest) (invocationId : Option String)
  | acquire (invocationId : Option String)

/-- What the promise of a method resolves with. -/
inductive Answer where
  | response (response : GatewayResponse)
  | sandbox (id : String)

/-- The line that is sent. -/
def Request.line (n : NumberText) (uuid : String) : Request → List Char
  | .call req invocationId =>
    encodeRequest n uuid { req with invocationId := invocationId.or req.invocationId }
  | .acquire invocationId => acquireLine n uuid invocationId

/-- What the method makes of the settlement of `#withRetry`. -/
def Request.answer (host : GatewayHost) : Request → Settlement → Except CallError Answer
  | .call _ _, settlement => settlement.map .response
  | .acquire _, settlement => do
    let response ← settlement
    let result ← resultOf response
    let id ← parseAcquire host result
    return .sandbox id

/-- **A method rejects with the error of `#withRetry`.** -/
theorem Request.answer_error (host : GatewayHost) (req : Request) (error : CallError) :
    req.answer host (.error error) = .error error := by
  cases req <;> rfl

/-! ## Sockets of an aborted call -/

section Sockets

variable {host : GatewayHost} {line : List Char} {s s' t : Call} {l : Label} {ms : List Label}

theorem Delivered.opened (h : Delivered host line l s s') :
    s'.attempts.map (·.opened) = s.attempts.map (·.opened) := by
  apply List.ext_getElem?
  intro i
  rw [List.getElem?_map, List.getElem?_map]
  cases hi : s'.attempts[i]? with
  | none =>
    rw [List.getElem?_eq_none_iff, h.1, ← List.getElem?_eq_none_iff] at hi
    rw [hi]
  | some a' =>
    obtain ⟨a, ha, rfl | ⟨e, rfl, -⟩⟩ := h.2 i a' hi
    · rw [ha]
    · rw [ha, Option.map_some, Option.map_some, opened_deliver]

theorem sockets_eq (s : Call) : s.sockets = (s.attempts.map (·.opened)).countP id := by
  rw [Call.sockets, List.countP_map]
  rfl

theorem sockets_step (hsignal : s.signal = some true) (h : s.step host line l = some s') :
    s'.signal = some true ∧ s'.sockets = s.sockets := by
  rcases step_cases h with ⟨hdelivered, -, hsame⟩ | ⟨-, -, _, -, ⟨rfl, -⟩ | ⟨_, -, -, -, rfl⟩⟩ |
    ⟨-, -, rfl⟩
  · refine ⟨?_, ?_⟩
    · rcases hsame with heq | ⟨-, heq⟩
      · rw [heq, hsignal]
      · exact heq
    · rw [sockets_eq, sockets_eq, hdelivered.opened]
  · exact ⟨hsignal, rfl⟩
  · exact ⟨hsignal, rfl⟩
  · refine ⟨hsignal, ?_⟩
    rw [hsignal]
    simp [Call.sockets, Attempt.start]

/-- **An aborted call opens no socket.** -/
theorem sockets_of_run (hsignal : s.signal = some true)
    (run : Run (Call.step host line) Free s ms t) : t.sockets = s.sockets := by
  have hrun : t.signal = some true ∧ t.sockets = s.sockets :=
    run.invariant (I := fun u => u.signal = some true ∧ u.sockets = s.sockets) ⟨hsignal, rfl⟩
      fun u l u' _ hu hstep => by
        obtain ⟨hsignal', hsockets⟩ := sockets_step hu.1 hstep
        exact ⟨hsignal', hsockets.trans hu.2⟩
  exact hrun.2

end Sockets

/-! ## Writes -/

section Writes

variable {host : GatewayHost} {line : List Char} {signal : Option Bool} {ls : List Label} {s : Call}

/-- A refused attempt has written nothing. -/
theorem Attempted.written_of_refused {events : List Event} {a : Attempt}
    (h : Attempted line signal events a) (hsocket : SocketContract events) {error : CallError}
    (hsettled : a.settlements = [.error error]) (hrefused : isConnectionRefused error = true) :
    a.written = [] := by
  have hevent := h.refused error (by rw [hsettled]; simp) hrefused
  have hconnect := hsocket.refused error hrefused hevent
  have hwrites := h.writes
  rw [List.count_eq_zero_of_not_mem hconnect] at hwrites
  exact List.eq_nil_of_length_eq_zero (by omega)

/-- **The line is written on the last socket, once at most.** -/
theorem writes_of_retried (h : Retried line signal ls s)
    (hsockets : ∀ i, SocketContract (eventsOf i ls)) : s.writes = [] ∨ s.writes = [line] := by
  have hcount := h.count
  have hne : s.attempts ≠ [] := List.ne_nil_of_length_pos (by omega)
  have hlast : s.attempts[s.attempts.length - 1]? = some (s.attempts.getLast hne) := by
    rw [← List.getLast?_eq_getElem?, List.getLast?_eq_getLast_of_ne_nil hne]
  have hbefore : s.attempts.dropLast.flatMap (·.written) = [] := by
    rw [List.flatMap_eq_nil_iff]
    intro a ha
    obtain ⟨i, hi, rfl⟩ := List.getElem_of_mem ha
    rw [List.length_dropLast] at hi
    rw [List.getElem_dropLast]
    have hget : s.attempts[i]? = some s.attempts[i] := List.getElem?_eq_getElem (by omega)
    obtain ⟨error, hsettled, hrefused⟩ := h.refused i _ hget (Or.inl (by omega))
    exact (h.attempted i _ hget).written_of_refused (hsockets i) hsettled hrefused
  have hwrites : s.writes = (s.attempts.getLast hne).written := by
    have hsplit := congrArg (List.flatMap Attempt.written) (List.dropLast_append_getLast hne)
    rw [List.flatMap_append, hbefore, List.flatMap_singleton, List.nil_append] at hsplit
    exact hsplit.symm
  have hattempted := h.attempted _ _ hlast
  rw [hwrites]
  cases hw : (s.attempts.getLast hne).written with
  | nil => exact Or.inl rfl
  | cons text rest =>
    have hone := hattempted.writes.trans (hsockets _).once
    have htext := hattempted.lines text (by rw [hw]; simp)
    rw [hw, List.length_cons] at hone
    rw [htext, List.eq_nil_of_length_eq_zero (l := rest) (by omega)]
    exact Or.inr rfl

/-- After an attempt that is over, the loop goes on or ends as the attempt ended. -/
theorem resumed_of_settled (h : Retried line signal ls s) {settlement : Settlement}
    (hphase : s.phase = .attempting) (hsettled : s.settlement? = some settlement) :
    ∃ t, s.step host line .resumed = some t ∧
      ((t.phase = .delaying ∧ s.attempts.length < 4 ∧
          ∃ error, settlement = .error error ∧ isConnectionRefused error = true) ∨
        t.phase = .done settlement) := by
  cases settlement with
  | ok response =>
    refine ⟨{ s with phase := .done (.ok response) }, ?_, Or.inr rfl⟩
    simp [Call.step, hphase, hsettled]
  | error error =>
    by_cases hnext : (!isConnectionRefused error ||
        s.attempts.length - 1 == connectRetryDelaysMs.length) = true
    · refine ⟨{ s with phase := .done (.error error) }, ?_, Or.inr rfl⟩
      simp [Call.step, hphase, hsettled, hnext]
    · refine ⟨{ s with phase := .delaying }, ?_, Or.inl ⟨rfl, ?_⟩⟩
      · simp [Call.step, hphase, hsettled, hnext]
      · have hcount := h.count
        simp only [connectRetryDelaysMs, List.length_cons, List.length_nil, Bool.or_eq_true,
          Bool.not_eq_true', beq_iff_eq, not_or, Bool.not_eq_false] at hnext
        exact ⟨by omega, error, rfl, hnext.1⟩

end Writes

/-- **One call writes its line at most once.**  It opens four sockets at most, none once it is
aborted, and a further one only after a refused connection; otherwise it ends as its last attempt
ends. -/
theorem delivered_at_most_once {host : GatewayHost} {uuid : String} {req : Request}
    {signal : Option Bool} {ls : List Label} {s : Call}
    (run : Run (Call.step host (req.line host.numbers uuid)) Free (.start signal) ls s)
    (hsockets : ∀ i, SocketContract (eventsOf i ls)) :
    (s.writes = [] ∨ s.writes = [req.line host.numbers uuid]) ∧
    s.sockets ≤ 4 ∧
    (s.signal = some true → ∀ ms t,
      Run (Call.step host (req.line host.numbers uuid)) Free s ms t → t.sockets = s.sockets) ∧
    (∀ i a, s.attempts[i]? = some a → i + 1 < s.attempts.length →
      ∃ error, a.settlements = [.error error] ∧ isConnectionRefused error = true) ∧
    (∀ settlement, s.phase = .attempting → s.settlement? = some settlement →
      ∃ t, s.step host (req.line host.numbers uuid) .resumed = some t ∧
        ((t.phase = .delaying ∧ s.attempts.length < 4 ∧
            ∃ error, settlement = .error error ∧ isConnectionRefused error = true) ∨
          t.phase = .done settlement)) ∧
    ∀ settlement, s.phase = .done settlement →
      s.settlement? = some settlement ∧
      (∀ error, settlement = .error error → req.answer host settlement = .error error) ∧
      ∀ error, settlement = .error error → isConnectionRefused error = true →
        s.attempts.length = 4 := by
  have h := retried_of_run run
  refine ⟨writes_of_retried h hsockets, ?_, fun hsignal _ _ => sockets_of_run hsignal, ?_, ?_, ?_⟩
  · exact List.countP_le_length.trans h.count.2
  · exact fun i a ha hlt => h.refused i a ha (Or.inl hlt)
  · exact fun _ hphase hsettled => resumed_of_settled h hphase hsettled
  · intro settlement hdone
    obtain ⟨⟨a, ha, hsettled⟩, hfour⟩ := h.done settlement hdone
    refine ⟨?_, ?_, hfour⟩
    · unfold Call.settlement?
      rw [ha, Option.bind_some, hsettled]
      rfl
    · rintro error rfl
      exact req.answer_error host error

/-- The first connection is refused, and the second one stands. -/
def refusedOnce : List Label :=
  [.delivered 0 (.error { message := "refused", code := some "ECONNREFUSED" }), .resumed, .elapsed,
    .delivered 1 .connect]

theorem refusedOnce_contract (i : Nat) : SocketContract (eventsOf i refusedOnce) := by
  match i with
  | 0 => exact ⟨by decide, fun _ _ _ => by decide⟩
  | 1 => exact ⟨by decide, fun _ _ herror => by simp [eventsOf, refusedOnce, Label.event?] at herror⟩
  | i + 2 =>
    have hnone : eventsOf (i + 2) refusedOnce = [] := rfl
    rw [hnone]
    exact ⟨by decide, by simp⟩

theorem delivered_at_most_once_refused :
    ∃ s, Run (Call.step quotientHost ((Request.acquire none).line quotients "id")) Free
        (.start (some false)) refusedOnce s ∧ s.writes.length = 1 ∧ s.sockets ≤ 4 := by
  obtain ⟨s, run, hwrites⟩ := exists_run
    (Call.step quotientHost ((Request.acquire none).line quotients "id")) Free
    (.start (some false)) refusedOnce (fun s => s.writes.length == 1) (by decide +kernel)
  exact ⟨s, run, beq_iff_eq.mp hwrites,
    (@delivered_at_most_once quotientHost "id" (.acquire none) (some false) refusedOnce s run
      refusedOnce_contract).2.1⟩

end EphemeralAgent.Sandbox
