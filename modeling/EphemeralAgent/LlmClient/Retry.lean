import EphemeralAgent.LlmClient.Types
import EphemeralAgent.Lib.Transition

/-!
# The retry gate

`src/agents/llm-client/retry.ts`.  `retryStream` is an async generator, so it is a state machine
that stops wherever it awaits or yields: its consumer asks for the next event or closes it, the
attempt yields, ends or throws, a timer fires, the signal aborts.

* `Phase` — where the generator is suspended
* `Item` — what has happened, in order; no transition reads the history
* `step` — one synchronous block of the generator
-/

namespace EphemeralAgent.LlmClient

/-- `isVisible`. -/
def isVisible : LlmStreamEvent → Bool
  | .assistantTextDelta _ => true
  | .reasoningDelta _ => true
  | .toolUseDelta _ _ _ => true
  | .assistantMessageComplete _ _ _ => false

/-- `isRetryable`. -/
def isRetryable (cfg : RetryConfig) (error : ProviderError) : Bool :=
  match error.kind with
  | .rateLimit | .server =>
    match error.statusCode with
    | some code => cfg.statusCodes.contains code
    | none => false
  | .transport => true
  | .decode => error.truncated
  | .authentication | .request => false

/-- `error instanceof ProviderError && isRetryable(cfg, error)`. -/
def Thrown.retryable {E : Type*} (cfg : RetryConfig) : Thrown E → Bool
  | .provider error => isRetryable cfg error
  | .other _ => false

/-- `min(retry_after_s ?? base_delay_s * 2^attempt, max_delay_s)`, in seconds. -/
def backoffDelay (cfg : RetryConfig) (error : ProviderError) (attempt : Nat) : Seconds :=
  min (error.retryAfterS.getD (cfg.baseDelayS.map (· * 2 ^ attempt))) cfg.maxDelayS

/-- `Number.isFinite(delayMs) && delayMs > 0`. -/
def sleeps (cfg : RetryConfig) (error : ProviderError) (attempt : Nat) : Bool :=
  match backoffDelay cfg error attempt with
  | some seconds => 0 < seconds
  | none => false

/-! ## The state -/

/-- `signal`: not given, live, or aborted with its reason. -/
inductive Signal (E : Type*) where
  | absent
  | live
  | aborted (reason : Thrown E)

/-- The reason that `throwIfAborted` throws. -/
def Signal.reason {E : Type*} : Signal E → Option (Thrown E)
  | .aborted reason => some reason
  | _ => none

/-- Where the generator is suspended, or how it has ended. -/
inductive Phase (E : Type*) where
  /-- Nothing has been asked of the generator yet. -/
  | created
  /-- `for await` waits for the next event of this attempt. -/
  | streaming (attemptIndex : Nat)
  /-- `yield event`: the consumer holds an event of this attempt. -/
  | yielded (attemptIndex : Nat)
  /-- `await sleep(..)` after this attempt. -/
  | sleeping (attemptIndex : Nat)
  /-- `backoff` has returned; the loop goes on with the next attempt. -/
  | retrying (attemptIndex : Nat)
  | returned
  | threw (error : Thrown E)
  /-- The consumer has closed the generator. -/
  | closed

/-- What has happened, in order. -/
inductive Item (E : Type*) where
  | started (attemptIndex : Nat)
  | forwarded (attemptIndex : Nat) (event : LlmStreamEvent)
  | ended (attemptIndex : Nat)
  | failed (attemptIndex : Nat) (error : Thrown E)
  | aborted (reason : Thrown E)

structure State (E : Type*) where
  signal : Signal E
  emittedVisible : Bool
  phase : Phase E
  history : List (Item E)

/-- What wakes the generator, and what the environment does meanwhile. -/
inductive Label (E : Type*) where
  /-- The consumer asks for the next event. -/
  | next
  /-- The consumer closes the generator. -/
  | close
  /-- The attempt yields an event. -/
  | event (event : LlmStreamEvent)
  /-- The attempt ends. -/
  | finish
  /-- The attempt throws, when it is asked for an event or when it is closed. -/
  | fail (error : Thrown E)
  /-- The sleep of `backoff` is over, by its timer or by an abort. -/
  | wake
  /-- The loop goes on after `backoff`. -/
  | resume
  /-- The signal aborts. -/
  | abort (reason : Thrown E)

section Step

variable {E : Type*}

/-- A call of `retryStream`. -/
def initial (signal : Signal E) : State E :=
  { signal
    emittedVisible := false
    phase := .created
    history := (signal.reason.map Item.aborted).toList }

namespace State

def note (s : State E) (item : Item E) : State E :=
  { s with history := s.history ++ [item] }

/-- `signal?.throwIfAborted()`, and `rest` when it does not throw. -/
def throwIfAborted (s : State E) (rest : State E) : State E :=
  match s.signal.reason with
  | some reason => { s with phase := .threw reason }
  | none => rest

/-- The head of the loop: check the signal, then call `attempt()`. -/
def enter (s : State E) (attemptIndex : Nat) : State E :=
  s.throwIfAborted { s.note (.started attemptIndex) with phase := .streaming attemptIndex }

/-- The body of the `for await`: raise the flag, then yield. -/
def forward (s : State E) (attemptIndex : Nat) (event : LlmStreamEvent) : State E :=
  { s.note (.forwarded attemptIndex event) with
    emittedVisible := s.emittedVisible || isVisible event
    phase := .yielded attemptIndex }

/-- `backoff`, up to its first suspension. -/
def backoff (cfg : RetryConfig) (s : State E) (error : ProviderError) (attemptIndex : Nat) :
    State E :=
  if sleeps cfg error attemptIndex then { s with phase := .sleeping attemptIndex }
  else s.throwIfAborted { s with phase := .retrying attemptIndex }

/-- The `catch` of the loop. -/
def caught (cfg : RetryConfig) (s : State E) (attemptIndex : Nat) (error : Thrown E) : State E :=
  match s.signal.reason with
  | some _ => { s with phase := .threw error }
  | none =>
    if s.emittedVisible = true ∨ cfg.maxRetries ≤ attemptIndex then { s with phase := .threw error }
    else
      match error with
      | .provider providerError =>
        if isRetryable cfg providerError then s.backoff cfg providerError attemptIndex
        else { s with phase := .threw error }
      | .other _ => { s with phase := .threw error }

end State

/-- One synchronous block; `none` when the generator does not wait for this. -/
def step (cfg : RetryConfig) (s : State E) : Label E → Option (State E)
  | .next =>
    match s.phase with
    | .created => some (s.enter 0)
    | .yielded i => some { s with phase := .streaming i }
    | _ => none
  | .close =>
    match s.phase with
    | .created | .yielded _ => some { s with phase := .closed }
    | _ => none
  | .event event =>
    match s.phase with
    | .streaming i => some (s.forward i event)
    | _ => none
  | .finish =>
    match s.phase with
    | .streaming i => some { s.note (.ended i) with phase := .returned }
    | _ => none
  | .fail error =>
    match s.phase with
    | .streaming i | .yielded i => some ((s.note (.failed i error)).caught cfg i error)
    | _ => none
  | .wake =>
    match s.phase with
    | .sleeping i => some (s.throwIfAborted { s with phase := .retrying i })
    | _ => none
  | .resume =>
    match s.phase with
    | .retrying i => some (s.enter (i + 1))
    | _ => none
  | .abort reason =>
    match s.signal with
    | .live => some { s.note (.aborted reason) with signal := .aborted reason }
    | _ => none

end Step

end EphemeralAgent.LlmClient
