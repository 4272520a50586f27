import EphemeralAgent.LlmClient.RetryGate
import EphemeralAgent.LlmClient.Wire

/-!
# The streaming client

`src/agents/llm-client/stream-client.ts`.  `streamMessage` is `retryStream` over `runAttempt`, and
`runAttempt` reads the provider through `withIdleGuard`.  All three are async generators, so the
client is a state machine that stops wherever one of them awaits or yields.

* `Attempt` — where `runAttempt` is suspended
* `State` — the retry gate, its attempt, and what the provider streams have handed out
* `step` — one synchronous block

The abort of the attempt's own controller reaches the provider alone, and the provider is the
environment here: it may answer, fail or end at any time.
-/

namespace EphemeralAgent.LlmClient

/-- `ProviderError.transport`. -/
def ProviderError.transport (message : String) : ProviderError :=
  { kind := .transport, message, statusCode := none, requestId := none, retryAfterS := none,
    truncated := false }

/-- `ProviderError.truncatedStream`. -/
def ProviderError.truncatedStream (requestId : Option String) : ProviderError :=
  { kind := .decode, message := "stream ended without provider terminal event",
    statusCode := none, requestId, retryAfterS := none, truncated := true }

/-! ## `toProviderError` -/

/-- The response headers; `retryAfterS` is what `retryAfterSeconds` reads. -/
structure Headers where
  requestId : Option String
  xRequestId : Option String
  retryAfterS : Option Seconds

/-- A thrown value that is no `ProviderError`, as `toProviderError` tells it apart. -/
inductive Raised where
  | apiConnectionError (message : String)
  | apiError (status : Option Int) (headers : Option Headers) (message : String)
  /-- `error.message`, or `String(error)`. -/
  | other (message : String)

/-- The `phase` argument of `toProviderError`. -/
inductive ErrorPhase where
  | open
  | stream
  deriving DecidableEq, Repr

def requestIdOf (headers : Option Headers) : Option String :=
  headers.bind fun headers => headers.requestId.or headers.xRequestId

def toProviderError {E : Type*} (raised : E → Raised) (error : Thrown E) (phase : ErrorPhase)
    (requestIdFallback : Option String) : ProviderError :=
  match error with
  | .provider error => error
  | .other value =>
    match raised value with
    | .apiConnectionError message =>
      { ProviderError.transport message with requestId := requestIdFallback }
    | .apiError (some status) headers message =>
      .fromStatus status message ((requestIdOf headers).or requestIdFallback)
        (headers.bind Headers.retryAfterS)
    | .apiError none headers message =>
      decodeError message ((requestIdOf headers).or requestIdFallback)
    | .other message =>
      let kind : ProviderErrorKind := if phase = .open then .request else .decode
      { decodeError message requestIdFallback with kind }

namespace StreamClient

/-! ## The state -/

/-- Why `runAttempt` has left the loop over the provider's events. -/
inductive Exit (E : Type*) where
  /-- `break`: the decoder has completed. -/
  | broke
  /-- The provider stream has ended. -/
  | ended
  | threw (error : Thrown E)
  /-- The consumer has closed the generator. -/
  | closed

/-- How `runAttempt` has ended. -/
inductive Result (E : Type*) where
  | ended
  | failed (error : Thrown E)

/-- Where `runAttempt` is suspended. -/
inductive Attempt (wire : Wire) (E : Type*) where
  /-- No attempt is running. -/
  | idle
  /-- `await wire.open(..)`. -/
  | opening
  /-- The next event races the idle timer. -/
  | reading (d : wire.Decoder)
  /-- `yield*`: the event is on its way to `retryStream`. -/
  | offering (d : wire.Decoder) (event : LlmStreamEvent)
  /-- `yield*`: the consumer holds the event. -/
  | held (d : wire.Decoder)
  /-- `await iterator.return?.()` in the `finally` of `withIdleGuard`. -/
  | releasing (d : wire.Decoder) (exit : Exit E)
  /-- The attempt is over; `retryStream` has not seen it yet. -/
  | settled (result : Result E)

/-- What `runAttempt` and `retryStream` are called with. -/
structure Config (E : Type*) where
  retry : RetryConfig
  /-- `String(idleTimeoutMs / 1000)` -/
  idleTimeout : String
  raised : E → Raised

structure State (wire : Wire) (E : Type*) where
  gate : LlmClient.State E
  attempt : Attempt wire E
  requestId : Option String
  /-- What the provider stream of each attempt has handed out, in order; `none` is its end. -/
  reads : List (Nat × Option wire.Chunk)

/-- What wakes the client, and what the environment does meanwhile. -/
inductive Label (wire : Wire) (E : Type*) where
  /-- The consumer asks for the next event. -/
  | next
  /-- The consumer closes the generator. -/
  | close
  | opened (requestId : Option String)
  | openFailed (error : Thrown E)
  | chunk (chunk : wire.Chunk)
  /-- The provider stream ends. -/
  | done
  | readFailed (error : Thrown E)
  /-- The idle timer fires. -/
  | timeout
  /-- `iterator.return` has settled. -/
  | released
  /-- `retryStream` goes on with what the attempt has yielded, returned or thrown. -/
  | deliver
  /-- The sleep of `backoff` is over. -/
  | wake
  /-- The loop of `retryStream` goes on after `backoff`. -/
  | resume
  /-- The caller's signal aborts. -/
  | abort (reason : Thrown E)

section Step

variable {wire : Wire} {E : Type*}

/-- A call of `streamMessage`. -/
def initial (wire : Wire) (signal : Signal E) : State wire E :=
  { gate := LlmClient.initial signal, attempt := .idle, requestId := none, reads := [] }

namespace State

/-- `signal?.aborted`. -/
def aborted (s : State wire E) : Bool :=
  s.gate.signal.reason.isSome

/-- After the head of the loop of `retryStream`: `attempt()` when it has not thrown. -/
def begin (s : State wire E) (gate : LlmClient.State E) : State wire E :=
  match gate.phase with
  | .streaming _ => { s with gate, attempt := .opening }
  | _ => { s with gate, attempt := .idle }

/-- `if (decoder.completed) break`, or the next read. -/
def loop (s : State wire E) (d : wire.Decoder) : State wire E :=
  { s with attempt := if wire.completed d then .releasing d .broke else .reading d }

/-- `yield* decoder.handle(event)` up to its first suspension. -/
def handle (s : State wire E) (d : wire.Decoder) (chunk : wire.Chunk) : State wire E :=
  match wire.handle d chunk with
  | .ok (d', some event) => { s with attempt := .offering d' event }
  | .ok (d', none) => s.loop d'
  | .error error => { s with attempt := .releasing d (.threw (.provider error)) }

/-- `if (signal?.aborted) throw error; throw toProviderError(..)`. -/
def rethrow (cfg : Config E) (s : State wire E) (error : Thrown E) (phase : ErrorPhase)
    (requestId : Option String) : Thrown E :=
  if s.aborted then error else .provider (toProviderError cfg.raised error phase requestId)

/-- The end of `runAttempt` after its loop. -/
def conclude (s : State wire E) (d : wire.Decoder) : Result E :=
  match s.gate.signal.reason with
  | some reason => .failed reason
  | none => if wire.completed d then .ended else .failed (.provider (.truncatedStream s.requestId))

/-- `runAttempt` goes on when the provider's iterator has been released. -/
def release (cfg : Config E) (s : State wire E) (d : wire.Decoder) : Exit E → State wire E
  | .broke | .ended => { s with attempt := .settled (s.conclude d) }
  | .threw error =>
    { s with attempt := .settled (.failed (s.rethrow cfg error .stream s.requestId)) }
  | .closed => { s with attempt := .idle }

end State

/-- One synchronous block; `none` when the client does not wait for this. -/
def step (cfg : Config E) (s : State wire E) : Label wire E → Option (State wire E)
  | .next =>
    match s.gate.phase, s.attempt with
    | .created, .idle => (LlmClient.step cfg.retry s.gate .next).map s.begin
    | .yielded _, .held d =>
      (LlmClient.step cfg.retry s.gate .next).map fun gate => { s with gate }.loop d
    | _, _ => none
  | .close =>
    match s.gate.phase, s.attempt with
    | .created, .idle => (LlmClient.step cfg.retry s.gate .close).map fun gate => { s with gate }
    | .yielded _, .held d =>
      (LlmClient.step cfg.retry s.gate .close).map fun gate =>
        { s with gate, attempt := .releasing d .closed }
    | _, _ => none
  | .opened requestId =>
    match s.attempt with
    | .opening => some { s with requestId, attempt := .reading (wire.decoder requestId) }
    | _ => none
  | .openFailed error =>
    match s.attempt with
    | .opening => some { s with attempt := .settled (.failed (s.rethrow cfg error .open none)) }
    | _ => none
  | .chunk chunk =>
    match s.gate.phase, s.attempt with
    | .streaming i, .reading d =>
      some ({ s with reads := s.reads ++ [(i, some chunk)] }.handle d chunk)
    | _, _ => none
  | .done =>
    match s.gate.phase, s.attempt with
    | .streaming i, .reading d =>
      some { s with reads := s.reads ++ [(i, none)], attempt := .releasing d .ended }
    | _, _ => none
  | .readFailed error =>
    match s.attempt with
    | .reading d => some { s with attempt := .releasing d (.threw error) }
    | _ => none
  | .timeout =>
    match s.attempt with
    | .reading d =>
      let error := ProviderError.transport s!"provider stream idle for {cfg.idleTimeout}s"
      some { s with attempt := .releasing d (.threw (.provider error)) }
    | _ => none
  | .released =>
    match s.attempt with
    | .releasing d exit => some (s.release cfg d exit)
    | _ => none
  | .deliver =>
    match s.attempt with
    | .offering d event =>
      (LlmClient.step cfg.retry s.gate (.event event)).map fun gate =>
        { s with gate, attempt := .held d }
    | .settled .ended =>
      (LlmClient.step cfg.retry s.gate .finish).map fun gate => { s with gate, attempt := .idle }
    | .settled (.failed error) =>
      (LlmClient.step cfg.retry s.gate (.fail error)).map fun gate =>
        { s with gate, attempt := .idle }
    | _ => none
  | .wake => (LlmClient.step cfg.retry s.gate .wake).map fun gate => { s with gate }
  | .resume => (LlmClient.step cfg.retry s.gate .resume).map s.begin
  | .abort reason =>
    (LlmClient.step cfg.retry s.gate (.abort reason)).map fun gate => { s with gate }

end Step

end StreamClient

end EphemeralAgent.LlmClient
