import Mathlib.Algebra.Order.Ring.Rat
import Mathlib.Order.WithBot
import EphemeralAgent.Contracts.Message

/-!
# What a model invocation yields and how it fails

`src/agents/llm-client/events.ts`, `errors.ts`, `config.ts` and the usage record of `types.ts`.
A delay is a rational number of seconds or infinite.
-/

namespace EphemeralAgent.LlmClient

/-- `UsageSnapshot`; a cache field is absent until a provider reports it. -/
structure UsageSnapshot where
  inputTokens : Nat
  outputTokens : Nat
  cacheReadInputTokens : Option Nat
  cacheCreationInputTokens : Option Nat
  deriving DecidableEq

/-- `LlmStreamEvent`: three deltas and the success terminus. -/
inductive LlmStreamEvent where
  | assistantTextDelta (text : String)
  | reasoningDelta (text : String)
  | toolUseDelta (toolUseId : ToolUseId) (name : String) (input : JsonObject)
  | assistantMessageComplete (message : Message) (usage : UsageSnapshot)
      (stopReason : Option String)

/-- `ProviderErrorKind`. -/
inductive ProviderErrorKind where
  | authentication
  | rateLimit
  | server
  | request
  | transport
  | decode
  deriving DecidableEq, Repr

/-- Seconds as JavaScript numbers have them: `⊤` is `Infinity`. -/
abbrev Seconds := WithTop ℚ

/-- `ProviderError`. -/
structure ProviderError where
  kind : ProviderErrorKind
  message : String
  statusCode : Option Int
  requestId : Option String
  retryAfterS : Option Seconds
  truncated : Bool

/-- `ProviderError.fromStatus`. -/
def ProviderError.fromStatus (status : Int) (message : String)
    (requestId : Option String) (retryAfterS : Option Seconds) : ProviderError :=
  let kind : ProviderErrorKind :=
    if status = 401 ∨ status = 403 then .authentication
    else if status = 429 then .rateLimit
    else if status = 500 ∨ status = 502 ∨ status = 503 ∨ status = 529 then .server
    else .request
  { kind, message, statusCode := some status, requestId, retryAfterS, truncated := false }

/-- `RetryConfig`, the output of `RetryConfigSchema`. -/
structure RetryConfig where
  maxRetries : Nat
  baseDelayS : Seconds
  maxDelayS : Seconds
  statusCodes : List Int

/-- What a stream may throw: a `ProviderError`, or any other value such as an abort reason. -/
inductive Thrown (E : Type*) where
  | provider (error : ProviderError)
  | other (value : E)

end EphemeralAgent.LlmClient
