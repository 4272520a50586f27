import EphemeralAgent.Contracts.Message
import EphemeralAgent.LlmClient.Types

/-!
# The handle of a run

`src/agents/engine/run-handle.ts`: the abort signal, the steer queue, the finishing latch and the
one atomic finish.
-/

namespace EphemeralAgent.Engine

open LlmClient (UsageSnapshot)

/-- The kinds of an `AgentRunError`. -/
inductive AgentRunErrorKind where
  | maxTurns
  | providerError
  | internal
  deriving DecidableEq, Repr

structure AgentRunError where
  kind : AgentRunErrorKind
  message : String
  deriving DecidableEq, Repr

/-- The outcome of a completed run: the final text, or what the terminal tool has accepted. -/
inductive Completion (T : Type) where
  | text (text : String)
  | accepted (value : T)
  deriving DecidableEq, Repr

/-- How a run ends. -/
inductive FinishStatus (T : Type) where
  | completed (outcome : Completion T)
  | failed (error : AgentRunError)
  | cancelled
  deriving DecidableEq, Repr

/-- `AgentOutcome`. -/
structure AgentOutcome (T : Type) where
  usage : UsageSnapshot
  turns : Nat
  status : FinishStatus T
  deriving DecidableEq

/-- `RunHandle`, without its event stream; a waker is the number of the park that has registered
it. -/
structure RunHandle (T : Type) where
  steers : List UserMessage
  steerWakers : List Nat
  aborted : Bool
  finishing : Bool
  finished : Bool
  outcome : Option (AgentOutcome T)

namespace RunHandle

variable {T : Type}

def initial : RunHandle T :=
  { steers := [], steerWakers := [], aborted := false, finishing := false, finished := false
    outcome := none }

/-- `steer(message)`: its result, and the wakers that it calls. -/
def steer (handle : RunHandle T) (message : UserMessage) : RunHandle T × Bool × List Nat :=
  if handle.finishing ∨ handle.finished then (handle, false, [])
  else
    ({ handle with steers := handle.steers ++ [message], steerWakers := [] }, true,
      handle.steerWakers)

/-- `interrupt()`. -/
def interrupt (handle : RunHandle T) : RunHandle T :=
  if handle.finished then handle else { handle with aborted := true }

/-- `drainSteers()`. -/
def drainSteers (handle : RunHandle T) : RunHandle T × List UserMessage :=
  ({ handle with steers := [] }, handle.steers)

/-- `hasPendingSteers()`. -/
def hasPendingSteers (handle : RunHandle T) : Bool :=
  !handle.steers.isEmpty

/-- `waitForSteer(signal)`: register this waker, or resolve at once. -/
def waitForSteer (handle : RunHandle T) (aborted : Bool) (waker : Nat) : RunHandle T × Bool :=
  if handle.steers ≠ [] ∨ aborted then (handle, true)
  else ({ handle with steerWakers := handle.steerWakers ++ [waker] }, false)

/-- The signal of this waker aborts. -/
def abortWaker (handle : RunHandle T) (waker : Nat) : RunHandle T :=
  { handle with steerWakers := handle.steerWakers.filter (· != waker) }

/-- `beginFinishing()`. -/
def beginFinishing (handle : RunHandle T) : RunHandle T :=
  { handle with finishing := true }

/-- `cancelFinishing()`. -/
def cancelFinishing (handle : RunHandle T) : RunHandle T :=
  if handle.finished then handle else { handle with finishing := false }

/-- `finish(outcome)`: exactly once. -/
def finish (handle : RunHandle T) (outcome : AgentOutcome T) : RunHandle T :=
  if handle.finished then handle
  else
    { handle with finishing := true, finished := true, steers := [], outcome := some outcome }

end RunHandle

end EphemeralAgent.Engine
