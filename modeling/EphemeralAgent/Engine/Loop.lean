import EphemeralAgent.Background.Supervisor
import EphemeralAgent.Contracts.ToolCalls
import EphemeralAgent.Engine.RunHandle
import EphemeralAgent.Notification.Inbox

/-!
# The agent loop

`src/agents/engine/agent-loop.ts` with the conversation and the turn it drives, in
`conversation.ts` and `turn.ts`.  The loop is suspended at its own `await`s; steers, publishes,
tasks and interrupts come in between.  The tool executor is a port: whatever it returns is a label.

* `AgentRun` — the local variables of `runAgentLoop` with the state of the run it reads
* `AgentRun.loopHead` — from the head of the loop to its next `await`
* `AgentRun.step` — one synchronous block, and what others see of it
-/

namespace EphemeralAgent.Engine

open Background LlmClient Notification

/-- `TerminationMode`. -/
inductive TerminationMode where
  | text
  | terminal
  deriving DecidableEq, Repr

/-- What is fixed when a run starts; `stringify` is `JSON.stringify`. -/
structure LoopConfig where
  mode : TerminationMode
  terminalToolName : Option String
  maxTurns : Nat
  completionTimeoutMs : Nat
  stringify : Json → String

/-- `TurnFacts`: what the `turnBoundary` hooks are told. -/
structure TurnFacts where
  turn : Nat
  maxTurns : Nat
  terminalToolName : Option String
  toolCalls : Nat
  backgroundTaskCount : Nat
  hasPendingSteers : Bool
  deriving DecidableEq, Repr

/-- `UserMessageOrigin`. -/
inductive UserMessageOrigin where
  | initial
  | steer
  | notification
  deriving DecidableEq, Repr

/-- `PartialReason`. -/
inductive PartialReason where
  | interrupted
  | providerError
  deriving DecidableEq, Repr

/-- `ConversationEntry`. -/
inductive ConversationEntry where
  | user (origin : UserMessageOrigin) (message : UserMessage)
  | assistant (message : AssistantMessage)
  | assistantPartial (reason : PartialReason) (message : Message)
  | toolResults (message : Message)

/-- What the gates read, at the instant of a finish. -/
structure GateState where
  steers : List UserMessage
  notifications : List InboxEntry
  tasks : List BackgroundTaskRow

/-- What a block of the loop shows. -/
inductive RunItem (T : Type) where
  /-- `steer(message)` has returned `accepted`. -/
  | steered (message : UserMessage) (accepted : Bool)
  | interrupted
  /-- A message is appended to the conversation, or salvaged beside it. -/
  | appended (entry : ConversationEntry)
  /-- `turn_started`. -/
  | turnStarted (turn : Nat)
  /-- `streamMessage` is called with these messages. -/
  | requested (messages : List Message)
  /-- A provider event is forwarded. -/
  | streamed (event : LlmStreamEvent)
  /-- A turn is committed, with its usage. -/
  | committed (usage : UsageSnapshot)
  /-- The `turnBoundary` hooks are called. -/
  | turnBoundary (facts : TurnFacts)
  /-- `executeBatch` is called. -/
  | executeBatch (calls : List ToolUseBlock) (llmMessages : List Message)
  | task (item : BackgroundItem)
  /-- `run_finished`, with the gates as they are then. -/
  | finished (outcome : AgentOutcome T) (gate : GateState)

/-- A wait of `waitForWake`. -/
inductive WakeSource where
  | steer
  | inbox
  | tasks
  deriving DecidableEq, Repr

/-- Where `runAgentLoop` is suspended. -/
inductive LoopPhase where
  /-- `await waitForWake(ctx, since)`: park number `park`. -/
  | parked (since : Nat) (park : Nat)
  /-- In `runAssistantTurn`, with the text and the reasoning so far. -/
  | streaming (text reasoning : String)
  /-- `runAssistantTurn` has the completed message and closes the stream. -/
  | completing (text reasoning : String) (message : AssistantMessage) (usage : UsageSnapshot)
  /-- `await ctx.onTurnBoundary?.(facts)` of a turn with these calls. -/
  | boundary (calls : List ToolUseBlock)
  /-- `await ctx.tools.executeBatch(calls, ..)`. -/
  | batch (calls : List ToolUseBlock)
  | exited

/-- A run: the loop, the handle, the inbox, the task registry and the conversation. -/
structure AgentRun (T : Type) where
  handle : RunHandle T
  inbox : Inbox
  tasks : Supervisor
  /-- `Conversation.#llm`. -/
  conversation : List Message
  turns : Nat
  usage : UsageSnapshot
  pendingText : Option AssistantMessage
  atRest : Bool
  phase : LoopPhase
  /-- The number of parks so far. -/
  parks : Nat
  /-- The waits of `waitForWake` whose promise has resolved. -/
  resolved : List (WakeSource × Nat)

/-- What the loop may catch. -/
inductive LoopError where
  /-- A `ProviderError`. -/
  | provider (message : String)
  | other (message : String)

inductive RunLabel (T : Type) where
  | steer (message : UserMessage)
  | interrupt
  /-- `notifier.publish(message, opts)`. -/
  | publish (message : String) (key : Option String)
  | task (label : SupervisorLabel)
  /-- The terminal binding latches steers off. -/
  | beginFinishing
  | cancelFinishing
  /-- The provider stream yields a delta. -/
  | delta (event : LlmStreamEvent)
  /-- The provider stream yields `assistant_message_complete`. -/
  | complete (message : AssistantMessage) (usage : UsageSnapshot) (stopReason : Option String)
  /-- The provider stream ends without a completion. -/
  | streamEnded
  /-- `runAssistantTurn` returns. -/
  | turnReturns
  /-- The stream or the executor throws. -/
  | throws (error : LoopError)
  | boundaryReturns
  /-- The executor returns; `accepted` is what `takeAccepted()` would give. -/
  | batchReturns (results : List ToolCallResult) (accepted : Option T) (instant : Nat)
  /-- `waitForWake` returns. -/
  | wakes

/-- `addUsage`. -/
def addUsage (total turn : UsageSnapshot) : UsageSnapshot :=
  let cacheRead := total.cacheReadInputTokens.getD 0 + turn.cacheReadInputTokens.getD 0
  let cacheCreation :=
    total.cacheCreationInputTokens.getD 0 + turn.cacheCreationInputTokens.getD 0
  { inputTokens := total.inputTokens + turn.inputTokens
    outputTokens := total.outputTokens + turn.outputTokens
    cacheReadInputTokens := if cacheRead > 0 then some cacheRead else none
    cacheCreationInputTokens := if cacheCreation > 0 then some cacheCreation else none }

/-- `normalizeBatch`: every call is answered, by the last result with its id. -/
def normalizeBatch (calls : List ToolUseBlock) (results : List ToolCallResult) (instant : Nat) :
    List ToolCallResult :=
  calls.map fun call =>
    (results.reverse.find? fun result => result.toolUseId == call.toolUseId).getD
      (errorResult call.toolUseId "interrupted" instant)

/-- `projectToolResult`: content that is no string is printed here. -/
def projectToolResult (stringify : Json → String) (result : ToolCallResult) : ToolResultBlock :=
  { toolUseId := result.toolUseId
    content := result.content.asString.getD (stringify result.content)
    isError := result.isError }

/-- `classifyLoopError`. -/
def classifyLoopError {T : Type} (error : LoopError) (aborted : Bool) : FinishStatus T :=
  if aborted then .cancelled
  else
    match error with
    | .provider message => .failed { kind := .providerError, message }
    | .other message => .failed { kind := .internal, message }

namespace AgentRun

variable {T : Type}

/-- The state before the first block of the loop. -/
def fresh (messages : List UserMessage) : AgentRun T :=
  { handle := .initial
    inbox := .initial
    tasks := .initial
    conversation := messages.map (·.val)
    turns := 0
    usage := { inputTokens := 0, outputTokens := 0, cacheReadInputTokens := none
               cacheCreationInputTokens := none }
    pendingText := none
    atRest := false
    phase := .exited
    parks := 0
    resolved := [] }

def gate (s : AgentRun T) : GateState :=
  { steers := s.handle.steers, notifications := s.inbox.entries, tasks := s.tasks.list }

/-- `finish(status)`, then the `finally` block: the task registry is torn down. -/
def exit (s : AgentRun T) (status : FinishStatus T) : AgentRun T × List (RunItem T) :=
  let outcome : AgentOutcome T := { usage := s.usage, turns := s.turns, status }
  let disposed := s.tasks.disposeAll "run finished"
  ({ s with handle := s.handle.finish outcome, tasks := disposed.1, phase := .exited },
    (if s.handle.finished then [] else [.finished outcome s.gate]) ++ disposed.2.map .task)

/-! ## The conversation -/

/-- `appendUser`, one message after the other. -/
def appendUsers (s : AgentRun T) (origin : UserMessageOrigin) (messages : List UserMessage) :
    AgentRun T × List (RunItem T) :=
  ({ s with conversation := s.conversation ++ messages.map (·.val) },
    messages.map fun message => .appended (.user origin message))

/-- `appendAssistant`. -/
def appendAssistant (s : AgentRun T) (message : AssistantMessage) : AgentRun T × List (RunItem T) :=
  ({ s with conversation := s.conversation ++ [message.val] }, [.appended (.assistant message)])

/-- `appendToolResults`: one user message. -/
def appendToolResults (s : AgentRun T) (blocks : List ToolResultBlock) :
    AgentRun T × List (RunItem T) :=
  let message : Message := { role := .user, content := blocks.map ToolResultBlock.toBlock }
  ({ s with conversation := s.conversation ++ [message] }, [.appended (.toolResults message)])

/-- The reasoning and the text that a turn has accumulated. -/
def salvaged (text reasoning : String) : List ContentBlock :=
  (if reasoning = "" then [] else [.reasoning reasoning]) ++ if text = "" then [] else [.text text]

/-- What `runAssistantTurn` salvages when its turn dies. -/
def salvage (aborted : Bool) (error : LoopError) (text reasoning : String) : List (RunItem T) :=
  let reason : Option PartialReason :=
    if aborted then some .interrupted
    else
      match error with
      | .provider _ => some .providerError
      | .other _ => none
  match reason with
  | some reason =>
    if (salvaged text reasoning).isEmpty then []
    else
      [.appended (.assistantPartial reason
        { role := .assistant, content := salvaged text reasoning })]
  | none => []

/-! ## The park -/

/-- `waitForWake(ctx, since)`, up to its `await`. -/
def park (s : AgentRun T) (since : Nat) : AgentRun T :=
  let steer := s.handle.waitForSteer s.handle.aborted s.parks
  let next := s.inbox.waitForNext s.handle.aborted s.parks
  let change := s.tasks.waitForChange since s.handle.aborted s.parks
  { s with
    handle := steer.1
    inbox := next.1
    tasks := change.1
    parks := s.parks + 1
    resolved := s.resolved ++ (if steer.2 then [(.steer, s.parks)] else []) ++
      (if next.2 then [(.inbox, s.parks)] else []) ++
      if change.2 then [(.tasks, s.parks)] else []
    phase := .parked since s.parks }

/-- `settled.abort()`: the waits of this park are unhooked. -/
def unhook (s : AgentRun T) (park : Nat) : AgentRun T :=
  { s with
    handle := s.handle.abortWaker park
    inbox := s.inbox.abortWaker park
    tasks := s.tasks.abortWaker park }

/-! ## The loop -/

/-- The next provider turn, up to the first `await` on its stream. -/
def startTurn (cfg : LoopConfig) (s : AgentRun T) : AgentRun T × List (RunItem T) :=
  if s.turns ≥ cfg.maxTurns then
    s.exit (.failed
      { kind := .maxTurns
        message := s!"run spent its {cfg.maxTurns}-turn budget without completing" })
  else
    ({ s with atRest := false, pendingText := none, phase := .streaming "" "" },
      [.turnStarted (s.turns + 1), .requested s.conversation])

/-- Steers first: user input outranks system notices. -/
def drain (cfg : LoopConfig) (s : AgentRun T) : AgentRun T × List (RunItem T) :=
  let steers := s.handle.drainSteers
  let notes := s.inbox.drain
  let steered := { s with handle := steers.1, inbox := notes.1 }.appendUsers .steer steers.2
  let noted := steered.1.appendUsers .notification
    (notes.2.map fun note => systemNotificationMessage cfg.stringify [("message", .str note)])
  (noted.1, steered.2 ++ noted.2)

/-- From the head of the loop to its next `await`, or to the end of the run. -/
def loopHead (cfg : LoopConfig) (s : AgentRun T) : AgentRun T × List (RunItem T) :=
  if s.handle.aborted then s.exit .cancelled
  else
    let tasksSince := s.tasks.changeCount
    let drained := s.drain cfg
    let next : AgentRun T × List (RunItem T) :=
      if s.atRest ∧ s.handle.steers = [] ∧ s.inbox.entries = [] then
        if drained.1.tasks.isEmpty then
          match cfg.mode, s.pendingText with
          | .text, some message =>
            drained.1.exit (.completed (.text (assistantText message.val)))
          | _, _ => drained.1.startTurn cfg
        else (drained.1.park tasksSince, [])
      else drained.1.startTurn cfg
    (next.1, drained.2 ++ next.2)

/-- After `await runAssistantTurn(..)`. -/
def commitTurn (cfg : LoopConfig) (s : AgentRun T) (message : AssistantMessage)
    (usage : UsageSnapshot) : AgentRun T × List (RunItem T) :=
  let appended := s.appendAssistant message
  let committed : AgentRun T := { appended.1 with turns := s.turns + 1, usage := addUsage s.usage usage }
  let calls := toolUses message.val
  let facts : TurnFacts :=
    { turn := committed.turns
      maxTurns := cfg.maxTurns
      terminalToolName := cfg.terminalToolName
      toolCalls := calls.length
      backgroundTaskCount := committed.tasks.count
      hasPendingSteers := committed.handle.hasPendingSteers }
  let next : AgentRun T × List (RunItem T) :=
    if calls = [] then
      if cfg.mode = .text ∧ committed.handle.hasPendingSteers = false ∧
          committed.tasks.isEmpty = true ∧ committed.inbox.isEmpty = true then
        committed.exit (.completed (.text (assistantText message.val)))
      else
        ({ committed with
            pendingText := if cfg.mode = .text then some message else none
            atRest := true
            phase := .boundary [] }, [.turnBoundary facts])
    else ({ committed with phase := .boundary calls }, [.turnBoundary facts])
  (next.1, appended.2 ++ .committed usage :: next.2)

/-- After `await ctx.tools.executeBatch(..)`. -/
def commitBatch (cfg : LoopConfig) (s : AgentRun T) (calls : List ToolUseBlock)
    (executed : List ToolCallResult) (accepted : Option T) (instant : Nat) :
    AgentRun T × List (RunItem T) :=
  let results := normalizeBatch calls executed instant
  let appended := s.appendToolResults (results.map (projectToolResult cfg.stringify))
  let next : AgentRun T × List (RunItem T) :=
    if results.any (·.isTerminal) then
      match cfg.mode, accepted with
      | .terminal, some value => appended.1.exit (.completed (.accepted value))
      | _, _ =>
        appended.1.exit (.failed
          { kind := .internal, message := "terminal result without an accepted submission" })
    else if s.handle.aborted then appended.1.exit .cancelled
    else appended.1.loopHead cfg
  (next.1, appended.2 ++ next.2)

/-- The `catch` block. -/
def fail (s : AgentRun T) (error : LoopError) : AgentRun T × List (RunItem T) :=
  s.exit (classifyLoopError error s.handle.aborted)

/-- The wakers of a source are called: their promises resolve. -/
def wake (s : AgentRun T) (source : WakeSource) (wakers : List Nat) : AgentRun T :=
  { s with resolved := s.resolved ++ wakers.map fun waker => (source, waker) }

/-- `interrupt()`: the abort of the signal calls every waker. -/
def interrupt (s : AgentRun T) : AgentRun T × List (RunItem T) :=
  if s.handle.finished ∨ s.handle.aborted then (s, [])
  else
    let woken := ((s.wake .steer s.handle.steerWakers).wake .inbox s.inbox.wakers).wake .tasks
      s.tasks.wakers
    ({ woken with
        handle := { s.handle.interrupt with steerWakers := [] }
        inbox := { s.inbox with wakers := [] }
        tasks := { s.tasks with wakers := [] } }, [.interrupted])

/-- The wakers that a block of the supervisor has called. -/
def taskWakers (items : List BackgroundItem) : List Nat :=
  items.filterMap fun item =>
    match item with
    | .woke waker => some waker
    | _ => none

/-- One synchronous block; `none` when nothing waits for this label. -/
def step (cfg : LoopConfig) (s : AgentRun T) : RunLabel T → Option (AgentRun T × List (RunItem T))
  | .steer message =>
    let steered := s.handle.steer message
    some ({ s with handle := steered.1 }.wake .steer steered.2.2, [.steered message steered.2.1])
  | .interrupt => some s.interrupt
  | .publish message key =>
    if s.handle.finished then some (s, [])
    else
      let published := s.inbox.publish message key
      some ({ s with inbox := published.1 }.wake .inbox published.2, [])
  | .task label =>
    (s.tasks.step cfg.completionTimeoutMs label).map fun next =>
      ({ s with tasks := next.1 }.wake .tasks (taskWakers next.2), next.2.map .task)
  | .beginFinishing => some ({ s with handle := s.handle.beginFinishing }, [])
  | .cancelFinishing => some ({ s with handle := s.handle.cancelFinishing }, [])
  | .delta event =>
    match s.phase, event with
    | .streaming text reasoning, .assistantTextDelta delta =>
      some ({ s with phase := .streaming (text ++ delta) reasoning }, [.streamed event])
    | .streaming text reasoning, .reasoningDelta delta =>
      some ({ s with phase := .streaming text (reasoning ++ delta) }, [.streamed event])
    | .streaming _ _, .toolUseDelta .. => some (s, [.streamed event])
    | _, _ => none
  | .complete message usage stopReason =>
    match s.phase with
    | .streaming text reasoning =>
      some ({ s with phase := .completing text reasoning message usage },
        [.streamed (.assistantMessageComplete message.val usage stopReason)])
    | _ => none
  | .streamEnded =>
    match s.phase with
    | .streaming text reasoning =>
      let error : LoopError := .other "provider stream ended without assistant completion"
      let failed := s.fail error
      some (failed.1, salvage s.handle.aborted error text reasoning ++ failed.2)
    | _ => none
  | .turnReturns =>
    match s.phase with
    | .completing _ _ message usage => some (s.commitTurn cfg message usage)
    | _ => none
  | .throws error =>
    let failed := s.fail error
    match s.phase with
    | .streaming text reasoning | .completing text reasoning _ _ =>
      some (failed.1, salvage s.handle.aborted error text reasoning ++ failed.2)
    | .batch _ => some failed
    | _ => none
  | .boundaryReturns =>
    match s.phase with
    | .boundary [] => some (s.loopHead cfg)
    | .boundary calls =>
      some ({ s with phase := .batch calls }, [.executeBatch calls s.conversation])
    | _ => none
  | .batchReturns results accepted instant =>
    match s.phase with
    | .batch calls => some (s.commitBatch cfg calls results accepted instant)
    | _ => none
  | .wakes =>
    match s.phase with
    | .parked _ park =>
      if s.resolved.any (·.2 == park) then some ((s.unhook park).loopHead cfg) else none
    | _ => none

/-- `start(..)`: the first block of the loop runs before the handle is returned. -/
def start (cfg : LoopConfig) (messages : List UserMessage) : Lib.Recorded (AgentRun T) (RunItem T) :=
  let first := (AgentRun.fresh messages).loopHead cfg
  { state := first.1
    history := (messages.map fun message => .appended (.user .initial message)) ++ first.2 }

end AgentRun

end EphemeralAgent.Engine
