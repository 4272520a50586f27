import EphemeralAgent.Engine.Loop

/-!
# The blocks of the agent loop

What one block of `runAgentLoop` can do, said once; the properties of runs are derived from it.

* `Fired` — every label with what it waits for, and the block that it runs
* `Outside` — what steers, publishes, tasks and interrupts leave alone
* `Head` — how a block ends that reaches the head of the loop
* `Block` — the blocks of a run; `step_block` sorts every step into one of them
-/

namespace EphemeralAgent.Engine

open Background LlmClient Notification

variable {T : Type}

/-! ## The labels -/

/-- A label with what it waits for, and the block that it runs. -/
inductive Fired (cfg : LoopConfig) (s : AgentRun T) :
    RunLabel T → AgentRun T × List (RunItem T) → Prop
  | steer (message : UserMessage) :
      Fired cfg s (.steer message)
        (AgentRun.wake { s with handle := (s.handle.steer message).1 } .steer
            (s.handle.steer message).2.2,
          [.steered message (s.handle.steer message).2.1])
  | interrupt : Fired cfg s .interrupt s.interrupt
  | published (message : String) (key : Option String) (hlive : s.handle.finished = false) :
      Fired cfg s (.publish message key)
        (AgentRun.wake { s with inbox := (s.inbox.publish message key).1 } .inbox
          (s.inbox.publish message key).2, [])
  | unpublished (message : String) (key : Option String) (hfinished : s.handle.finished = true) :
      Fired cfg s (.publish message key) (s, [])
  | task (label : SupervisorLabel) (next : Supervisor × List BackgroundItem)
      (hnext : s.tasks.step cfg.completionTimeoutMs label = some next) :
      Fired cfg s (.task label)
        (AgentRun.wake { s with tasks := next.1 } .tasks (AgentRun.taskWakers next.2),
          next.2.map .task)
  | beginFinishing :
      Fired cfg s .beginFinishing ({ s with handle := s.handle.beginFinishing }, [])
  | cancelFinishing :
      Fired cfg s .cancelFinishing ({ s with handle := s.handle.cancelFinishing }, [])
  | textDelta {text reasoning : String} (delta : String)
      (hphase : s.phase = .streaming text reasoning) :
      Fired cfg s (.delta (.assistantTextDelta delta))
        ({ s with phase := .streaming (text ++ delta) reasoning },
          [.streamed (.assistantTextDelta delta)])
  | reasoningDelta {text reasoning : String} (delta : String)
      (hphase : s.phase = .streaming text reasoning) :
      Fired cfg s (.delta (.reasoningDelta delta))
        ({ s with phase := .streaming text (reasoning ++ delta) },
          [.streamed (.reasoningDelta delta)])
  | toolUseDelta {text reasoning : String} (toolUseId : ToolUseId) (name : String)
      (input : JsonObject) (hphase : s.phase = .streaming text reasoning) :
      Fired cfg s (.delta (.toolUseDelta toolUseId name input))
        (s, [.streamed (.toolUseDelta toolUseId name input)])
  | complete {text reasoning : String} (message : AssistantMessage) (usage : UsageSnapshot)
      (stopReason : Option String) (hphase : s.phase = .streaming text reasoning) :
      Fired cfg s (.complete message usage stopReason)
        ({ s with phase := .completing text reasoning message usage },
          [.streamed (.assistantMessageComplete message.val usage stopReason)])
  | streamEnded {text reasoning : String} (error : LoopError)
      (herror : error = .other "provider stream ended without assistant completion")
      (hphase : s.phase = .streaming text reasoning) :
      Fired cfg s .streamEnded ((s.fail error).1,
        AgentRun.salvage s.handle.aborted error text reasoning ++ (s.fail error).2)
  | turnReturns {text reasoning : String} {message : AssistantMessage} {usage : UsageSnapshot}
      (hphase : s.phase = .completing text reasoning message usage) :
      Fired cfg s .turnReturns (s.commitTurn cfg message usage)
  | turnThrows {text reasoning : String} (error : LoopError)
      (hphase : s.phase = .streaming text reasoning ∨
        ∃ message usage, s.phase = .completing text reasoning message usage) :
      Fired cfg s (.throws error) ((s.fail error).1,
        AgentRun.salvage s.handle.aborted error text reasoning ++ (s.fail error).2)
  | batchThrows (error : LoopError) {calls : List ToolUseBlock} (hphase : s.phase = .batch calls) :
      Fired cfg s (.throws error) (s.fail error)
  | rested (hphase : s.phase = .boundary []) : Fired cfg s .boundaryReturns (s.loopHead cfg)
  | dispatched {calls : List ToolUseBlock} (hcalls : calls ≠ [])
      (hphase : s.phase = .boundary calls) :
      Fired cfg s .boundaryReturns
        ({ s with phase := .batch calls }, [.executeBatch calls s.conversation])
  | batchReturns {calls : List ToolUseBlock} (results : List ToolCallResult) (accepted : Option T)
      (instant : Nat) (hphase : s.phase = .batch calls) :
      Fired cfg s (.batchReturns results accepted instant)
        (s.commitBatch cfg calls results accepted instant)
  | wakes {since park : Nat} (hphase : s.phase = .parked since park)
      (hresolved : s.resolved.any (·.2 == park) = true) :
      Fired cfg s .wakes ((s.unhook park).loopHead cfg)

/-- **Every step is one of these.** -/
theorem fired_of_step {cfg : LoopConfig} {s : AgentRun T} {label : RunLabel T}
    {next : AgentRun T × List (RunItem T)} (h : s.step cfg label = some next) :
    Fired cfg s label next := by
  cases label with
  | steer message =>
    cases h
    exact .steer message
  | interrupt =>
    cases h
    exact .interrupt
  | publish message key =>
    simp only [AgentRun.step] at h
    split at h
    · next hfinished =>
      cases h
      exact .unpublished message key hfinished
    · next hlive =>
      cases h
      exact .published message key (by simpa using hlive)
  | task label =>
    obtain ⟨next, hnext, rfl⟩ := Option.map_eq_some_iff.mp h
    exact .task label next hnext
  | beginFinishing =>
    cases h
    exact .beginFinishing
  | cancelFinishing =>
    cases h
    exact .cancelFinishing
  | delta event =>
    simp only [AgentRun.step] at h
    split at h
    · next hphase =>
      cases h
      exact .textDelta _ hphase
    · next hphase =>
      cases h
      exact .reasoningDelta _ hphase
    · next hphase =>
      cases h
      exact .toolUseDelta _ _ _ hphase
    · cases h
  | throws error =>
    simp only [AgentRun.step] at h
    split at h
    · next hphase =>
      cases h
      exact .turnThrows error (Or.inl hphase)
    · next hphase =>
      cases h
      exact .turnThrows error (Or.inr ⟨_, _, hphase⟩)
    · next hphase =>
      cases h
      exact .batchThrows error hphase
    · cases h
  | streamEnded =>
    simp only [AgentRun.step] at h
    split at h
    · next hphase =>
      cases h
      exact .streamEnded _ rfl hphase
    · cases h
  | boundaryReturns =>
    simp only [AgentRun.step] at h
    split at h
    · next hphase =>
      cases h
      exact .rested hphase
    · next calls hcalls hphase =>
      cases h
      exact .dispatched (by rintro rfl; exact hcalls rfl) hphase
    · cases h
  | wakes =>
    simp only [AgentRun.step] at h
    split at h
    · next hphase =>
      obtain ⟨hresolved, heq⟩ := Option.ite_none_right_eq_some.mp h
      cases heq
      exact .wakes hphase hresolved
    · cases h
  | _ =>
    simp only [AgentRun.step] at h
    split at h
    · next hphase =>
      cases h
      constructor <;> exact hphase
    · cases h

/-! ## From outside the loop -/

/-- The loop's own variables, the conversation included, are left alone. -/
structure Outside (s s' : AgentRun T) : Prop where
  conversation : s'.conversation = s.conversation
  turns : s'.turns = s.turns
  usage : s'.usage = s.usage
  pendingText : s'.pendingText = s.pendingText
  atRest : s'.atRest = s.atRest
  phase : s'.phase = s.phase
  parks : s'.parks = s.parks
  finished : s'.handle.finished = s.handle.finished
  outcome : s'.handle.outcome = s.handle.outcome

/-- What the loop shows itself. -/
def RunItem.isInside : RunItem T → Bool
  | .steered .. => false
  | .interrupted => false
  | .task _ => false
  | _ => true

/-- The label continues the loop. -/
def RunLabel.isInside : RunLabel T → Bool
  | .steer _ => false
  | .interrupt => false
  | .publish .. => false
  | .task _ => false
  | .beginFinishing => false
  | .cancelFinishing => false
  | _ => true

section Outside

variable {cfg : LoopConfig} {s : AgentRun T}

theorem outside_interrupt (s : AgentRun T) :
    Outside s s.interrupt.1 ∧ ∀ item ∈ s.interrupt.2, item.isInside = false := by
  unfold AgentRun.interrupt
  split
  · exact ⟨⟨rfl, rfl, rfl, rfl, rfl, rfl, rfl, rfl, rfl⟩, nofun⟩
  · next h =>
    have hfinished : ¬ s.handle.finished = true := fun hf => h (Or.inl hf)
    refine ⟨⟨rfl, rfl, rfl, rfl, rfl, rfl, rfl, ?_, ?_⟩, by simp [RunItem.isInside]⟩ <;>
      simp [RunHandle.interrupt, hfinished]

/-- **A label from outside the loop leaves the loop alone.** -/
theorem outside_step {label : RunLabel T} {next : AgentRun T × List (RunItem T)}
    (hlabel : label.isInside = false) (h : s.step cfg label = some next) :
    Outside s next.1 ∧ ∀ item ∈ next.2, item.isInside = false := by
  cases fired_of_step h with
  | steer message =>
    refine ⟨⟨rfl, rfl, rfl, rfl, rfl, rfl, rfl, ?_, ?_⟩, by simp [RunItem.isInside]⟩ <;>
      simp only [AgentRun.wake, RunHandle.steer] <;> split <;> rfl
  | interrupt => exact outside_interrupt s
  | published | unpublished | beginFinishing =>
    exact ⟨⟨rfl, rfl, rfl, rfl, rfl, rfl, rfl, rfl, rfl⟩, nofun⟩
  | task label next hnext =>
    refine ⟨⟨rfl, rfl, rfl, rfl, rfl, rfl, rfl, rfl, rfl⟩, fun item hitem => ?_⟩
    obtain ⟨shown, -, rfl⟩ := List.mem_map.mp hitem
    rfl
  | cancelFinishing =>
    refine ⟨⟨rfl, rfl, rfl, rfl, rfl, rfl, rfl, ?_, ?_⟩, nofun⟩ <;>
      simp only [RunHandle.cancelFinishing] <;> split <;> rfl
  | _ => cases hlabel

end Outside

/-! ## The pieces of a block -/

/-- What a finish shows. -/
theorem mem_exit {s : AgentRun T} {status : FinishStatus T} {item : RunItem T}
    (h : item ∈ (s.exit status).2) :
    (s.handle.finished = false ∧
        item = .finished { usage := s.usage, turns := s.turns, status } s.gate) ∨
      ∃ shown, item = .task shown := by
  rcases List.mem_append.mp h with h | h
  · split at h
    · cases h
    · next hfinished => exact Or.inl ⟨by simpa using hfinished, List.mem_singleton.mp h⟩
  · obtain ⟨shown, -, rfl⟩ := List.mem_map.mp h
    exact Or.inr ⟨shown, rfl⟩

/-- What the loop drains is appended, steers first. -/
theorem drain_conversation (cfg : LoopConfig) (s : AgentRun T) :
    ∃ notes : List UserMessage, (s.drain cfg).1.conversation =
        s.conversation ++ s.handle.steers.map (·.val) ++ notes.map (·.val) ∧
      (s.inbox.entries = [] → notes = []) ∧
      (s.drain cfg).2 = (s.handle.steers.map fun message => .appended (.user .steer message)) ++
        notes.map fun message => .appended (.user .notification message) := by
  refine ⟨_, rfl, fun hempty => ?_, rfl⟩
  simp [Inbox.drain, hempty]

/-- What the catch block of a turn salvages stays beside the conversation. -/
theorem mem_salvage {aborted : Bool} {error : LoopError} {text reasoning : String}
    {item : RunItem T} (h : item ∈ AgentRun.salvage aborted error text reasoning) :
    ∃ reason message, item = .appended (.assistantPartial reason message) := by
  unfold AgentRun.salvage at h
  dsimp only at h
  split at h
  · split at h
    · cases h
    · exact ⟨_, _, List.mem_singleton.mp h⟩
  · cases h

/-- An error completes no run. -/
theorem classifyLoopError_ne_completed (error : LoopError) (aborted : Bool)
    (completion : Completion T) : classifyLoopError error aborted ≠ .completed completion := by
  unfold classifyLoopError
  split
  · simp
  · split <;> simp

/-! ## The head of the loop -/

/-- How a block goes on from the head of the loop. -/
inductive Head (cfg : LoopConfig) (s : AgentRun T) : AgentRun T × List (RunItem T) → Prop
  | cancelled (haborted : s.handle.aborted = true) : Head cfg s (s.exit .cancelled)
  | completed (message : AssistantMessage) (hlive : s.handle.aborted = false)
      (hmode : cfg.mode = .text) (htext : s.pendingText = some message)
      (hrest : s.atRest = true) (hsteers : s.handle.steers = []) (hnotes : s.inbox.entries = [])
      (htasks : s.tasks.entries = []) :
      Head cfg s (((s.drain cfg).1.exit (.completed (.text (assistantText message.val)))).1,
        (s.drain cfg).2 ++
          ((s.drain cfg).1.exit (.completed (.text (assistantText message.val)))).2)
  | parked (hlive : s.handle.aborted = false) (hrest : s.atRest = true)
      (hsteers : s.handle.steers = []) (hnotes : s.inbox.entries = [])
      (htasks : s.tasks.entries ≠ []) :
      Head cfg s ((s.drain cfg).1.park s.tasks.changes, (s.drain cfg).2)
  | turn (hlive : s.handle.aborted = false) :
      Head cfg s (((s.drain cfg).1.startTurn cfg).1,
        (s.drain cfg).2 ++ ((s.drain cfg).1.startTurn cfg).2)

theorem loopHead_head (cfg : LoopConfig) (s : AgentRun T) : Head cfg s (s.loopHead cfg) := by
  unfold AgentRun.loopHead
  by_cases haborted : s.handle.aborted = true
  · rw [if_pos haborted]
    exact .cancelled haborted
  · have hlive : s.handle.aborted = false := by simpa using haborted
    rw [if_neg haborted]
    by_cases hrest : s.atRest = true ∧ s.handle.steers = [] ∧ s.inbox.entries = []
    · simp only [if_pos hrest]
      obtain ⟨hrest, hsteers, hnotes⟩ := hrest
      by_cases htasks : (s.drain cfg).1.tasks.isEmpty = true
      · rw [if_pos htasks]
        have hempty : s.tasks.entries = [] := List.isEmpty_iff.mp htasks
        split
        · next message hmode htext =>
          exact .completed message hlive hmode htext hrest hsteers hnotes hempty
        · exact .turn hlive
      · rw [if_neg htasks, List.append_nil]
        exact .parked hlive hrest hsteers hnotes fun hempty => htasks (List.isEmpty_iff.mpr hempty)
    · simp only [if_neg hrest]
      exact .turn hlive

/-! ## Every block -/

/-- The blocks of a run, from outside the loop or from inside. -/
inductive Block (cfg : LoopConfig) (s : AgentRun T) :
    Bool → AgentRun T × List (RunItem T) → Prop
  | outside {s' : AgentRun T} {items : List (RunItem T)} (houtside : Outside s s')
      (hitems : ∀ item ∈ items, item.isInside = false) : Block cfg s false (s', items)
  | streamed {text reasoning text' reasoning' : String} (event : LlmStreamEvent)
      (hphase : s.phase = .streaming text reasoning) :
      Block cfg s true ({ s with phase := .streaming text' reasoning' }, [.streamed event])
  | completed {text reasoning : String} (message : AssistantMessage) (usage : UsageSnapshot)
      (stopReason : Option String) (hphase : s.phase = .streaming text reasoning) :
      Block cfg s true ({ s with phase := .completing text reasoning message usage },
        [.streamed (.assistantMessageComplete message.val usage stopReason)])
  | died {text reasoning : String} (error : LoopError)
      (hphase : s.phase = .streaming text reasoning ∨
        ∃ message usage, s.phase = .completing text reasoning message usage) :
      Block cfg s true ((s.fail error).1,
        AgentRun.salvage s.handle.aborted error text reasoning ++ (s.fail error).2)
  | executorThrew (error : LoopError) {calls : List ToolUseBlock} (hphase : s.phase = .batch calls) :
      Block cfg s true (s.fail error)
  | turn {text reasoning : String} {message : AssistantMessage} {usage : UsageSnapshot}
      (hphase : s.phase = .completing text reasoning message usage) :
      Block cfg s true (s.commitTurn cfg message usage)
  | rested (hphase : s.phase = .boundary []) : Block cfg s true (s.loopHead cfg)
  | dispatched {calls : List ToolUseBlock} (hcalls : calls ≠ []) (hphase : s.phase = .boundary calls) :
      Block cfg s true ({ s with phase := .batch calls }, [.executeBatch calls s.conversation])
  | batch {calls : List ToolUseBlock} (results : List ToolCallResult) (accepted : Option T)
      (instant : Nat) (hphase : s.phase = .batch calls) :
      Block cfg s true (s.commitBatch cfg calls results accepted instant)
  | woken {since park : Nat} (hphase : s.phase = .parked since park)
      (hresolved : s.resolved.any (·.2 == park) = true) :
      Block cfg s true ((s.unhook park).loopHead cfg)

/-- **Every step is one of the blocks.** -/
theorem step_block {cfg : LoopConfig} {s : AgentRun T} {label : RunLabel T}
    {next : AgentRun T × List (RunItem T)} (h : s.step cfg label = some next) :
    Block cfg s label.isInside next := by
  cases fired_of_step h with
  | textDelta delta hphase => exact .streamed _ hphase
  | reasoningDelta delta hphase => exact .streamed _ hphase
  | @toolUseDelta text reasoning toolUseId name input hphase =>
    -- the delta of a call leaves the state as it is
    have hs : s = { s with phase := .streaming text reasoning } := by rw [← hphase]
    rw [hs]
    exact .streamed _ rfl
  | complete message usage stopReason hphase =>
    exact .completed message usage stopReason hphase
  | streamEnded error _ hphase => exact .died error (Or.inl hphase)
  | turnReturns hphase => exact .turn hphase
  | turnThrows error hphase => exact .died error hphase
  | batchThrows error hphase => exact .executorThrew error hphase
  | rested hphase => exact .rested hphase
  | dispatched hcalls hphase => exact .dispatched hcalls hphase
  | batchReturns results accepted instant hphase => exact .batch results accepted instant hphase
  | wakes hphase hresolved => exact .woken hphase hresolved
  | _ =>
    obtain ⟨houtside, hitems⟩ := outside_step rfl h
    exact .outside houtside hitems

/-- The configuration of the concrete runs. -/
def sampleConfig (mode : TerminationMode) : LoopConfig :=
  { mode, terminalToolName := none, maxTurns := 4, completionTimeoutMs := 0
    stringify := fun _ => "" }

end EphemeralAgent.Engine
