import EphemeralAgent.Engine.ProviderHistory

/-!
# The handle of a run, block by block

What the blocks of a run do to the abort signal and to the steer queue.

* `aborted_step` — only `interrupt()` aborts the signal, and only it says so
* `Account` — a block of the loop appends the steers that it takes, in their order
* `accounted_of_run` — what has been accepted has been appended, or still waits
-/

namespace EphemeralAgent.Engine

open Lib Background LlmClient Notification

variable {T : Type}

/-- A steer that has been accepted. -/
def RunItem.accepted? : RunItem T → Option UserMessage
  | .steered message true => some message
  | _ => none

/-- A steer that is appended to the conversation. -/
def RunItem.appendedSteer? : RunItem T → Option UserMessage
  | .appended (.user .steer message) => some message
  | _ => none

/-- The steers that a history has accepted, in order. -/
def acceptedSteers (history : List (RunItem T)) : List UserMessage :=
  history.filterMap RunItem.accepted?

/-- The steers that a history has appended, in order. -/
def appendedSteers (history : List (RunItem T)) : List UserMessage :=
  history.filterMap RunItem.appendedSteer?

/-- An item that the handle has no part in. -/
def RunItem.isQuiet : RunItem T → Bool
  | .steered .. => false
  | .interrupted => false
  | .finished .. => false
  | _ => true

theorem acceptedSteers_append (history items : List (RunItem T)) :
    acceptedSteers (history ++ items) = acceptedSteers history ++ acceptedSteers items :=
  List.filterMap_append

theorem appendedSteers_append (history items : List (RunItem T)) :
    appendedSteers (history ++ items) = appendedSteers history ++ appendedSteers items :=
  List.filterMap_append

theorem acceptedSteers_quiet {items : List (RunItem T)}
    (h : ∀ item ∈ items, item.isQuiet = true) : acceptedSteers items = [] := by
  rw [acceptedSteers, List.filterMap_eq_nil_iff]
  intro item hitem
  have hquiet := h item hitem
  cases item with
  | steered message accepted => cases hquiet
  | _ => rfl

theorem appendedSteers_tasks (items : List BackgroundItem) :
    appendedSteers (items.map .task : List (RunItem T)) = [] := by
  simp [appendedSteers, RunItem.appendedSteer?]

theorem acceptedSteers_tasks (items : List BackgroundItem) :
    acceptedSteers (items.map .task : List (RunItem T)) = [] := by
  simp [acceptedSteers, RunItem.accepted?]

/-! ## The blocks of the loop -/

/-- What a block of the loop does to the handle. -/
inductive Account (s : AgentRun T) (next : AgentRun T × List (RunItem T)) : Prop
  | goesOn (hitems : ∀ item ∈ next.2, item.isQuiet = true)
      (hsteers : s.handle.steers = appendedSteers next.2 ++ next.1.handle.steers)
      (hfinished : next.1.handle.finished = false) (hphase : next.1.phase ≠ .exited)
      (haborted : next.1.handle.aborted = s.handle.aborted)
      (hfinishing : next.1.handle.finishing = s.handle.finishing)
  | ends (before : List (RunItem T)) (outcome : AgentOutcome T) (gate : GateState)
      (disposed : List BackgroundItem)
      (heq : next.2 = before ++ .finished outcome gate :: disposed.map .task)
      (hitems : ∀ item ∈ before, item.isQuiet = true)
      (hsteers : s.handle.steers = appendedSteers before ++ gate.steers)
      (hfinished : next.1.handle.finished = true) (hphase : next.1.phase = .exited)
      (haborted : next.1.handle.aborted = s.handle.aborted)
      (hfinishing : next.1.handle.finishing = true) (hempty : next.1.handle.steers = [])

section Account

variable {cfg : LoopConfig} {s mid : AgentRun T} {items : List (RunItem T)}
  {next : AgentRun T × List (RunItem T)}

/-- A block of the loop does not say that the run is interrupted. -/
theorem Account.not_interrupted (h : Account s next) : .interrupted ∉ next.2 := by
  cases h with
  | goesOn hitems => exact fun hmem => absurd (hitems _ hmem) nofun
  | ends before outcome gate disposed heq hitems =>
    rw [heq, List.mem_append, List.mem_cons]
    rintro (hmem | hmem | hmem)
    · exact absurd (hitems _ hmem) nofun
    · cases hmem
    · obtain ⟨_, -, hitem⟩ := List.mem_map.mp hmem
      cases hitem

/-- What comes before, in the same block. -/
theorem Account.after (mid : AgentRun T) (items : List (RunItem T)) (hitems : ∀ item ∈ items, item.isQuiet = true)
    (hsteers : s.handle.steers = appendedSteers items ++ mid.handle.steers)
    (haborted : mid.handle.aborted = s.handle.aborted)
    (hfinishing : mid.handle.finishing = s.handle.finishing) (h : Account mid next) :
    Account s (next.1, items ++ next.2) := by
  have hquiet : ∀ before : List (RunItem T), (∀ item ∈ before, item.isQuiet = true) →
      ∀ item ∈ items ++ before, item.isQuiet = true := by
    intro before hbefore item hitem
    rcases List.mem_append.mp hitem with hitem | hitem
    · exact hitems item hitem
    · exact hbefore item hitem
  cases h with
  | goesOn hnext hrest hfinished hphase habort hfinish =>
    refine .goesOn (hquiet _ hnext) ?_ hfinished hphase (habort.trans haborted)
      (hfinish.trans hfinishing)
    rw [appendedSteers_append, List.append_assoc, ← hrest]
    exact hsteers
  | ends before outcome gate disposed heq hbefore hrest hfinished hphase habort hfinish hempty =>
    refine .ends (items ++ before) outcome gate disposed ?_ (hquiet _ hbefore) ?_ hfinished hphase
      (habort.trans haborted) hfinish hempty
    · show items ++ next.2 = _
      rw [heq, List.append_assoc]
    · rw [appendedSteers_append, List.append_assoc, ← hrest]
      exact hsteers

theorem account_exit (hlive : s.handle.finished = false) (status : FinishStatus T) :
    Account s (s.exit status) := by
  refine .ends [] { usage := s.usage, turns := s.turns, status } s.gate
    (s.tasks.disposeAll "run finished").2 ?_ nofun rfl ?_ rfl ?_ ?_ ?_
  · rw [AgentRun.exit, hlive]
    rfl
  all_goals simp [AgentRun.exit, RunHandle.finish, hlive]

theorem account_startTurn (hlive : s.handle.finished = false) :
    Account s (s.startTurn cfg) := by
  unfold AgentRun.startTurn
  split
  · exact account_exit hlive _
  · exact .goesOn (by simp [RunItem.isQuiet]) rfl hlive nofun rfl rfl

/-- A drain appends every steer of the queue. -/
theorem Account.drained (h : Account (s.drain cfg).1 next) :
    Account s (next.1, (s.drain cfg).2 ++ next.2) := by
  obtain ⟨notes, -, -, heq⟩ := drain_conversation cfg s
  refine Account.after (s.drain cfg).1 _ ?_ ?_ rfl rfl h
  · intro item hitem
    rw [heq, List.mem_append] at hitem
    rcases hitem with hitem | hitem <;> obtain ⟨_, -, rfl⟩ := List.mem_map.mp hitem <;> rfl
  · have hempty : (s.drain cfg).1.handle.steers = [] := rfl
    rw [heq, hempty, List.append_nil, appendedSteers_append]
    simp [appendedSteers, List.filterMap_map, RunItem.appendedSteer?, Function.comp_def]

theorem account_park (hlive : s.handle.finished = false) (since : Nat) :
    Account s (s.park since, []) := by
  have hhandle : ∀ waker, (s.handle.waitForSteer s.handle.aborted waker).1.steers =
        s.handle.steers ∧
      (s.handle.waitForSteer s.handle.aborted waker).1.finished = s.handle.finished ∧
      (s.handle.waitForSteer s.handle.aborted waker).1.aborted = s.handle.aborted ∧
      (s.handle.waitForSteer s.handle.aborted waker).1.finishing = s.handle.finishing := by
    intro waker
    unfold RunHandle.waitForSteer
    split <;> exact ⟨rfl, rfl, rfl, rfl⟩
  obtain ⟨hsteers, hfinished, haborted, hfinishing⟩ := hhandle s.parks
  exact .goesOn nofun hsteers.symm (hfinished.trans hlive) nofun haborted hfinishing

/-- **From the head of the loop to its next `await`.** -/
theorem account_loopHead (cfg : LoopConfig) (hlive : s.handle.finished = false) :
    Account s (s.loopHead cfg) := by
  have hhead := loopHead_head cfg s
  generalize s.loopHead cfg = next at hhead
  cases hhead with
  | cancelled => exact account_exit hlive _
  | completed => exact Account.drained (account_exit (s := (s.drain cfg).1) hlive _)
  | parked =>
    have h := (account_park (s := (s.drain cfg).1) hlive s.tasks.changes).drained
    rw [List.append_nil] at h
    exact h
  | turn => exact Account.drained (account_startTurn (s := (s.drain cfg).1) hlive)

theorem account_commitTurn (hlive : s.handle.finished = false) (message : AssistantMessage)
    (usage : UsageSnapshot) : Account s (s.commitTurn cfg message usage) := by
  let committed : AgentRun T :=
    { (s.appendAssistant message).1 with turns := s.turns + 1, usage := addUsage s.usage usage }
  have hafter : ∀ next : AgentRun T × List (RunItem T), Account committed next →
      Account s (next.1, [.appended (.assistant message), .committed usage] ++ next.2) :=
    fun next h => Account.after committed _ (by simp [RunItem.isQuiet]) rfl rfl rfl h
  unfold AgentRun.commitTurn
  dsimp only
  split
  · split
    · exact hafter _ (account_exit (s := committed) hlive _)
    · refine hafter ({ committed with pendingText := _, atRest := true, phase := .boundary [] },
        [.turnBoundary _]) (.goesOn ?_ rfl hlive nofun rfl rfl)
      simp [RunItem.isQuiet]
  · refine hafter ({ committed with phase := .boundary (toolUses message.val) },
      [.turnBoundary _]) (.goesOn ?_ rfl hlive nofun rfl rfl)
    simp [RunItem.isQuiet]

theorem account_commitBatch (hlive : s.handle.finished = false) (calls : List ToolUseBlock)
    (executed : List ToolCallResult) (accepted : Option T) (instant : Nat) :
    Account s (s.commitBatch cfg calls executed accepted instant) := by
  have hafter : ∀ (blocks : List ToolResultBlock) (next : AgentRun T × List (RunItem T)),
      Account (s.appendToolResults blocks).1 next →
        Account s (next.1, (s.appendToolResults blocks).2 ++ next.2) :=
    fun blocks next h => Account.after (s.appendToolResults blocks).1 _
      (by simp [AgentRun.appendToolResults, RunItem.isQuiet]) rfl rfl rfl h
  unfold AgentRun.commitBatch
  dsimp only
  split
  · split <;> exact hafter _ _ (account_exit (s := (s.appendToolResults _).1) hlive _)
  · split
    · exact hafter _ _ (account_exit (s := (s.appendToolResults _).1) hlive _)
    · exact hafter _ _ (account_loopHead (s := (s.appendToolResults _).1) cfg hlive)

/-- **Every block of the loop.** -/
theorem account_block (hlive : s.handle.finished = false) (h : Block cfg s true next) :
    Account s next := by
  cases h with
  | streamed event hphase =>
    exact .goesOn (by simp [RunItem.isQuiet]) rfl hlive nofun rfl rfl
  | completed message usage stopReason hphase =>
    exact .goesOn (by simp [RunItem.isQuiet]) rfl hlive nofun rfl rfl
  | died error hphase =>
    refine Account.after s _ ?_ ?_ rfl rfl (account_exit hlive _)
    · intro item hitem
      obtain ⟨reason, message, rfl⟩ := mem_salvage hitem
      rfl
    · have hsalvage : ∀ (aborted : Bool) (text reasoning : String),
          appendedSteers (AgentRun.salvage aborted error text reasoning : List (RunItem T)) =
            [] := by
        intro aborted text reasoning
        rw [appendedSteers, List.filterMap_eq_nil_iff]
        intro item hitem
        obtain ⟨reason, message, rfl⟩ := mem_salvage hitem
        rfl
      rw [hsalvage]
      rfl
  | executorThrew error hphase => exact account_exit hlive _
  | turn hphase => exact account_commitTurn hlive _ _
  | rested hphase => exact account_loopHead cfg hlive
  | dispatched hcalls hphase =>
    exact .goesOn (by simp [RunItem.isQuiet]) rfl hlive nofun rfl rfl
  | batch results accepted instant hphase => exact account_commitBatch hlive _ _ _ _
  | woken hphase hresolved =>
    exact Account.after (s.unhook _) [] nofun rfl rfl rfl (account_loopHead cfg hlive)

end Account

/-! ## Every block -/

/-- The run has finished exactly when the loop has exited. -/
def Live (s : AgentRun T) : Prop :=
  s.handle.finished = false ∧ s.phase ≠ .exited ∨ s.handle.finished = true ∧ s.phase = .exited

section Step

variable {cfg : LoopConfig} {s : AgentRun T} {label : RunLabel T}
  {next : AgentRun T × List (RunItem T)}

/-- A block of the loop starts at one of its `await`s. -/
theorem live_of_block (hlive : Live s) (h : Block cfg s true next) :
    s.handle.finished = false := by
  rcases hlive with ⟨hlive, -⟩ | ⟨-, hexited⟩
  · exact hlive
  · cases h with
    | died error hphase =>
      rcases hphase with hphase | ⟨_, _, hphase⟩ <;> exact absurd (hphase.symm.trans hexited) nofun
    | streamed _ hphase | completed _ _ _ hphase | executorThrew _ hphase | turn hphase
    | rested hphase | dispatched _ hphase | batch _ _ _ hphase | woken hphase =>
      exact absurd (hphase.symm.trans hexited) nofun

theorem account_step (hlive : Live s) (hlabel : label.isInside = true)
    (h : s.step cfg label = some next) : Account s next := by
  have hblock := step_block h
  rw [hlabel] at hblock
  exact account_block (live_of_block hlive hblock) hblock

theorem live_step (hlive : Live s) (h : s.step cfg label = some next) : Live next.1 := by
  cases hlabel : label.isInside with
  | false =>
    obtain ⟨houtside, -⟩ := outside_step hlabel h
    unfold Live
    rw [houtside.finished, houtside.phase]
    exact hlive
  | true =>
    cases account_step hlive hlabel h with
    | goesOn _ _ hfinished hphase => exact Or.inl ⟨hfinished, hphase⟩
    | ends _ _ _ _ _ _ _ hfinished hphase => exact Or.inr ⟨hfinished, hphase⟩

/-- Only `interrupt()` aborts the signal, and only it says so. -/
theorem aborted_step (hlive : Live s) (hlabel : label ≠ .interrupt)
    (h : s.step cfg label = some next) :
    next.1.handle.aborted = s.handle.aborted ∧ .interrupted ∉ next.2 := by
  cases hinside : label.isInside with
  | true =>
    have haccount := account_step hlive hinside h
    refine ⟨?_, haccount.not_interrupted⟩
    cases haccount with
    | goesOn _ _ _ _ haborted => exact haborted
    | ends _ _ _ _ _ _ _ _ _ haborted => exact haborted
  | false =>
    cases fired_of_step h with
    | interrupt => exact absurd rfl hlabel
    | steer message =>
      refine ⟨?_, by simp⟩
      simp only [AgentRun.wake, RunHandle.steer]
      split <;> rfl
    | published | unpublished | beginFinishing => exact ⟨rfl, by simp⟩
    | task label next hnext => exact ⟨rfl, by simp⟩
    | cancelFinishing =>
      refine ⟨?_, by simp⟩
      simp only [RunHandle.cancelFinishing]
      split <;> rfl
    | _ => cases hinside

/-- `interrupt()` says so when it aborts the signal. -/
theorem interrupt_aborted (s : AgentRun T)
    (h : s.handle.aborted = true ∨ .interrupted ∈ s.interrupt.2) :
    s.interrupt.1.handle.aborted = true := by
  unfold AgentRun.interrupt at h ⊢
  split
  · next hidle =>
    rw [if_pos hidle] at h
    rcases h with h | h
    · exact h
    · cases h
  · next hlive =>
    have hfinished : ¬ s.handle.finished = true := fun hf => hlive (Or.inl hf)
    simp [RunHandle.interrupt, hfinished]

/-- The steer queue is closed: `beginFinishing` has latched, and nothing waits. -/
def Latched (s : AgentRun T) : Prop :=
  s.handle.finishing = true ∧ s.handle.steers = []

/-- Only `cancelFinishing` reopens the queue. -/
theorem latched_step (hlive : Live s) (hlabel : label ≠ .cancelFinishing) (hlatched : Latched s)
    (h : s.step cfg label = some next) : Latched next.1 := by
  obtain ⟨hfinishing, hsteers⟩ := hlatched
  cases hinside : label.isInside with
  | true =>
    cases account_step hlive hinside h with
    | goesOn _ heq _ _ _ hkept =>
      refine ⟨hkept.trans hfinishing, ?_⟩
      rw [hsteers] at heq
      exact (List.append_eq_nil_iff.mp heq.symm).2
    | ends _ _ _ _ _ _ _ _ _ _ hkept hempty => exact ⟨hkept, hempty⟩
  | false =>
    cases fired_of_step h with
    | steer message =>
      simp only [AgentRun.wake, RunHandle.steer, hfinishing, true_or, if_true]
      exact ⟨hfinishing, hsteers⟩
    | interrupt =>
      unfold AgentRun.interrupt
      split
      · exact ⟨hfinishing, hsteers⟩
      · simp only [RunHandle.interrupt]
        split <;> exact ⟨hfinishing, hsteers⟩
    | published | unpublished | task => exact ⟨hfinishing, hsteers⟩
    | beginFinishing => exact ⟨rfl, hsteers⟩
    | cancelFinishing => exact absurd rfl hlabel
    | _ => cases hinside

end Step

/-! ## The completed finish -/

/-- A completed finish leaves no steer behind. -/
def FinishesEmpty (items : List (RunItem T)) : Prop :=
  ∀ outcome gate completion, .finished outcome gate ∈ items →
    outcome.status = .completed completion → gate.steers = []

section FinishesEmpty

variable {cfg : LoopConfig} {s : AgentRun T} {items more : List (RunItem T)}

theorem FinishesEmpty.append (h : FinishesEmpty items) (hmore : FinishesEmpty more) :
    FinishesEmpty (items ++ more) := by
  intro outcome gate completion hmem
  rcases List.mem_append.mp hmem with hmem | hmem
  · exact h outcome gate completion hmem
  · exact hmore outcome gate completion hmem

theorem finishesEmpty_quiet (h : ∀ item ∈ items, item.isQuiet = true) : FinishesEmpty items :=
  fun _ _ _ hmem => absurd (h _ hmem) nofun

theorem finishesEmpty_exit (status : FinishStatus T)
    (h : ∀ completion, status = .completed completion → s.handle.steers = []) :
    FinishesEmpty (s.exit status).2 := by
  intro outcome gate completion hmem hstatus
  rcases mem_exit hmem with ⟨-, heq⟩ | ⟨shown, heq⟩
  · cases heq
    exact h completion hstatus
  · cases heq

theorem finishesEmpty_fail (error : LoopError) : FinishesEmpty (s.fail error).2 := by
  refine finishesEmpty_exit _ fun completion hstatus => ?_
  exact absurd hstatus (classifyLoopError_ne_completed error _ completion)

theorem finishesEmpty_loopHead : FinishesEmpty (s.loopHead cfg).2 := by
  have hdrain : FinishesEmpty (s.drain cfg).2 := by
    obtain ⟨notes, -, -, heq⟩ := drain_conversation cfg s
    refine finishesEmpty_quiet fun item hitem => ?_
    rw [heq, List.mem_append] at hitem
    rcases hitem with hitem | hitem <;> obtain ⟨_, -, rfl⟩ := List.mem_map.mp hitem <;> rfl
  have hhead := loopHead_head cfg s
  generalize s.loopHead cfg = next at hhead
  cases hhead with
  | cancelled => exact finishesEmpty_exit _ nofun
  | completed => exact hdrain.append (finishesEmpty_exit _ fun _ _ => rfl)
  | parked => exact hdrain
  | turn =>
    refine hdrain.append ?_
    unfold AgentRun.startTurn
    split
    · exact finishesEmpty_exit _ nofun
    · exact finishesEmpty_quiet (by simp [RunItem.isQuiet])

theorem finishesEmpty_start (messages : List UserMessage) :
    FinishesEmpty (AgentRun.start (T := T) cfg messages).history := by
  refine FinishesEmpty.append (finishesEmpty_quiet fun item hitem => ?_) finishesEmpty_loopHead
  obtain ⟨message, -, rfl⟩ := List.mem_map.mp hitem
  rfl

theorem finishesEmpty_commitTurn (message : AssistantMessage) (usage : UsageSnapshot) :
    FinishesEmpty (s.commitTurn cfg message usage).2 := by
  have hafter : ∀ {more : List (RunItem T)}, FinishesEmpty more →
      FinishesEmpty ([.appended (.assistant message), .committed usage] ++ more) :=
    fun h => FinishesEmpty.append (finishesEmpty_quiet (by simp [RunItem.isQuiet])) h
  unfold AgentRun.commitTurn
  dsimp only
  split
  · split
    · next hopen =>
      refine hafter (finishesEmpty_exit _ fun _ _ => ?_)
      simpa [RunHandle.hasPendingSteers] using hopen.2.1
    · exact hafter (finishesEmpty_quiet (by simp [RunItem.isQuiet]))
  · exact hafter (finishesEmpty_quiet (by simp [RunItem.isQuiet]))

theorem finishesEmpty_commitBatch (calls : List ToolUseBlock) (executed : List ToolCallResult)
    (accepted : Option T) (instant : Nat) (h : accepted.isSome = true → s.handle.steers = []) :
    FinishesEmpty (s.commitBatch cfg calls executed accepted instant).2 := by
  have hafter : ∀ (blocks : List ToolResultBlock) {more : List (RunItem T)}, FinishesEmpty more →
      FinishesEmpty ((s.appendToolResults blocks).2 ++ more) := fun blocks more hmore =>
    FinishesEmpty.append (finishesEmpty_quiet
      (by simp [AgentRun.appendToolResults, RunItem.isQuiet])) hmore
  unfold AgentRun.commitBatch
  dsimp only
  split
  · split
    · exact hafter _ (finishesEmpty_exit _ fun _ _ => h rfl)
    · exact hafter _ (finishesEmpty_exit _ (by simp))
  · split
    · exact hafter _ (finishesEmpty_exit _ (by simp))
    · exact hafter _ finishesEmpty_loopHead

/-- **A completed finish leaves no steer behind**, unless a batch hands over a value that was
accepted while a steer waited. -/
theorem finishesEmpty_step {label : RunLabel T} {next : AgentRun T × List (RunItem T)}
    (hbatch : ∀ results accepted instant, label = .batchReturns results accepted instant →
      accepted.isSome = true → s.handle.steers = [])
    (h : s.step cfg label = some next) : FinishesEmpty next.2 := by
  have hsalvage : ∀ (aborted : Bool) (error : LoopError) (text reasoning : String),
      FinishesEmpty (AgentRun.salvage aborted error text reasoning : List (RunItem T)) := by
    intro aborted error text reasoning
    refine finishesEmpty_quiet fun item hitem => ?_
    obtain ⟨reason, message, rfl⟩ := mem_salvage hitem
    rfl
  cases fired_of_step h with
  | textDelta | reasoningDelta | toolUseDelta | complete | dispatched =>
    exact finishesEmpty_quiet (by simp [RunItem.isQuiet])
  | streamEnded => exact (hsalvage _ _ _ _).append (finishesEmpty_fail _)
  | turnReturns => exact finishesEmpty_commitTurn _ _
  | turnThrows => exact (hsalvage _ _ _ _).append (finishesEmpty_fail _)
  | batchThrows => exact finishesEmpty_fail _
  | rested => exact finishesEmpty_loopHead
  | batchReturns results accepted instant hphase =>
    exact finishesEmpty_commitBatch _ _ _ _ (hbatch _ _ _ rfl)
  | wakes => exact finishesEmpty_loopHead
  | _ =>
    obtain ⟨-, hitems⟩ := outside_step rfl h
    rintro outcome gate completion hmem
    cases hitems _ hmem

end FinishesEmpty

/-! ## Every run -/

/-- What has become of the steers that were accepted. -/
inductive Accounted (r : AgentHistory T) : Prop
  | running (hfinished : r.state.handle.finished = false) (hphase : r.state.phase ≠ .exited)
      (hquiet : ∀ outcome gate, .finished outcome gate ∉ r.history)
      (hsteers : acceptedSteers r.history = appendedSteers r.history ++ r.state.handle.steers)
  | finished (hfinished : r.state.handle.finished = true) (hphase : r.state.phase = .exited)
      (before after : List (RunItem T)) (outcome : AgentOutcome T) (gate : GateState)
      (heq : r.history = before ++ .finished outcome gate :: after)
      (hbefore : ∀ outcome gate, .finished outcome gate ∉ before)
      (hafter : ∀ outcome gate, .finished outcome gate ∉ after)
      (hlate : acceptedSteers after = [] ∧ appendedSteers after = [])
      (hsteers : acceptedSteers before = appendedSteers before ++ gate.steers)

section Runs

variable {cfg : LoopConfig} {r : AgentHistory T}

theorem Accounted.live (h : Accounted r) : Live r.state := by
  cases h with
  | running hfinished hphase => exact Or.inl ⟨hfinished, hphase⟩
  | finished hfinished hphase => exact Or.inr ⟨hfinished, hphase⟩

/-- What a label from outside the loop adds to the account. -/
theorem accounted_outside {label : RunLabel T} {next : AgentRun T × List (RunItem T)}
    (hinside : label.isInside = false) (h : r.state.step cfg label = some next) :
    (∀ outcome gate, .finished outcome gate ∉ next.2) ∧ appendedSteers next.2 = [] ∧
      next.1.handle.steers = r.state.handle.steers ++ acceptedSteers next.2 ∧
      (r.state.handle.finished = true → acceptedSteers next.2 = []) := by
  cases fired_of_step h with
  | steer message =>
    simp only [AgentRun.wake, RunHandle.steer]
    split
    · exact ⟨by simp, rfl, (List.append_nil _).symm, fun _ => rfl⟩
    · next hopen =>
      refine ⟨by simp, rfl, rfl, fun hfinished => ?_⟩
      exact absurd (Or.inr hfinished) hopen
  | interrupt =>
    unfold AgentRun.interrupt
    split
    · exact ⟨by simp, rfl, (List.append_nil _).symm, fun _ => rfl⟩
    · refine ⟨by simp, rfl, ?_, fun _ => rfl⟩
      simp only [RunHandle.interrupt]
      split <;> exact (List.append_nil _).symm
  | published | unpublished | beginFinishing =>
    exact ⟨by simp, rfl, (List.append_nil _).symm, fun _ => rfl⟩
  | task label next hnext =>
    refine ⟨by simp, appendedSteers_tasks _, ?_, fun _ => acceptedSteers_tasks _⟩
    rw [acceptedSteers_tasks]
    exact (List.append_nil _).symm
  | cancelFinishing =>
    refine ⟨by simp, rfl, ?_, fun _ => rfl⟩
    simp only [RunHandle.cancelFinishing]
    split <;> exact (List.append_nil _).symm
  | _ => cases hinside

theorem finished_not_mem_quiet {items : List (RunItem T)}
    (h : ∀ item ∈ items, item.isQuiet = true) (outcome : AgentOutcome T) (gate : GateState) :
    .finished outcome gate ∉ items :=
  fun hmem => absurd (h _ hmem) nofun

/-- A block of the loop, in a run that has not finished. -/
theorem accounted_block {s' : AgentRun T} {items : List (RunItem T)}
    (hquiet : ∀ outcome gate, .finished outcome gate ∉ r.history)
    (hsteers : acceptedSteers r.history = appendedSteers r.history ++ r.state.handle.steers)
    (h : Account r.state (s', items)) : Accounted { state := s', history := r.history ++ items } := by
  have hnone : ∀ before : List (RunItem T), (∀ item ∈ before, item.isQuiet = true) →
      ∀ outcome gate, .finished outcome gate ∉ r.history ++ before := by
    intro before hbefore outcome gate hmem
    rcases List.mem_append.mp hmem with hmem | hmem
    · exact hquiet outcome gate hmem
    · exact finished_not_mem_quiet hbefore outcome gate hmem
  have hsum : ∀ (before : List (RunItem T)) (queue : List UserMessage),
      (∀ item ∈ before, item.isQuiet = true) →
      r.state.handle.steers = appendedSteers before ++ queue →
      acceptedSteers (r.history ++ before) = appendedSteers (r.history ++ before) ++ queue := by
    intro before queue hbefore hqueue
    rw [acceptedSteers_append, appendedSteers_append, acceptedSteers_quiet hbefore,
      List.append_nil, hsteers, hqueue, List.append_assoc]
  cases h with
  | goesOn hitems hqueue hfinished hphase =>
    exact .running hfinished hphase (hnone items hitems) (hsum items _ hitems hqueue)
  | ends before outcome gate disposed heq hitems hqueue hfinished hphase =>
    refine .finished hfinished hphase (r.history ++ before) (disposed.map .task) outcome gate
      ?_ (hnone before hitems) (by simp) ⟨acceptedSteers_tasks _, appendedSteers_tasks _⟩
      (hsum before _ hitems hqueue)
    show r.history ++ items = _
    rw [show items = _ from heq, List.append_assoc]

/-- **One block.** -/
theorem accounted_step {label : RunLabel T} {s' : AgentRun T} {items : List (RunItem T)}
    (hr : Accounted r) (h : r.state.step cfg label = some (s', items)) :
    Accounted { state := s', history := r.history ++ items } := by
  cases hinside : label.isInside with
  | false =>
    obtain ⟨houtside, -⟩ := outside_step hinside h
    obtain ⟨hnone, happended, hqueue, hlate⟩ := accounted_outside hinside h
    have hnone_append : ∀ {history : List (RunItem T)} {outcome : AgentOutcome T} {gate : GateState},
        .finished outcome gate ∉ history → .finished outcome gate ∉ history ++ items := by
      intro history outcome gate hhistory hmem
      rcases List.mem_append.mp hmem with hmem | hmem
      · exact hhistory hmem
      · exact hnone outcome gate hmem
    cases hr with
    | running hfinished hphase hquiet hsteers =>
      refine .running (houtside.finished.trans hfinished) (houtside.phase ▸ hphase)
        (fun outcome gate => hnone_append (hquiet outcome gate)) ?_
      rw [acceptedSteers_append, appendedSteers_append, happended, List.append_nil, hqueue,
        hsteers, List.append_assoc]
    | finished hfinished hphase before after outcome gate heq hbefore hafter hquiet hsteers =>
      refine .finished (houtside.finished.trans hfinished) (houtside.phase.trans hphase) before
        (after ++ items) outcome gate ?_ hbefore
        (fun other gate => hnone_append (hafter other gate)) ?_ hsteers
      · show r.history ++ items = _
        rw [heq, List.append_assoc, List.cons_append]
      · rw [acceptedSteers_append, appendedSteers_append, happended, hlate hfinished, hquiet.1,
          hquiet.2]
        exact ⟨rfl, rfl⟩
  | true =>
    have hblock := step_block h
    rw [hinside] at hblock
    have hlive : r.state.handle.finished = false := live_of_block hr.live hblock
    cases hr with
    | finished hfinished => exact absurd (hfinished.symm.trans hlive) nofun
    | running _ _ hquiet hsteers =>
      exact accounted_block hquiet hsteers (account_block hlive hblock)

theorem accounted_start (cfg : LoopConfig) (messages : List UserMessage) :
    Accounted (AgentRun.start (T := T) cfg messages) := by
  have haccount : Account (AgentRun.fresh (T := T) messages)
      ((AgentRun.fresh messages).loopHead cfg) := account_loopHead cfg rfl
  refine accounted_block (r := { state := AgentRun.fresh messages, history := _ })
    (by simp) ?_ haccount
  simp [acceptedSteers, appendedSteers, RunItem.accepted?, RunItem.appendedSteer?, AgentRun.fresh,
    RunHandle.initial]

/-- A run does not start interrupted. -/
theorem interrupted_not_mem_start (cfg : LoopConfig) (messages : List UserMessage) :
    .interrupted ∉ (AgentRun.start (T := T) cfg messages).history := by
  have haccount : Account (AgentRun.fresh (T := T) messages)
      ((AgentRun.fresh messages).loopHead cfg) := account_loopHead cfg rfl
  intro hmem
  rcases List.mem_append.mp hmem with hmem | hmem
  · obtain ⟨_, -, hitem⟩ := List.mem_map.mp hmem
    cases hitem
  · exact haccount.not_interrupted hmem

theorem accounted_of_run {messages : List UserMessage} {labels : List (RunLabel T)}
    (run : Run (Recorded.step (AgentRun.step cfg)) Free (AgentRun.start cfg messages) labels r) :
    Accounted r := by
  refine run.invariant (accounted_start cfg messages) ?_
  intro r label r' _ hr hstep
  obtain ⟨state, items, hstate, rfl⟩ := Recorded.step_cases hstep
  exact accounted_step hr hstate

end Runs

end EphemeralAgent.Engine
