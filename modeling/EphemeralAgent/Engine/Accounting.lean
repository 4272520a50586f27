import Mathlib.Algebra.GroupWithZero.Nat
import EphemeralAgent.Engine.ProviderHistory

/-!
# Counting turns and usage

A turn is announced, sent to the provider, and committed or lost.  The loop counts it when it is
committed, over all parks and whatever ends the run.

* `usageTotal` — what a run has used, from the usage of its turns
* `Tally` — the history as a list of whole turns, with one that may be open
* `Counting` — the invariant of the loop
* `turn_accounting` — **turns are numbered, sent once, bounded, and counted when committed**
-/

namespace EphemeralAgent.Engine

open Lib LlmClient Notification

variable {T : Type}

/-! ## Usage -/

/-- A count that is only reported when it is positive. -/
def reported (count : Nat) : Option Nat :=
  if count > 0 then some count else none

/-- The fieldwise sum of the usage of these turns. -/
def usageTotal (usages : List UsageSnapshot) : UsageSnapshot where
  inputTokens := (usages.map (·.inputTokens)).sum
  outputTokens := (usages.map (·.outputTokens)).sum
  cacheReadInputTokens := reported (usages.map (·.cacheReadInputTokens.getD 0)).sum
  cacheCreationInputTokens := reported (usages.map (·.cacheCreationInputTokens.getD 0)).sum

theorem reported_getD (count : Nat) : (reported count).getD 0 = count := by
  unfold reported
  by_cases h : count > 0
  · rw [if_pos h]
    rfl
  · rw [if_neg h]
    show 0 = count
    omega

/-- **`addUsage` adds one turn to the total.** -/
theorem addUsage_total (usages : List UsageSnapshot) (usage : UsageSnapshot) :
    addUsage (usageTotal usages) usage = usageTotal (usages ++ [usage]) := by
  have hsum : ∀ field : UsageSnapshot → Nat,
      ((usages ++ [usage]).map field).sum = (usages.map field).sum + field usage := by
    intro field
    simp
  simp only [addUsage, usageTotal, reported_getD, hsum]
  rfl

/-! ## The turns of a history -/

/-- What happens to a turn. -/
inductive TurnMark where
  | started (turn : Nat)
  | requested
  | committed (usage : UsageSnapshot)
  deriving DecidableEq

def turnMark : RunItem T → Option TurnMark
  | .turnStarted turn => some (.started turn)
  | .requested _ => some .requested
  | .committed usage => some (.committed usage)
  | _ => none

/-- What a history says of its turns. -/
def turnMarks (history : List (RunItem T)) : List TurnMark :=
  history.filterMap turnMark

/-- A turn that waits for its message. -/
def openTurn (turn : Nat) : List TurnMark :=
  [.started turn, .requested]

/-- A turn that is committed. -/
def wholeTurn (turn : Nat) (usage : UsageSnapshot) : List TurnMark :=
  openTurn turn ++ [.committed usage]

/-- Turns 1, 2, 3, … with these usages. -/
def wholeTurns (usages : List UsageSnapshot) : List TurnMark :=
  (usages.zipIdx 1).flatMap fun turn => wholeTurn turn.2 turn.1

theorem wholeTurns_concat (usages : List UsageSnapshot) (usage : UsageSnapshot) :
    wholeTurns (usages ++ [usage]) = wholeTurns usages ++ wholeTurn (usages.length + 1) usage := by
  simp [wholeTurns, List.zipIdx_append, Nat.add_comm]

theorem turnMarks_append (history items : List (RunItem T)) :
    turnMarks (history ++ items) = turnMarks history ++ turnMarks items :=
  List.filterMap_append

theorem turnMarks_outside {items : List (RunItem T)}
    (h : ∀ item ∈ items, item.isInside = false) : turnMarks items = [] := by
  refine List.filterMap_eq_nil_iff.mpr fun item hitem => ?_
  have hout := h item hitem
  cases item <;> first | rfl | cases hout

theorem turnMarks_drain (cfg : LoopConfig) (s : AgentRun T) : turnMarks (s.drain cfg).2 = [] := by
  obtain ⟨notes, -, -, heq⟩ := drain_conversation cfg s
  refine List.filterMap_eq_nil_iff.mpr fun item hitem => ?_
  rw [heq, List.mem_append] at hitem
  rcases hitem with hitem | hitem <;> obtain ⟨_, -, rfl⟩ := List.mem_map.mp hitem <;> rfl

theorem turnMarks_exit (s : AgentRun T) (status : FinishStatus T) :
    turnMarks (s.exit status).2 = [] := by
  refine List.filterMap_eq_nil_iff.mpr fun item hitem => ?_
  rcases mem_exit hitem with ⟨-, rfl⟩ | ⟨shown, rfl⟩ <;> rfl

theorem turnMarks_salvage (aborted : Bool) (error : LoopError) (text reasoning : String) :
    turnMarks (AgentRun.salvage aborted error text reasoning : List (RunItem T)) = [] := by
  refine List.filterMap_eq_nil_iff.mpr fun item hitem => ?_
  obtain ⟨reason, message, rfl⟩ := mem_salvage hitem
  rfl

/-! ## The messages of the assistant -/

/-- The number of assistant messages in a conversation. -/
def assistantMessages (conversation : List Message) : Nat :=
  conversation.countP (·.role = .assistant)

theorem assistantMessages_append (messages more : List Message) :
    assistantMessages (messages ++ more) = assistantMessages messages + assistantMessages more :=
  List.countP_append

theorem assistantMessages_users (messages : List UserMessage) :
    assistantMessages (messages.map (·.val)) = 0 := by
  refine List.countP_eq_zero.mpr fun message hmessage => ?_
  obtain ⟨user, -, rfl⟩ := List.mem_map.mp hmessage
  simp [user.property]

theorem assistantMessages_drain (cfg : LoopConfig) (s : AgentRun T) :
    assistantMessages (s.drain cfg).1.conversation = assistantMessages s.conversation := by
  obtain ⟨notes, heq, -⟩ := drain_conversation cfg s
  rw [heq, assistantMessages_append, assistantMessages_append, assistantMessages_users,
    assistantMessages_users]
  omega

/-! ## The tally -/

/-- The history consists of the committed turns, with these usages, and of an open one if
`opened`. -/
structure Tally (cfg : LoopConfig) (usages : List UsageSnapshot) (opened : Bool)
    (s : AgentRun T) (history : List (RunItem T)) : Prop where
  turns : s.turns = usages.length
  usage : s.usage = usageTotal usages
  messages : assistantMessages s.conversation = usages.length
  marks : turnMarks history =
    wholeTurns usages ++ if opened then openTurn (usages.length + 1) else []
  bound : usages.length + (if opened then 1 else 0) ≤ cfg.maxTurns

/-- No finish has been shown. -/
def Unfinished (history : List (RunItem T)) : Prop :=
  ∀ outcome gate, .finished outcome gate ∉ history

theorem Unfinished.append {history items : List (RunItem T)} (h : Unfinished history)
    (hitems : Unfinished items) : Unfinished (history ++ items) := by
  intro outcome gate hmem
  rcases List.mem_append.mp hmem with hmem | hmem
  · exact h outcome gate hmem
  · exact hitems outcome gate hmem

theorem unfinished_drain (cfg : LoopConfig) (s : AgentRun T) : Unfinished (s.drain cfg).2 := by
  obtain ⟨notes, -, -, heq⟩ := drain_conversation cfg s
  intro outcome gate hmem
  rw [heq, List.mem_append] at hmem
  rcases hmem with hmem | hmem <;> obtain ⟨_, -, hitem⟩ := List.mem_map.mp hmem <;> cases hitem

/-- A turn is under way. -/
def LoopPhase.inTurn : LoopPhase → Bool
  | .streaming .. | .completing .. => true
  | _ => false

/-- The loop has counted what it has shown; a finish has the counts of its run. -/
def Counting (cfg : LoopConfig) (s : AgentRun T) (history : List (RunItem T)) : Prop :=
  ∃ usages opened, Tally cfg usages opened s history ∧
    (s.phase ≠ .exited → opened = s.phase.inTurn ∧ Unfinished history) ∧
    ∀ outcome gate, .finished outcome gate ∈ history →
      outcome.turns = usages.length ∧ outcome.usage = usageTotal usages

section Steps

variable {cfg : LoopConfig} {usages : List UsageSnapshot} {opened : Bool} {s s' : AgentRun T}
  {history items : List (RunItem T)}

/-- Items that mark no turn. -/
theorem Tally.append (h : Tally cfg usages opened s history) (hturns : s'.turns = s.turns)
    (husage : s'.usage = s.usage)
    (hmessages : assistantMessages s'.conversation = assistantMessages s.conversation)
    (hitems : turnMarks items = []) : Tally cfg usages opened s' (history ++ items) := by
  refine ⟨hturns.trans h.turns, husage.trans h.usage, hmessages.trans h.messages, ?_, h.bound⟩
  rw [turnMarks_append, hitems, List.append_nil]
  exact h.marks

theorem Tally.counting (h : Tally cfg usages opened s history) (hunfinished : Unfinished history)
    (hphase : opened = s.phase.inTurn) : Counting cfg s history :=
  ⟨usages, opened, h, fun _ => ⟨hphase, hunfinished⟩,
    fun outcome gate hmem => absurd hmem (hunfinished outcome gate)⟩

/-- **A finish takes the counts as they are.** -/
theorem Tally.exit (h : Tally cfg usages opened s history) (hunfinished : Unfinished history)
    (status : FinishStatus T) : Counting cfg (s.exit status).1 (history ++ (s.exit status).2) := by
  refine ⟨usages, opened, h.append rfl rfl rfl (turnMarks_exit s status),
    fun hphase => absurd rfl hphase, fun outcome gate hmem => ?_⟩
  rcases List.mem_append.mp hmem with hmem | hmem
  · exact absurd hmem (hunfinished outcome gate)
  · rcases mem_exit hmem with ⟨-, heq⟩ | ⟨shown, heq⟩
    · cases heq
      exact ⟨h.turns, h.usage⟩
    · cases heq

/-- A turn is announced and sent, or the budget is spent. -/
theorem Tally.startTurn (h : Tally cfg usages false s history) (hunfinished : Unfinished history) :
    Counting cfg (s.startTurn cfg).1 (history ++ (s.startTurn cfg).2) := by
  unfold AgentRun.startTurn
  by_cases hspent : s.turns ≥ cfg.maxTurns
  · rw [if_pos hspent]
    exact h.exit hunfinished _
  · rw [if_neg hspent]
    have hmarks := h.marks
    rw [if_neg (by simp), List.append_nil] at hmarks
    have hstarted : Tally cfg usages true
        { s with atRest := false, pendingText := none, phase := .streaming "" "" }
        (history ++ [.turnStarted (s.turns + 1), .requested s.conversation]) := by
      refine ⟨h.turns, h.usage, h.messages, ?_, ?_⟩
      · rw [turnMarks_append, hmarks, h.turns]
        rfl
      · have hturns := h.turns
        simp only [if_true]
        omega
    refine hstarted.counting (hunfinished.append fun outcome gate hmem => ?_) rfl
    simp at hmem

theorem Tally.head (h : Tally cfg usages false s history) (hunfinished : Unfinished history)
    {next : AgentRun T × List (RunItem T)} (hnext : Head cfg s next) :
    Counting cfg next.1 (history ++ next.2) := by
  have hdrained : Tally cfg usages false (s.drain cfg).1 (history ++ (s.drain cfg).2) :=
    h.append rfl rfl (assistantMessages_drain cfg s) (turnMarks_drain cfg s)
  have hstill := hunfinished.append (unfinished_drain cfg s)
  cases hnext with
  | cancelled => exact h.exit hunfinished .cancelled
  | completed message =>
    rw [← List.append_assoc]
    exact hdrained.exit hstill _
  | parked =>
    have hparked : Tally cfg usages false ((s.drain cfg).1.park s.tasks.changes)
        (history ++ (s.drain cfg).2) :=
      ⟨hdrained.turns, hdrained.usage, hdrained.messages, hdrained.marks, hdrained.bound⟩
    exact hparked.counting hstill rfl
  | turn =>
    rw [← List.append_assoc]
    exact hdrained.startTurn hstill

/-- **A committed turn is counted once.** -/
theorem Tally.commitTurn (h : Tally cfg usages true s history) (hunfinished : Unfinished history)
    (message : AssistantMessage) (usage : UsageSnapshot) :
    Counting cfg (s.commitTurn cfg message usage).1
      (history ++ (s.commitTurn cfg message usage).2) := by
  have hmarks := h.marks
  have hbound := h.bound
  simp only [if_true] at hmarks hbound
  have hcommitted : ∀ (s' : AgentRun T), s'.turns = s.turns + 1 →
      s'.usage = addUsage s.usage usage → s'.conversation = s.conversation ++ [message.val] →
      Tally cfg (usages ++ [usage]) false s'
        (history ++ [.appended (.assistant message), .committed usage]) := by
    intro s' hturns husage hconversation
    refine ⟨?_, ?_, ?_, ?_, ?_⟩
    · rw [hturns, h.turns, List.length_append, List.length_singleton]
    · rw [husage, h.usage, addUsage_total]
    · rw [hconversation, assistantMessages_append, h.messages, List.length_append]
      simp [assistantMessages, message.property]
    · rw [turnMarks_append, hmarks, wholeTurns_concat]
      rw [if_neg (by simp), List.append_nil, wholeTurn, ← List.append_assoc]
      rfl
    · simp only [List.length_append, List.length_singleton]
      exact hbound
  have hstill : Unfinished (history ++ [.appended (.assistant message), .committed usage]) :=
    hunfinished.append fun outcome gate hmem => by simp at hmem
  have hboundary : ∀ (s' : AgentRun T) (calls : List ToolUseBlock) (facts : TurnFacts),
      s'.phase = .boundary calls → s'.turns = s.turns + 1 →
      s'.usage = addUsage s.usage usage → s'.conversation = s.conversation ++ [message.val] →
      Counting cfg s' (history ++
        ([.appended (.assistant message), .committed usage] ++ [.turnBoundary facts])) := by
    intro s' calls facts hphase hturns husage hconversation
    rw [← List.append_assoc]
    refine ((hcommitted s' hturns husage hconversation).append rfl rfl rfl rfl).counting ?_ ?_
    · exact hstill.append fun outcome gate hmem => by simp at hmem
    · rw [hphase]
      rfl
  unfold AgentRun.commitTurn
  dsimp only
  split
  · split
    · have hexit := (hcommitted { s with
        conversation := s.conversation ++ [message.val]
        turns := s.turns + 1
        usage := addUsage s.usage usage } rfl rfl rfl).exit hstill
          (.completed (.text (assistantText message.val)))
      rw [List.append_assoc] at hexit
      exact hexit
    · exact hboundary _ [] _ rfl rfl rfl rfl
  · exact hboundary _ _ _ rfl rfl rfl rfl

/-- **One block keeps the counts.** -/
theorem counting_block (h : Counting cfg s history) {inside : Bool}
    {next : AgentRun T × List (RunItem T)} (hnext : Block cfg s inside next) :
    Counting cfg next.1 (history ++ next.2) := by
  obtain ⟨usages, opened, htally, hlive, hfinished⟩ := h
  -- before the loop has exited nothing has finished, so the tally is that of the turns
  have hat : ∀ {phase : LoopPhase}, s.phase = phase → phase ≠ .exited →
      Tally cfg usages phase.inTurn s history ∧ Unfinished history := by
    intro phase hphase hne
    obtain ⟨rfl, hunfinished⟩ := hlive (by rw [hphase]; exact hne)
    rw [hphase] at htally
    exact ⟨htally, hunfinished⟩
  cases hnext with
  | outside houtside hitems =>
    refine ⟨usages, opened, htally.append houtside.turns houtside.usage (by rw [houtside.conversation])
      (turnMarks_outside hitems), fun hphase => ?_, fun outcome gate hmem => ?_⟩
    · rw [houtside.phase] at hphase ⊢
      obtain ⟨hopened, hunfinished⟩ := hlive hphase
      exact ⟨hopened, hunfinished.append fun outcome gate hmem => by cases hitems _ hmem⟩
    · rcases List.mem_append.mp hmem with hmem | hmem
      · exact hfinished outcome gate hmem
      · cases hitems _ hmem
  | @streamed _ _ text' reasoning' event hphase =>
    obtain ⟨hturn, hunfinished⟩ := hat hphase (by simp)
    have hnext : Tally cfg usages true { s with phase := .streaming text' reasoning' }
        (history ++ [.streamed event]) := hturn.append rfl rfl rfl rfl
    refine hnext.counting (hunfinished.append fun outcome gate hmem => ?_) rfl
    simp at hmem
  | @completed text reasoning message usage stopReason hphase =>
    obtain ⟨hturn, hunfinished⟩ := hat hphase (by simp)
    have hnext : Tally cfg usages true
        { s with phase := .completing text reasoning message usage }
        (history ++ [.streamed (.assistantMessageComplete message.val usage stopReason)]) :=
      hturn.append rfl rfl rfl rfl
    refine hnext.counting (hunfinished.append fun outcome gate hmem => ?_) rfl
    simp at hmem
  | @died text reasoning error hphase =>
    have hturn : Tally cfg usages true s history ∧ Unfinished history := by
      rcases hphase with hphase | ⟨message, usage, hphase⟩
      · exact hat hphase (by simp)
      · exact hat hphase (by simp)
    have hsalvage := turnMarks_salvage (T := T) s.handle.aborted error text reasoning
    rw [← List.append_assoc]
    refine (hturn.1.append rfl rfl rfl hsalvage).exit (hturn.2.append fun outcome gate hmem => ?_) _
    obtain ⟨reason, message, heq⟩ := mem_salvage hmem
    cases heq
  | executorThrew error hphase =>
    obtain ⟨hturn, hunfinished⟩ := hat hphase (by simp)
    exact hturn.exit hunfinished _
  | turn hphase =>
    obtain ⟨hturn, hunfinished⟩ := hat hphase (by simp)
    exact hturn.commitTurn hunfinished _ _
  | rested hphase =>
    obtain ⟨hturn, hunfinished⟩ := hat hphase (by simp)
    exact hturn.head hunfinished (loopHead_head cfg s)
  | @dispatched calls hcalls hphase =>
    obtain ⟨hturn, hunfinished⟩ := hat hphase (by simp)
    have hnext : Tally cfg usages false { s with phase := .batch calls }
        (history ++ [.executeBatch calls s.conversation]) := hturn.append rfl rfl rfl rfl
    refine hnext.counting (hunfinished.append fun outcome gate hmem => ?_) rfl
    simp at hmem
  | @batch calls results accepted instant hphase =>
    obtain ⟨hturn, hunfinished⟩ := hat hphase (by simp)
    -- the results are appended in every branch, and count as no turn
    have hresults : ∀ blocks : List ToolResultBlock,
        Tally cfg usages false (s.appendToolResults blocks).1
          (history ++ (s.appendToolResults blocks).2) := by
      intro blocks
      refine hturn.append rfl rfl ?_ rfl
      rw [AgentRun.appendToolResults, assistantMessages_append]
      simp [assistantMessages]
    have hstill : ∀ blocks : List ToolResultBlock,
        Unfinished (history ++ (s.appendToolResults blocks).2) := fun blocks =>
      hunfinished.append fun outcome gate hmem => by simp [AgentRun.appendToolResults] at hmem
    unfold AgentRun.commitBatch
    dsimp only
    rw [← List.append_assoc]
    split
    · split
      · exact (hresults _).exit (hstill _) _
      · exact (hresults _).exit (hstill _) _
    · split
      · exact (hresults _).exit (hstill _) _
      · exact (hresults _).head (hstill _) (loopHead_head cfg _)
  | @woken since park hphase hresolved =>
    obtain ⟨hturn, hunfinished⟩ := hat hphase (by simp)
    have hunhooked : Tally cfg usages false (s.unhook park) history :=
      ⟨hturn.turns, hturn.usage, hturn.messages, hturn.marks, hturn.bound⟩
    exact hunhooked.head hunfinished (loopHead_head cfg _)

end Steps

/-- **The counts hold in every reachable state.** -/
theorem counting_of_run {cfg : LoopConfig} {messages : List UserMessage}
    {labels : List (RunLabel T)} {r : AgentHistory T}
    (run : Run (Recorded.step (AgentRun.step cfg)) Free (AgentRun.start cfg messages) labels r) :
    Counting cfg r.state r.history := by
  refine run.invariant (I := fun r => Counting cfg r.state r.history) ?_ ?_
  · have hfresh : Tally cfg [] false (AgentRun.fresh messages : AgentRun T)
        (messages.map fun message => .appended (.user .initial message)) := by
      refine ⟨rfl, rfl, assistantMessages_users messages, ?_, Nat.zero_le _⟩
      refine List.filterMap_eq_nil_iff.mpr fun item hitem => ?_
      obtain ⟨message, -, rfl⟩ := List.mem_map.mp hitem
      rfl
    refine hfresh.head (fun outcome gate hmem => ?_) (loopHead_head cfg _)
    obtain ⟨message, -, heq⟩ := List.mem_map.mp hmem
    cases heq
  · intro r label r' _ hr hstep
    obtain ⟨state, items, hstate, rfl⟩ := Recorded.step_cases hstep
    exact counting_block hr (step_block hstate)

/-! ## What the caller sees -/

/-- The numbers of the `turn_started` events. -/
def startedTurns (history : List (RunItem T)) : List Nat :=
  history.filterMap fun item =>
    match item with
    | .turnStarted turn => some turn
    | _ => none

/-- The usage of each committed turn. -/
def committedUsages (history : List (RunItem T)) : List UsageSnapshot :=
  history.filterMap fun item =>
    match item with
    | .committed usage => some usage
    | _ => none

/-- The last turn that was started has not been committed. -/
def Died (history : List (RunItem T)) : Prop :=
  ∃ before turn after, history = before ++ .turnStarted turn :: after ∧
    ∀ usage, .committed usage ∉ after

def TurnMark.startedTurn : TurnMark → Option Nat
  | .started turn => some turn
  | _ => none

def TurnMark.committedUsage : TurnMark → Option UsageSnapshot
  | .committed usage => some usage
  | _ => none

/-- The mark is one of the provider call of a turn. -/
def TurnMark.isProvider : TurnMark → Bool
  | .committed _ => false
  | _ => true

theorem startedTurns_marks (history : List (RunItem T)) :
    startedTurns history = (turnMarks history).filterMap TurnMark.startedTurn := by
  rw [turnMarks, List.filterMap_filterMap, startedTurns]
  refine List.filterMap_congr fun item _ => ?_
  cases item with
  | appended entry => cases entry <;> rfl
  | _ => rfl

theorem committedUsages_marks (history : List (RunItem T)) :
    committedUsages history = (turnMarks history).filterMap TurnMark.committedUsage := by
  rw [turnMarks, List.filterMap_filterMap, committedUsages]
  refine List.filterMap_congr fun item _ => ?_
  cases item with
  | appended entry => cases entry <;> rfl
  | _ => rfl

theorem wholeTurns_started (usages : List UsageSnapshot) :
    (wholeTurns usages).filterMap TurnMark.startedTurn = List.range' 1 usages.length := by
  induction usages using List.reverseRecOn with
  | nil => rfl
  | append_singleton usages usage ih =>
    rw [wholeTurns_concat, List.filterMap_append, ih, List.length_append, List.length_singleton,
      List.range'_concat]
    simp [wholeTurn, openTurn, TurnMark.startedTurn, Nat.add_comm]

theorem wholeTurns_committed (usages : List UsageSnapshot) :
    (wholeTurns usages).filterMap TurnMark.committedUsage = usages := by
  induction usages using List.reverseRecOn with
  | nil => rfl
  | append_singleton usages usage ih =>
    rw [wholeTurns_concat, List.filterMap_append, ih]
    rfl

theorem wholeTurns_provider (usages : List UsageSnapshot) :
    (wholeTurns usages).filter TurnMark.isProvider =
      (List.range' 1 usages.length).flatMap openTurn := by
  induction usages using List.reverseRecOn with
  | nil => rfl
  | append_singleton usages usage ih =>
    rw [wholeTurns_concat, List.filter_append, ih, List.length_append, List.length_singleton,
      List.range'_concat, List.flatMap_append]
    have hprovider : (wholeTurn (usages.length + 1) usage).filter TurnMark.isProvider =
        openTurn (usages.length + 1) := rfl
    rw [hprovider]
    simp [Nat.add_comm]

theorem mem_turnMarks_committed {history : List (RunItem T)} {usage : UsageSnapshot} :
    .committed usage ∈ turnMarks history ↔ .committed usage ∈ history := by
  rw [turnMarks, List.mem_filterMap]
  constructor
  · rintro ⟨item, hitem, hmark⟩
    cases item <;> cases hmark
    exact hitem
  · intro hmem
    exact ⟨_, hmem, rfl⟩

/-- Behind whole turns nothing has died. -/
theorem not_died {history : List (RunItem T)} {usages : List UsageSnapshot}
    (h : turnMarks history = wholeTurns usages) : ¬ Died history := by
  rintro ⟨before, turn, after, rfl, hafter⟩
  rw [turnMarks_append] at h
  have hmarks : turnMarks (.turnStarted turn :: after : List (RunItem T)) =
      .started turn :: turnMarks after := rfl
  rw [hmarks] at h
  have hlast := congrArg List.getLast? h
  rcases List.eq_nil_or_concat usages with rfl | ⟨front, usage, rfl⟩
  · simp [wholeTurns] at h
  · rw [List.concat_eq_append, wholeTurns_concat, wholeTurn, ← List.append_assoc,
      List.getLast?_concat, List.getLast?_append_of_ne_nil _ (List.cons_ne_nil _ _)] at hlast
    -- the last mark is the commit of the last turn, so it stands after the announcement
    rcases List.mem_cons.mp (List.mem_of_getLast? hlast) with heq | hmem
    · cases heq
    · exact hafter usage (mem_turnMarks_committed.mp hmem)

/-- Behind an open turn that turn has died. -/
theorem died_of_open {history : List (RunItem T)} {usages : List UsageSnapshot} {turn : Nat}
    (h : turnMarks history = wholeTurns usages ++ openTurn turn) : Died history := by
  obtain ⟨front, back, rfl, -, hback⟩ := List.filterMap_eq_append_iff.mp h
  obtain ⟨quiet, item, after, rfl, -, hitem, hafter⟩ := List.filterMap_eq_cons_iff.mp hback
  have hstarted : item = .turnStarted turn := by
    cases item with
    | turnStarted other =>
      cases hitem
      rfl
    | appended entry => cases entry <;> cases hitem
    | _ => cases hitem
  refine ⟨front ++ quiet, turn, after, by rw [hstarted, List.append_assoc], fun usage hmem => ?_⟩
  have hmark := mem_turnMarks_committed.mpr hmem
  rw [turnMarks, hafter] at hmark
  simp at hmark

/-- What the events and the outcome of a run say of its turns. -/
structure TurnAccounting (cfg : LoopConfig) (conversation : List Message)
    (history : List (RunItem T)) : Prop where
  /-- The `turn_started` events are numbered 1, 2, 3, … -/
  numbered : startedTurns history = List.range' 1 (startedTurns history).length
  bounded : (startedTurns history).length ≤ cfg.maxTurns
  /-- Each of them is followed by its call of `streamMessage`, and there is no other call. -/
  requested : (turnMarks history).filter TurnMark.isProvider =
    (startedTurns history).flatMap openTurn
  /-- The outcome counts the committed turns. -/
  turns : ∀ outcome gate, .finished outcome gate ∈ history →
    outcome.turns = assistantMessages conversation ∧
      outcome.turns = (committedUsages history).length
  usage : ∀ outcome gate, .finished outcome gate ∈ history →
    outcome.usage = usageTotal (committedUsages history)
  /-- That is the last number, or one less when that turn has died. -/
  last : ∀ outcome gate, .finished outcome gate ∈ history →
    (startedTurns history).length = outcome.turns ∧ ¬ Died history ∨
      (startedTurns history).length = outcome.turns + 1 ∧ Died history

/-- **Turns and usage are accounted for** in every run, however it ends: turns are announced in
order, each with one call of the provider, and never more than the budget; the outcome counts
the turns that were committed and sums their usage. -/
theorem turn_accounting {cfg : LoopConfig} {messages : List UserMessage}
    {labels : List (RunLabel T)} {r : AgentHistory T}
    (run : Run (Recorded.step (AgentRun.step cfg)) Free (AgentRun.start cfg messages) labels r) :
    TurnAccounting cfg r.state.conversation r.history := by
  obtain ⟨usages, opened, htally, -, hfinished⟩ := counting_of_run run
  have hmarks := htally.marks
  have hbound := htally.bound
  -- the marks are those of the whole turns and of the one that is open
  have hcommitted : committedUsages r.history = usages := by
    rw [committedUsages_marks, hmarks, List.filterMap_append, wholeTurns_committed]
    cases opened <;> simp [openTurn, TurnMark.committedUsage]
  have hstarted : startedTurns r.history =
      List.range' 1 (usages.length + if opened then 1 else 0) := by
    rw [startedTurns_marks, hmarks, List.filterMap_append, wholeTurns_started]
    cases opened with
    | false => simp
    | true => simp [openTurn, TurnMark.startedTurn, List.range'_concat, Nat.add_comm]
  have hlength : (startedTurns r.history).length = usages.length + if opened then 1 else 0 := by
    rw [hstarted, List.length_range']
  refine
    { numbered := by rw [hlength, hstarted]
      bounded := by rw [hlength]; exact hbound
      requested := ?requested, turns := ?turns, usage := ?usage, last := ?last }
  case requested =>
    rw [hmarks, hstarted, List.filter_append, wholeTurns_provider]
    cases opened with
    | false => simp
    | true => simp [openTurn, TurnMark.isProvider, List.range'_concat, Nat.add_comm]
  case turns =>
    intro outcome gate hmem
    obtain ⟨hturns, -⟩ := hfinished outcome gate hmem
    exact ⟨hturns.trans htally.messages.symm, by rw [hcommitted, hturns]⟩
  case usage =>
    intro outcome gate hmem
    rw [hcommitted]
    exact (hfinished outcome gate hmem).2
  case last =>
    intro outcome gate hmem
    obtain ⟨hturns, -⟩ := hfinished outcome gate hmem
    cases opened with
    | false =>
      have hwhole : turnMarks r.history = wholeTurns usages := by
        rw [hmarks]
        exact List.append_nil _
      exact Or.inl ⟨by rw [hlength, hturns]; rfl, not_died hwhole⟩
    | true => exact Or.inr ⟨by rw [hlength, hturns]; rfl, died_of_open hmarks⟩

/-- The second turn dies: it is announced and sent, and neither counted nor billed. -/
theorem turn_accounting_died :
    ∃ (r : AgentHistory Unit) (outcome : AgentOutcome Unit) (gate : GateState),
      .finished outcome gate ∈ r.history ∧ startedTurns r.history = [1, 2] ∧
        outcome.turns = 1 ∧ outcome.usage = ⟨5, 2, some 3, none⟩ ∧ Died r.history := by
  obtain ⟨r, run, hr⟩ := exists_run (Recorded.step (AgentRun.step (sampleConfig .terminal))) Free
    (AgentRun.start (T := Unit) (sampleConfig .terminal) [⟨userText "go", rfl⟩])
    [.complete ⟨{ role := .assistant, content := [.text "done"] }, rfl⟩ ⟨5, 2, some 3, some 0⟩ none,
      .turnReturns, .boundaryReturns, .delta (.assistantTextDelta "so"),
      .throws (.provider "gone")]
    (fun r => startedTurns r.history == [1, 2] &&
      committedUsages r.history == [⟨5, 2, some 3, some 0⟩] && r.history.any fun item =>
        match item with
        | .finished .. => true
        | _ => false) (by decide +kernel)
  simp only [Bool.and_eq_true, beq_iff_eq, List.any_eq_true] at hr
  obtain ⟨⟨hstarted, husages⟩, item, hitem, htest⟩ := hr
  split at htest
  · next outcome gate =>
    have haccounting := turn_accounting run
    have hturns := (haccounting.turns outcome gate hitem).2
    have husage := haccounting.usage outcome gate hitem
    have hlast := haccounting.last outcome gate hitem
    rw [husages] at hturns husage
    rw [hstarted, hturns] at hlast
    refine ⟨r, outcome, gate, hitem, hstarted, hturns, husage, ?_⟩
    rcases hlast with ⟨hlength, -⟩ | ⟨-, hdied⟩
    · cases hlength
    · exact hdied
  · cases htest

end EphemeralAgent.Engine
