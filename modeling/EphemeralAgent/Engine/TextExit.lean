import EphemeralAgent.Engine.ProviderHistory

/-!
# The text exit

A text run completes with the last message of its conversation, when nothing else is open.

* `Resting` — a remembered text is the last message for as long as the loop is at rest
* `text_exit_gate` — **at a completed finish the gates are open and the outcome is the last text**
-/

namespace EphemeralAgent.Engine

open Lib LlmClient Notification

variable {T : Type}

/-- The conversation ends with this message, which makes no calls. -/
def EndsWith (conversation : List Message) (message : AssistantMessage) : Prop :=
  (∃ before, conversation = before ++ [message.val]) ∧ toolUses message.val = []

/-- The loop is at rest only between a turn without calls and the next one; the text it remembers
is then the last message. -/
structure Resting (s : AgentRun T) : Prop where
  awake : ∀ text reasoning message usage, s.phase = .streaming text reasoning ∨
    s.phase = .completing text reasoning message usage → s.atRest = false
  working : ∀ calls, s.phase = .batch calls ∨ (s.phase = .boundary calls ∧ calls ≠ []) →
    s.atRest = false
  remembered : s.phase ≠ .exited → s.atRest = true → ∀ message, s.pendingText = some message →
    EndsWith s.conversation message

/-- What a completed finish says of the gates and of the conversation. -/
def TextExit (conversation : List Message) (completion : Completion T) (gate : GateState) : Prop :=
  gate.steers = [] ∧ gate.notifications = [] ∧ gate.tasks = [] ∧
    ∃ message : AssistantMessage, completion = .text (assistantText message.val) ∧
      EndsWith conversation message

/-- Every completed finish that is shown is a text exit. -/
def TextExits (s : AgentRun T) (history : List (RunItem T)) : Prop :=
  ∀ outcome gate completion, .finished outcome gate ∈ history →
    outcome.status = .completed completion →
      s.phase = .exited ∧ TextExit s.conversation completion gate

section Steps

variable {cfg : LoopConfig} {s s' : AgentRun T} {history items : List (RunItem T)}

theorem TextExits.append (h : TextExits s history) (hitems : TextExits s items) :
    TextExits s (history ++ items) := by
  intro outcome gate completion hmem
  rcases List.mem_append.mp hmem with hmem | hmem
  · exact h outcome gate completion hmem
  · exact hitems outcome gate completion hmem

/-- A run that has not exited has shown no finish. -/
theorem TextExits.before (h : TextExits s history) (hphase : s.phase ≠ .exited)
    (s' : AgentRun T) : TextExits s' history :=
  fun outcome gate completion hmem hstatus =>
    absurd (h outcome gate completion hmem hstatus).1 hphase

/-- A finish that does not complete the run. -/
theorem textExits_exit {status : FinishStatus T} (h : ∀ completion, status ≠ .completed completion)
    (s s' : AgentRun T) : TextExits s' (s.exit status).2 := by
  intro outcome gate completion hmem hstatus
  rcases mem_exit hmem with ⟨-, heq⟩ | ⟨shown, heq⟩
  · cases heq
    exact absurd hstatus (h completion)
  · cases heq

/-- A finish with the last text, behind open gates. -/
theorem textExits_completed {message : AssistantMessage} (hsteers : s.handle.steers = [])
    (hnotes : s.inbox.entries = []) (htasks : s.tasks.entries = [])
    (hends : EndsWith s.conversation message) :
    TextExits (s.exit (.completed (.text (assistantText message.val)))).1
      (s.exit (.completed (.text (assistantText message.val)))).2 := by
  intro outcome gate completion hmem hstatus
  rcases mem_exit hmem with ⟨-, heq⟩ | ⟨shown, heq⟩
  · cases heq
    cases hstatus
    refine ⟨rfl, hsteers, hnotes, ?_, message, rfl, hends⟩
    rw [AgentRun.gate, Background.Supervisor.list, htasks, List.map_nil]
  · cases heq

theorem textExits_quiet (s : AgentRun T)
    (h : ∀ item ∈ items, ∀ outcome gate, item ≠ .finished outcome gate) : TextExits s items :=
  fun outcome gate _ hmem _ => absurd rfl (h _ hmem outcome gate)

theorem textExits_cons {item : RunItem T} (hitem : ∀ outcome gate, item ≠ .finished outcome gate)
    (h : TextExits s items) : TextExits s (item :: items) := by
  intro outcome gate completion hmem
  rcases List.mem_cons.mp hmem with heq | hmem
  · exact absurd heq.symm (hitem outcome gate)
  · exact h outcome gate completion hmem

theorem textExits_drain (cfg : LoopConfig) (s s' : AgentRun T) :
    TextExits s' (s.drain cfg).2 := by
  obtain ⟨notes, -, -, heq⟩ := drain_conversation cfg s
  refine textExits_quiet s' fun item hitem outcome gate => ?_
  rw [heq, List.mem_append] at hitem
  rcases hitem with hitem | hitem <;> obtain ⟨_, -, rfl⟩ := List.mem_map.mp hitem <;> exact nofun

theorem resting_exit (s : AgentRun T) (status : FinishStatus T) : Resting (s.exit status).1 where
  awake := by
    rintro _ _ _ _ (hphase | hphase) <;> cases hphase
  working := by
    rintro _ (hphase | ⟨hphase, -⟩) <;> cases hphase
  remembered := fun hphase => absurd rfl hphase

/-- Without steers and notifications a drain leaves the conversation alone. -/
theorem drain_empty (hsteers : s.handle.steers = []) (hnotes : s.inbox.entries = []) :
    (s.drain cfg).1.conversation = s.conversation := by
  obtain ⟨notes, heq, hempty, -⟩ := drain_conversation cfg s
  simp [heq, hsteers, hempty hnotes]

theorem rests_startTurn (cfg : LoopConfig) (s : AgentRun T) :
    Resting (s.startTurn cfg).1 ∧ TextExits (s.startTurn cfg).1 (s.startTurn cfg).2 := by
  unfold AgentRun.startTurn
  split
  · exact ⟨resting_exit s _, textExits_exit (by simp) _ _⟩
  · exact ⟨⟨fun _ _ _ _ _ => rfl, fun _ _ => rfl, nofun⟩, textExits_quiet _ (by simp)⟩

/-- **From the head of the loop**, which is reached at rest or after a batch. -/
theorem rests_head
    (h : s.atRest = true → ∀ message, s.pendingText = some message →
      EndsWith s.conversation message)
    {next : AgentRun T × List (RunItem T)} (hnext : Head cfg s next) :
    Resting next.1 ∧ TextExits next.1 next.2 := by
  cases hnext with
  | cancelled => exact ⟨resting_exit s _, textExits_exit (by simp) _ _⟩
  | completed message hlive hmode htext hrest hsteers hnotes htasks =>
    have hends : EndsWith (s.drain cfg).1.conversation message := by
      rw [drain_empty hsteers hnotes]
      exact h hrest message htext
    exact ⟨resting_exit _ _,
      (textExits_drain cfg s _).append (textExits_completed rfl rfl htasks hends)⟩
  | parked hlive hrest hsteers hnotes htasks =>
    refine ⟨⟨?_, ?_, fun _ => ?_⟩, textExits_drain cfg s _⟩
    · rintro _ _ _ _ (hphase | hphase) <;> cases hphase
    · rintro _ (hphase | ⟨hphase, -⟩) <;> cases hphase
    · show s.atRest = true → ∀ message, s.pendingText = some message →
        EndsWith (s.drain cfg).1.conversation message
      rw [drain_empty hsteers hnotes]
      exact h
  | turn hlive =>
    obtain ⟨hresting, hexits⟩ := rests_startTurn cfg (s.drain cfg).1
    exact ⟨hresting, (textExits_drain cfg s _).append hexits⟩

/-- A loop that is awake remembers nothing. -/
theorem resting_awake (h : s.atRest = false) : Resting s where
  awake := fun _ _ _ _ _ => h
  working := fun _ _ => h
  remembered := fun _ hrest => by cases h.symm.trans hrest

/-- A turn without calls leaves the loop at rest, with its text remembered. -/
theorem rests_commitTurn (hawake : s.atRest = false) (message : AssistantMessage)
    (usage : UsageSnapshot) :
    Resting (s.commitTurn cfg message usage).1 ∧
      TextExits (s.commitTurn cfg message usage).1 (s.commitTurn cfg message usage).2 := by
  have hends : toolUses message.val = [] → EndsWith (s.conversation ++ [message.val]) message :=
    fun hcalls => ⟨⟨s.conversation, rfl⟩, hcalls⟩
  unfold AgentRun.commitTurn
  dsimp only
  split
  · next hcalls =>
    split
    · next hopen =>
      obtain ⟨-, hsteers, htasks, hnotes⟩ := hopen
      refine ⟨resting_exit _ _, TextExits.append (textExits_quiet _ ?_)
        (textExits_cons ?_ (textExits_completed ?_ ?_ ?_ (hends hcalls)))⟩
      · simp [AgentRun.appendAssistant]
      · simp
      · simpa [RunHandle.hasPendingSteers, AgentRun.appendAssistant] using hsteers
      · exact List.isEmpty_iff.mp hnotes
      · exact List.isEmpty_iff.mp htasks
    · refine ⟨⟨?_, ?_, ?_⟩, textExits_quiet _ (by simp [AgentRun.appendAssistant])⟩
      · rintro _ _ _ _ (hp | hp) <;> cases hp
      · rintro _ (hp | ⟨hp, hne⟩)
        · cases hp
        · cases hp
          exact absurd rfl hne
      · intro _ _ other hother
        obtain ⟨-, heq⟩ := Option.ite_none_right_eq_some.mp hother
        cases heq
        exact hends hcalls
  · exact ⟨resting_awake hawake, textExits_quiet _ (by simp [AgentRun.appendAssistant])⟩

/-- A batch completes no text run. -/
theorem rests_commitBatch (hmode : cfg.mode = .text) (hawake : s.atRest = false)
    (calls : List ToolUseBlock) (results : List ToolCallResult) (accepted : Option T)
    (instant : Nat) :
    Resting (s.commitBatch cfg calls results accepted instant).1 ∧
      TextExits (s.commitBatch cfg calls results accepted instant).1
        (s.commitBatch cfg calls results accepted instant).2 := by
  have happended : ∀ (s' : AgentRun T) (blocks : List ToolResultBlock),
      TextExits s' (s.appendToolResults blocks).2 := fun s' blocks =>
    textExits_quiet s' (by simp [AgentRun.appendToolResults])
  unfold AgentRun.commitBatch
  dsimp only
  split
  · split
    · next hterminal => cases hmode.symm.trans hterminal
    · exact ⟨resting_exit _ _, (happended _ _).append (textExits_exit (by simp) _ _)⟩
  · split
    · exact ⟨resting_exit _ _, (happended _ _).append (textExits_exit (by simp) _ _)⟩
    · obtain ⟨hresting, hnew⟩ := rests_head (s := (s.appendToolResults _).1)
        (fun hrest => absurd (hawake.symm.trans hrest) (by simp)) (loopHead_head cfg _)
      exact ⟨hresting, (happended _ _).append hnew⟩

/-- **One block of a text run.** -/
theorem rests_block (hmode : cfg.mode = .text) (h : Resting s) (hexits : TextExits s history)
    {inside : Bool} {next : AgentRun T × List (RunItem T)} (hnext : Block cfg s inside next) :
    Resting next.1 ∧ TextExits next.1 (history ++ next.2) := by
  cases hnext with
  | @outside s' items houtside hitems =>
    refine ⟨⟨?_, ?_, ?_⟩, TextExits.append ?_ (textExits_quiet _ ?_)⟩
    · rw [houtside.phase, houtside.atRest]
      exact h.awake
    · rw [houtside.phase, houtside.atRest]
      exact h.working
    · rw [houtside.phase, houtside.atRest, houtside.pendingText, houtside.conversation]
      exact h.remembered
    · intro outcome gate completion hmem hstatus
      rw [houtside.phase, houtside.conversation]
      exact hexits outcome gate completion hmem hstatus
    · rintro item hitem outcome gate rfl
      have hinside := hitems _ hitem
      cases hinside
  | streamed event hphase =>
    have hawake := h.awake _ _ ⟨⟨.assistant, []⟩, rfl⟩ s.usage (Or.inl hphase)
    exact ⟨resting_awake hawake,
      (hexits.before (by simp [hphase]) _).append (textExits_quiet _ (by simp))⟩
  | completed message usage stopReason hphase =>
    have hawake := h.awake _ _ message usage (Or.inl hphase)
    exact ⟨resting_awake hawake,
      (hexits.before (by simp [hphase]) _).append (textExits_quiet _ (by simp))⟩
  | died error hphase =>
    have hlive : s.phase ≠ .exited := by
      rcases hphase with hphase | ⟨_, _, hphase⟩ <;> simp [hphase]
    refine ⟨resting_exit s _, (hexits.before hlive _).append (TextExits.append
      (textExits_quiet _ ?_) (textExits_exit (classifyLoopError_ne_completed error _) s _))⟩
    rintro item hitem outcome gate rfl
    obtain ⟨reason, message, heq⟩ := mem_salvage hitem
    cases heq
  | executorThrew error hphase =>
    exact ⟨resting_exit s _, (hexits.before (by simp [hphase]) _).append
      (textExits_exit (classifyLoopError_ne_completed error _) s _)⟩
  | turn hphase =>
    obtain ⟨hresting, hnew⟩ := rests_commitTurn (h.awake _ _ _ _ (Or.inr hphase)) _ _
    exact ⟨hresting, (hexits.before (by simp [hphase]) _).append hnew⟩
  | rested hphase =>
    obtain ⟨hresting, hnew⟩ := rests_head (h.remembered (by simp [hphase])) (loopHead_head cfg s)
    exact ⟨hresting, (hexits.before (by simp [hphase]) _).append hnew⟩
  | dispatched hcalls hphase =>
    have hawake := h.working _ (Or.inr ⟨hphase, hcalls⟩)
    exact ⟨resting_awake hawake,
      (hexits.before (by simp [hphase]) _).append (textExits_quiet _ (by simp))⟩
  | batch results accepted instant hphase =>
    obtain ⟨hresting, hnew⟩ :=
      rests_commitBatch hmode (h.working _ (Or.inl hphase)) _ results accepted instant
    exact ⟨hresting, (hexits.before (by simp [hphase]) _).append hnew⟩
  | woken hphase hresolved =>
    obtain ⟨hresting, hnew⟩ := rests_head (s := s.unhook _) (h.remembered (by simp [hphase]))
      (loopHead_head cfg _)
    exact ⟨hresting, (hexits.before (by simp [hphase]) _).append hnew⟩

end Steps

/-- **The text exit gate**, for every text run and every schedule: when the run finishes as
completed, no steer, no notification and no task is open, and the last message of the conversation
is an assistant message without calls whose text is the outcome; nothing is shown to the
conversation after it. -/
theorem text_exit_gate {cfg : LoopConfig} {messages : List UserMessage}
    {labels : List (RunLabel T)} {r : AgentHistory T} (hmode : cfg.mode = .text)
    (run : Run (Recorded.step (AgentRun.step cfg)) Free (AgentRun.start cfg messages) labels r)
    {outcome : AgentOutcome T} {gate : GateState} {completion : Completion T}
    (hfinished : .finished outcome gate ∈ r.history)
    (hstatus : outcome.status = .completed completion) :
    gate.steers = [] ∧ gate.notifications = [] ∧ gate.tasks = [] ∧
      ∃ before last, r.state.conversation = before ++ [last] ∧ last.role = .assistant ∧
        toolUses last = [] ∧ completion = .text (assistantText last) := by
  have hrun : Resting r.state ∧ TextExits r.state r.history := by
    refine run.invariant (I := fun r => Resting r.state ∧ TextExits r.state r.history) ?_ ?_
    · obtain ⟨hresting, hexits⟩ := rests_head (s := AgentRun.fresh messages) nofun
        (loopHead_head cfg _)
      refine ⟨hresting, TextExits.append (textExits_quiet _ ?_) hexits⟩
      rintro item hitem outcome gate rfl
      obtain ⟨message, -, heq⟩ := List.mem_map.mp hitem
      cases heq
    · intro r label r' _ hr hstep
      obtain ⟨state, items, hstate, rfl⟩ := Recorded.step_cases hstep
      exact rests_block hmode hr.1 hr.2 (step_block hstate)
  obtain ⟨-, hsteers, hnotes, htasks, message, rfl, ⟨before, hbefore⟩, hcalls⟩ :=
    hrun.2 outcome gate completion hfinished hstatus
  exact ⟨hsteers, hnotes, htasks, before, message.val, hbefore, message.property, hcalls, rfl⟩

/-- A text run that waits for a task and completes with the text from before the wait. -/
theorem text_exit_gate_parked :
    ∃ (r : AgentHistory Unit) (before : List Message) (last : Message),
      r.state.conversation = before ++ [last] ∧ assistantText last = "done" := by
  obtain ⟨r, run, hr⟩ := exists_run (Recorded.step (AgentRun.step (sampleConfig .text))) Free
    (AgentRun.start (T := Unit) (sampleConfig .text) [⟨userText "go", rfl⟩])
    [.task (.register ⟨⟨"shell", "a"⟩, "build", true⟩ "t1" 1),
      .complete ⟨{ role := .assistant, content := [.text "done"] }, rfl⟩ ⟨1, 1, none, none⟩ none,
      .turnReturns, .boundaryReturns, .task (.done "t1" (.ok ⟨.success, "built"⟩)), .wakes]
    (fun r => r.history.any fun item =>
      match item with
      | .finished { status := .completed (.text text), .. } _ => text == "done"
      | _ => false) (by decide +kernel)
  obtain ⟨item, hitem, htest⟩ := List.any_eq_true.mp hr
  split at htest
  · obtain ⟨-, -, -, before, last, hbefore, -, -, htext⟩ := text_exit_gate rfl run hitem rfl
    cases htext
    exact ⟨r, before, last, hbefore, beq_iff_eq.mp htest⟩
  · cases htest

end EphemeralAgent.Engine
