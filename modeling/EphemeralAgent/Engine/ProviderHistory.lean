import EphemeralAgent.Engine.LoopStep

/-!
# The provider history stays valid

Whatever the tool executor returns, and whatever steers and notifications arrive, every request
that the loop sends answers each tool call in the message after it.

* `Answered` — every assistant message with calls is followed by its results
* `Conversing` — the invariant: at most the last message still waits for its results
* `provider_history_valid` — **every `LlmRequest` of every run is answered**
-/

namespace EphemeralAgent.Engine

open Lib LlmClient Notification

variable {T : Type}

/-! ## Answered conversations -/

/-- A user message of exactly one `tool_result` block for each call, in call order. -/
def Answers (calls : List ToolUseBlock) (message : Message) : Prop :=
  message.role = .user ∧ ∃ blocks : List ToolResultBlock,
    message.content = blocks.map ToolResultBlock.toBlock ∧
      blocks.map (·.toolUseId) = calls.map (·.toolUseId)

/-- The message asks for tool results. -/
def Asks (message : Message) : Prop :=
  message.role = .assistant ∧ toolUses message ≠ []

/-- Every message that asks is followed by its answer. -/
def Answered : List Message → Prop
  | [] => True
  | message :: rest =>
    (Asks message → ∃ results tail, rest = results :: tail ∧ Answers (toolUses message) results) ∧
      Answered rest

theorem Answered.append {messages more : List Message} (h : Answered messages)
    (hmore : Answered more) : Answered (messages ++ more) := by
  induction messages with
  | nil => exact hmore
  | cons message rest ih =>
    obtain ⟨hmessage, hrest⟩ := h
    refine ⟨fun hasks => ?_, ih hrest⟩
    obtain ⟨results, tail, rfl, hanswers⟩ := hmessage hasks
    exact ⟨results, tail ++ more, rfl, hanswers⟩

theorem answered_users (messages : List UserMessage) :
    Answered (messages.map (·.val)) := by
  induction messages with
  | nil => trivial
  | cons message rest ih =>
    refine ⟨fun hasks => ?_, ih⟩
    have hrole := message.property.symm.trans hasks.1
    cases hrole

/-- A message after which nothing is owed. -/
theorem answered_text {message : Message} (h : toolUses message = []) : Answered [message] :=
  ⟨fun hasks => absurd h hasks.2, trivial⟩

/-- A message with its results. -/
theorem answered_exchange {message results : Message}
    (h : Answers (toolUses message) results) : Answered [message, results] := by
  refine ⟨fun _ => ⟨results, [], rfl, h⟩, fun hasks => ?_, trivial⟩
  have hrole := h.1.symm.trans hasks.1
  cases hrole

/-- Reading an answered conversation at one of its messages. -/
theorem Answered.at {before after : List Message} {message : Message}
    (h : Answered (before ++ message :: after)) (hasks : Asks message) :
    ∃ results rest, after = results :: rest ∧ Answers (toolUses message) results := by
  induction before with
  | nil => exact h.1 hasks
  | cons _ _ ih => exact ih h.2

/-! ## What the executor returns -/

/-- **`normalizeBatch` answers every call, in call order.** -/
theorem normalizeBatch_ids (calls : List ToolUseBlock) (results : List ToolCallResult)
    (instant : Nat) :
    (normalizeBatch calls results instant).map (·.toolUseId) = calls.map (·.toolUseId) := by
  rw [normalizeBatch, List.map_map]
  refine List.map_congr_left fun call _ => ?_
  rw [Function.comp_apply]
  cases hfind : results.reverse.find? fun result => result.toolUseId == call.toolUseId with
  | none => rfl
  | some result =>
    have hid := List.find?_some hfind
    exact beq_iff_eq.mp hid

theorem answers_results (stringify : Json → String) (calls : List ToolUseBlock)
    (results : List ToolCallResult) (instant : Nat) :
    Answers calls
      { role := .user
        content := ((normalizeBatch calls results instant).map
          (projectToolResult stringify)).map ToolResultBlock.toBlock } := by
  refine ⟨rfl, _, rfl, ?_⟩
  rw [List.map_map, ← normalizeBatch_ids calls results instant]
  rfl

/-! ## The invariant -/

/-- The last message waits for the results of these calls. -/
def Awaiting (conversation : List Message) (calls : List ToolUseBlock) : Prop :=
  ∃ before message, conversation = before ++ [message] ∧ toolUses message = calls ∧ Answered before

/-- What is owed at each `await` of the loop. -/
def Conversing (s : AgentRun T) : Prop :=
  match s.phase with
  | .boundary calls | .batch calls => Awaiting s.conversation calls
  | .exited => True
  | _ => Answered s.conversation

/-- Every request was answered. -/
def Requested (history : List (RunItem T)) : Prop :=
  ∀ messages, .requested messages ∈ history → Answered messages

theorem Requested.append {history items : List (RunItem T)} (h : Requested history)
    (hitems : Requested items) : Requested (history ++ items) := by
  intro messages hmem
  rcases List.mem_append.mp hmem with hmem | hmem
  · exact h messages hmem
  · exact hitems messages hmem

theorem requested_exit (s : AgentRun T) (status : FinishStatus T) :
    Requested (s.exit status).2 := by
  intro messages hmem
  rcases mem_exit hmem with ⟨-, heq⟩ | ⟨shown, heq⟩ <;> cases heq

theorem Awaiting.answered {conversation : List Message} (h : Awaiting conversation []) :
    Answered conversation := by
  obtain ⟨before, message, rfl, hcalls, hbefore⟩ := h
  exact hbefore.append (answered_text hcalls)

theorem answered_drain (cfg : LoopConfig) {s : AgentRun T} (h : Answered s.conversation) :
    Answered (s.drain cfg).1.conversation := by
  obtain ⟨notes, heq, -⟩ := drain_conversation cfg s
  rw [heq]
  exact (h.append (answered_users _)).append (answered_users _)

theorem requested_drain (cfg : LoopConfig) (s : AgentRun T) : Requested (s.drain cfg).2 := by
  obtain ⟨notes, -, -, heq⟩ := drain_conversation cfg s
  intro messages hmem
  rw [heq, List.mem_append] at hmem
  rcases hmem with hmem | hmem <;> obtain ⟨_, -, hitem⟩ := List.mem_map.mp hmem <;> cases hitem

/-- A turn starts from an answered conversation. -/
theorem conversing_startTurn (cfg : LoopConfig) {s : AgentRun T} (h : Answered s.conversation) :
    Conversing (s.startTurn cfg).1 ∧ Requested (s.startTurn cfg).2 := by
  unfold AgentRun.startTurn
  split
  · exact ⟨trivial, requested_exit s _⟩
  · refine ⟨h, fun messages hmem => ?_⟩
    rcases List.mem_cons.mp hmem with heq | hmem
    · cases heq
    · cases List.mem_singleton.mp hmem
      exact h

/-- **From the head of the loop, what is drained comes after every answer.** -/
theorem conversing_head {cfg : LoopConfig} {s : AgentRun T} (h : Answered s.conversation)
    {next : AgentRun T × List (RunItem T)} (hnext : Head cfg s next) :
    Conversing next.1 ∧ Requested next.2 := by
  cases hnext with
  | cancelled => exact ⟨trivial, requested_exit s _⟩
  | completed message =>
    exact ⟨trivial, (requested_drain cfg s).append (requested_exit _ _)⟩
  | parked => exact ⟨answered_drain cfg h, requested_drain cfg s⟩
  | turn =>
    obtain ⟨hconversing, hrequested⟩ := conversing_startTurn cfg (answered_drain cfg h)
    exact ⟨hconversing, (requested_drain cfg s).append hrequested⟩

/-- **One block keeps the invariant.** -/
theorem conversing_block {cfg : LoopConfig} {s : AgentRun T} (h : Conversing s)
    {inside : Bool} {next : AgentRun T × List (RunItem T)} (hnext : Block cfg s inside next) :
    Conversing next.1 ∧ Requested next.2 := by
  cases hnext with
  | outside houtside hitems =>
    refine ⟨?_, fun messages hmem => ?_⟩
    · rw [Conversing, houtside.phase, houtside.conversation]
      exact h
    · have hitem := hitems _ hmem
      cases hitem
  | streamed event hphase =>
    rw [Conversing, hphase] at h
    refine ⟨h, fun messages hmem => ?_⟩
    cases List.mem_singleton.mp hmem
  | completed message usage stopReason hphase =>
    rw [Conversing, hphase] at h
    refine ⟨h, fun messages hmem => ?_⟩
    cases List.mem_singleton.mp hmem
  | died error hphase =>
    refine ⟨trivial, Requested.append (fun messages hmem => ?_) (requested_exit s _)⟩
    obtain ⟨reason, message, heq⟩ := mem_salvage hmem
    cases heq
  | executorThrew error hphase => exact ⟨trivial, requested_exit s _⟩
  | @turn _ _ message usage hphase =>
    rw [Conversing, hphase] at h
    -- the message of the turn is the one that now waits for its results
    have hawaiting : Awaiting (s.conversation ++ [message.val]) (toolUses message.val) :=
      ⟨s.conversation, message.val, rfl, rfl, h⟩
    unfold AgentRun.commitTurn
    dsimp only
    split
    · next hcalls =>
      split
      · refine ⟨trivial, Requested.append (fun messages hmem => ?_) ?_⟩
        · cases List.mem_singleton.mp hmem
        · intro messages hmem
          rcases List.mem_cons.mp hmem with heq | hmem
          · cases heq
          · exact requested_exit _ _ messages hmem
      · refine ⟨hcalls ▸ hawaiting, fun messages hmem => ?_⟩
        simp [AgentRun.appendAssistant] at hmem
    · refine ⟨hawaiting, fun messages hmem => ?_⟩
      simp [AgentRun.appendAssistant] at hmem
  | rested hphase =>
    rw [Conversing, hphase] at h
    exact conversing_head h.answered (loopHead_head cfg s)
  | dispatched hcalls hphase =>
    rw [Conversing, hphase] at h
    refine ⟨h, fun messages hmem => ?_⟩
    cases List.mem_singleton.mp hmem
  | @batch calls results accepted instant hphase =>
    rw [Conversing, hphase] at h
    obtain ⟨before, message, hconversation, hcalls, hbefore⟩ := h
    -- normalizing gives each call of that message exactly one result
    have hanswered : Answered (s.appendToolResults
        ((normalizeBatch calls results instant).map (projectToolResult cfg.stringify))).1.conversation := by
      rw [AgentRun.appendToolResults, hconversation, List.append_assoc]
      refine hbefore.append (answered_exchange ?_)
      rw [hcalls]
      exact answers_results cfg.stringify calls results instant
    have happended : Requested (s.appendToolResults
        ((normalizeBatch calls results instant).map (projectToolResult cfg.stringify))).2 := by
      intro messages hmem
      cases List.mem_singleton.mp hmem
    unfold AgentRun.commitBatch
    dsimp only
    split
    · split
      · exact ⟨trivial, happended.append (requested_exit _ _)⟩
      · exact ⟨trivial, happended.append (requested_exit _ _)⟩
    · split
      · exact ⟨trivial, happended.append (requested_exit _ _)⟩
      · obtain ⟨hconversing, hrequested⟩ := conversing_head hanswered (loopHead_head cfg _)
        exact ⟨hconversing, happended.append hrequested⟩
  | woken hphase hresolved =>
    rw [Conversing, hphase] at h
    exact conversing_head (s := s.unhook _) h (loopHead_head cfg _)

/-! ## Every run -/

/-- A run with all that it has shown. -/
abbrev AgentHistory (T : Type) := Recorded (AgentRun T) (RunItem T)

/-- **In every reachable state the invariant holds, and every request was answered.** -/
theorem conversing_of_run {cfg : LoopConfig} {messages : List UserMessage}
    {labels : List (RunLabel T)} {r : AgentHistory T}
    (run : Run (Recorded.step (AgentRun.step cfg)) Free (AgentRun.start cfg messages) labels r) :
    Conversing r.state ∧ Requested r.history := by
  refine run.invariant (I := fun r => Conversing r.state ∧ Requested r.history) ?_ ?_
  · have hfresh : Answered (AgentRun.fresh messages : AgentRun T).conversation :=
      answered_users messages
    obtain ⟨hconversing, hrequested⟩ := conversing_head hfresh (loopHead_head cfg _)
    refine ⟨hconversing, Requested.append (fun request hmem => ?_) hrequested⟩
    obtain ⟨message, -, heq⟩ := List.mem_map.mp hmem
    cases heq
  · intro r label r' _ hr hstep
    obtain ⟨state, items, hstate, rfl⟩ := Recorded.step_cases hstep
    obtain ⟨hconversing, hrequested⟩ := conversing_block hr.1 (step_block hstate)
    exact ⟨hconversing, hr.2.append hrequested⟩

/-- **Provider-history validity**, for every executor and every schedule: in every request that the
loop sends, a message with tool calls is followed at once by one user message of exactly one
`tool_result` block for each call, in call order. -/
theorem provider_history_valid {cfg : LoopConfig} {messages : List UserMessage}
    {labels : List (RunLabel T)} {r : AgentHistory T}
    (run : Run (Recorded.step (AgentRun.step cfg)) Free (AgentRun.start cfg messages) labels r)
    {request before after : List Message} {message : Message}
    (hrequest : .requested request ∈ r.history) (hat : request = before ++ message :: after)
    (hrole : message.role = .assistant) (hcalls : toolUses message ≠ []) :
    ∃ results rest, after = results :: rest ∧ Answers (toolUses message) results := by
  have hanswered := (conversing_of_run run).2 request hrequest
  rw [hat] at hanswered
  exact hanswered.at ⟨hrole, hcalls⟩

/-- A request of four messages whose second one is an assistant's with calls. -/
def requestsAfterCalls : RunItem Unit → Bool
  | .requested [_, message, _, _] => message.role == .assistant && !(toolUses message).isEmpty
  | _ => false

/-- An executor that answers nothing, a steer while it runs, and the request after the batch. -/
theorem provider_history_valid_call :
    ∃ (r : AgentHistory Unit) (seed message results steer : Message),
      .requested [seed, message, results, steer] ∈ r.history ∧
        Answers (toolUses message) results := by
  obtain ⟨r, run, hr⟩ := exists_run (Recorded.step (AgentRun.step (sampleConfig .text))) Free
    (AgentRun.start (T := Unit) (sampleConfig .text) [⟨userText "go", rfl⟩])
    [.complete ⟨{ role := .assistant, content := [.toolUse "a" "read" []] }, rfl⟩ ⟨1, 1, none, none⟩
        none,
      .turnReturns, .boundaryReturns, .steer ⟨userText "wait", rfl⟩, .batchReturns [] none 7]
    (fun r => r.history.any requestsAfterCalls) (by decide +kernel)
  obtain ⟨item, hitem, htest⟩ := List.any_eq_true.mp hr
  unfold requestsAfterCalls at htest
  split at htest
  · next seed message results steer =>
    rw [Bool.and_eq_true, beq_iff_eq] at htest
    have hcalls : toolUses message ≠ [] := by
      intro hnil
      rw [hnil] at htest
      cases htest.2
    have hat : [seed, message, results, steer] = [seed] ++ message :: [results, steer] := rfl
    obtain ⟨answer, rest, hafter, hanswers⟩ := provider_history_valid run hitem hat htest.1 hcalls
    cases hafter
    exact ⟨r, seed, message, results, steer, hitem, hanswers⟩
  · cases htest

end EphemeralAgent.Engine
