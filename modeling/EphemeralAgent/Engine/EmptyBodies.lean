import EphemeralAgent.Engine.Steers
import EphemeralAgent.LlmClient.AnthropicEncode
import EphemeralAgent.LlmClient.Decode
import EphemeralAgent.LlmClient.Wire

/-!
# Messages without a body

The Anthropic wire drops reasoning, so a turn of reasoning alone is encoded to an empty message.
Such a turn makes no calls, and the loop replays it when it goes on afterwards.

* `Barren` — a message that is encoded to nothing
* `AgentRun.StartsTurn`, `Reprompts` — the head of the loop asks the model again
* `requested_loopHead`, `requested_step` — what a block requests
* `Fed`, `Decodable` — the input of a run has text, and its turns come from a decoder
* `Bodied` — every request of a run has a body in every message
-/

namespace EphemeralAgent.Engine

open Lib LlmClient Notification Anthropic

variable {T : Type}

/-! ## Barren messages -/

/-- No text, no tool call and no result: reasoning alone, or nothing. -/
def Barren (message : Message) : Prop :=
  ∀ block ∈ message.content, ∃ text, block = .reasoning text

/-- A text block. -/
def isText : ContentBlock → Bool
  | .text _ => true
  | _ => false

theorem not_barren_of_text {message : Message} (h : message.content.any isText = true) :
    ¬ Barren message := by
  intro hbarren
  obtain ⟨block, hblock, htext⟩ := List.any_eq_true.mp h
  obtain ⟨text, rfl⟩ := hbarren block hblock
  cases htext

theorem not_barren_userText (text : String) : ¬ Barren (userText text) :=
  not_barren_of_text rfl

theorem not_barren_results {blocks : List ToolResultBlock} (h : blocks ≠ []) :
    ¬ Barren { role := .user, content := blocks.map ToolResultBlock.toBlock } := by
  intro hbarren
  obtain ⟨block, rest, rfl⟩ := List.exists_cons_of_ne_nil h
  obtain ⟨text, heq⟩ := hbarren block.toBlock (by simp)
  cases heq

/-! ## What a block requests -/

/-- The head of the loop starts a turn: the run goes on, turns are left, and a run at rest has
something to tell the model or has to prompt it again. -/
def AgentRun.StartsTurn (cfg : LoopConfig) (s : AgentRun T) : Prop :=
  s.handle.aborted = false ∧ s.turns < cfg.maxTurns ∧
    (s.atRest = true → s.handle.steers = [] → s.inbox.entries = [] →
      s.tasks.isEmpty = true ∧ (cfg.mode = .text → s.pendingText = none))

/-- The step goes through the head of the loop and starts a turn there. -/
def Reprompts (cfg : LoopConfig) (s : AgentRun T) : RunLabel T → Prop
  | .boundaryReturns => s.phase = .boundary [] ∧ s.StartsTurn cfg
  | .wakes => s.StartsTurn cfg
  | .batchReturns results _ instant =>
    ∃ calls, s.phase = .batch calls ∧ s.StartsTurn cfg ∧
      (normalizeBatch calls results instant).any (·.isTerminal) = false
  | _ => False

section Requested

variable {cfg : LoopConfig} {s s' : AgentRun T} {request : List Message}
  {items : List (RunItem T)} {label : RunLabel T}

theorem not_requested_exit (status : FinishStatus T) : .requested request ∉ (s.exit status).2 := by
  intro hmem
  rcases mem_exit hmem with ⟨-, heq⟩ | ⟨shown, heq⟩ <;> cases heq

theorem not_requested_drain : .requested request ∉ (s.drain cfg).2 := by
  obtain ⟨notes, -, -, heq⟩ := drain_conversation cfg s
  rw [heq]
  simp

theorem requested_startTurn :
    .requested request ∈ (s.startTurn cfg).2 ↔ s.turns < cfg.maxTurns ∧ request = s.conversation := by
  unfold AgentRun.startTurn
  by_cases hturns : s.turns ≥ cfg.maxTurns
  · rw [if_pos hturns]
    refine iff_of_false (not_requested_exit _) ?_
    rintro ⟨hlt, -⟩
    omega
  · rw [if_neg hturns]
    have hlt : s.turns < cfg.maxTurns := by omega
    simp [hlt]

/-- **What the head of the loop requests.** -/
theorem requested_loopHead :
    .requested request ∈ (s.loopHead cfg).2 ↔
      s.StartsTurn cfg ∧ request = (s.drain cfg).1.conversation := by
  unfold AgentRun.loopHead AgentRun.StartsTurn
  by_cases haborted : s.handle.aborted = true
  · rw [if_pos haborted, haborted]
    refine iff_of_false (not_requested_exit _) ?_
    rintro ⟨⟨hlive, -⟩, -⟩
    cases hlive
  · rw [if_neg haborted]
    rw [Bool.not_eq_true] at haborted
    have hturn : .requested request ∈ ((s.drain cfg).1.startTurn cfg).2 ↔
        s.turns < cfg.maxTurns ∧ request = (s.drain cfg).1.conversation := requested_startTurn
    -- at rest, the loop goes on only without tasks and without a text to end with
    by_cases hrest : s.atRest = true ∧ s.handle.steers = [] ∧ s.inbox.entries = []
    · obtain ⟨hatRest, hsteers, hnotes⟩ := hrest
      simp only [hatRest, hsteers, hnotes, and_self, if_true, List.mem_append, haborted, true_and,
        forall_true_left]
      by_cases htasks : (s.drain cfg).1.tasks.isEmpty = true
      · have hempty : s.tasks.isEmpty = true := htasks
        rw [if_pos htasks, hempty]
        split
        · next message hmode htext =>
          refine iff_of_false ?_ ?_
          · rintro (hmem | hmem)
            · exact not_requested_drain hmem
            · exact not_requested_exit _ hmem
          · rintro ⟨⟨-, -, hnone⟩, -⟩
            rw [hnone hmode] at htext
            cases htext
        · next hopen =>
          have hnone : cfg.mode = .text → s.pendingText = none := by
            intro hmode
            cases htext : s.pendingText with
            | none => rfl
            | some message => exact absurd htext (hopen message hmode)
          constructor
          · rintro (hmem | hmem)
            · exact absurd hmem not_requested_drain
            · exact ⟨⟨(hturn.mp hmem).1, rfl, hnone⟩, (hturn.mp hmem).2⟩
          · rintro ⟨⟨hlt, -, -⟩, heq⟩
            exact Or.inr (hturn.mpr ⟨hlt, heq⟩)
      · -- with open tasks it parks
        have hopen : ¬ s.tasks.isEmpty = true := htasks
        rw [if_neg htasks]
        refine iff_of_false ?_ ?_
        · rintro (hmem | hmem)
          · exact not_requested_drain hmem
          · cases hmem
        · rintro ⟨⟨-, hempty, -⟩, -⟩
          exact hopen hempty
    · simp only [if_neg hrest, List.mem_append]
      constructor
      · rintro (hmem | hmem)
        · exact absurd hmem not_requested_drain
        · refine ⟨⟨haborted, (hturn.mp hmem).1, ?_⟩, (hturn.mp hmem).2⟩
          intro hatRest hsteers hnotes
          exact absurd ⟨hatRest, hsteers, hnotes⟩ hrest
      · rintro ⟨⟨-, hlt, -⟩, heq⟩
        exact Or.inr (hturn.mpr ⟨hlt, heq⟩)

/-- The messages that the head of the loop adds to a conversation. -/
structure Added (s : AgentRun T) (message : Message) : Prop where
  source : (∃ steer ∈ s.handle.steers, message = steer.val) ∨ ∃ text, message = userText text

theorem drained_conversation (cfg : LoopConfig) (s : AgentRun T) :
    ∃ added, (s.drain cfg).1.conversation = s.conversation ++ added ∧
      ∀ message ∈ added, Added s message := by
  refine ⟨s.handle.steers.map (·.val) ++ (s.inbox.drain.2.map fun note =>
    systemNotificationMessage cfg.stringify [("message", .str note)]).map (·.val), ?_, ?_⟩
  · rw [← List.append_assoc]
    rfl
  · intro message hmem
    rw [List.mem_append, List.mem_map, List.map_map, List.mem_map] at hmem
    rcases hmem with ⟨steer, hsteer, rfl⟩ | ⟨note, -, rfl⟩
    · exact ⟨Or.inl ⟨steer, hsteer, rfl⟩⟩
    · exact ⟨Or.inr ⟨_, rfl⟩⟩

/-- A request from the head of the loop is barren nowhere but in the conversation before it. -/
theorem bodied_loopHead (cfg : LoopConfig) (s : AgentRun T)
    (hsteers : ∀ steer ∈ s.handle.steers, steer.val.content.any isText = true) :
    (∀ request, .requested request ∈ (s.loopHead cfg).2 → ∀ message ∈ request, ¬ Barren message) ↔
      (s.StartsTurn cfg → ∀ message ∈ s.conversation, ¬ Barren message) := by
  obtain ⟨added, hconversation, hadded⟩ := drained_conversation cfg s
  have hbodied : ∀ message ∈ added, ¬ Barren message := by
    intro message hmem
    rcases (hadded message hmem).source with ⟨steer, hsteer, rfl⟩ | ⟨text, rfl⟩
    · exact not_barren_of_text (hsteers steer hsteer)
    · exact not_barren_userText text
  simp only [requested_loopHead, hconversation]
  constructor
  · intro h hstarts message hmem
    exact h _ ⟨hstarts, rfl⟩ message (List.mem_append_left _ hmem)
  · rintro h request ⟨hstarts, rfl⟩ message hmem
    rcases List.mem_append.mp hmem with hmem | hmem
    · exact h hstarts message hmem
    · exact hbodied message hmem

theorem not_requested_salvage {aborted : Bool} {error : LoopError} {text reasoning : String} :
    (.requested request : RunItem T) ∉ AgentRun.salvage aborted error text reasoning := by
  intro hmem
  obtain ⟨reason, message, heq⟩ := mem_salvage hmem
  cases heq

theorem not_requested_commitTurn {message : AssistantMessage} {usage : UsageSnapshot} :
    .requested request ∉ (s.commitTurn cfg message usage).2 := by
  intro hmem
  unfold AgentRun.commitTurn at hmem
  dsimp only at hmem
  split at hmem
  · split at hmem
    · rcases List.mem_append.mp hmem with hmem | hmem
      · cases List.mem_singleton.mp hmem
      · rcases List.mem_cons.mp hmem with heq | hmem
        · cases heq
        · exact not_requested_exit _ hmem
    · simp [AgentRun.appendAssistant] at hmem
  · simp [AgentRun.appendAssistant] at hmem

theorem not_requested_died {error : LoopError} {text reasoning : String} :
    .requested request ∉ AgentRun.salvage s.handle.aborted error text reasoning ++ (s.fail error).2 := by
  intro hmem
  rcases List.mem_append.mp hmem with hmem | hmem
  · exact not_requested_salvage hmem
  · exact not_requested_exit _ hmem

/-- A turn that starts after a batch has the results of the batch in its request. -/
theorem bodied_commitBatch {calls : List ToolUseBlock} (hcalls : calls ≠ [])
    {results : List ToolCallResult} {accepted : Option T} {instant : Nat}
    (hsteers : ∀ steer ∈ s.handle.steers, steer.val.content.any isText = true) :
    (∀ request, .requested request ∈ (s.commitBatch cfg calls results accepted instant).2 →
        ∀ message ∈ request, ¬ Barren message) ↔
      (s.StartsTurn cfg → (normalizeBatch calls results instant).any (·.isTerminal) = false →
        ∀ message ∈ s.conversation, ¬ Barren message) := by
  have hblocks : (normalizeBatch calls results instant).map (projectToolResult cfg.stringify) ≠ [] := by
    simp [normalizeBatch, hcalls]
  -- appending the results requests nothing: only the head of the loop does
  have happended : ∀ request, .requested request ∉ (s.appendToolResults
      ((normalizeBatch calls results instant).map (projectToolResult cfg.stringify))).2 := by
    intro request hmem
    cases List.mem_singleton.mp hmem
  have hnone : ∀ next : AgentRun T × List (RunItem T),
      (∀ request, .requested request ∉ next.2) →
      ∀ request, .requested request ∉ (s.appendToolResults
        ((normalizeBatch calls results instant).map (projectToolResult cfg.stringify))).2 ++ next.2 := by
    intro next hnext request hmem
    rcases List.mem_append.mp hmem with hmem | hmem
    · exact happended request hmem
    · exact hnext request hmem
  unfold AgentRun.commitBatch
  dsimp only
  by_cases hterminal : (normalizeBatch calls results instant).any (·.isTerminal) = true
  · rw [if_pos hterminal]
    refine iff_of_true (fun request hmem => ?_) fun _ hfalse => ?_
    · split at hmem
      · exact absurd hmem (hnone _ (fun _ => not_requested_exit _) request)
      · exact absurd hmem (hnone _ (fun _ => not_requested_exit _) request)
    · rw [hterminal] at hfalse
      cases hfalse
  · rw [if_neg hterminal]
    rw [Bool.not_eq_true] at hterminal
    by_cases haborted : s.handle.aborted = true
    · rw [if_pos haborted]
      refine iff_of_true (fun request hmem => ?_) fun hstarts => ?_
      · exact absurd hmem (hnone _ (fun _ => not_requested_exit _) request)
      · rw [hstarts.1] at haborted
        cases haborted
    · rw [if_neg haborted]
      have hhead := bodied_loopHead cfg (s.appendToolResults
        ((normalizeBatch calls results instant).map (projectToolResult cfg.stringify))).1 hsteers
      have hstarts : (s.appendToolResults ((normalizeBatch calls results instant).map
          (projectToolResult cfg.stringify))).1.StartsTurn cfg ↔ s.StartsTurn cfg := Iff.rfl
      rw [hstarts] at hhead
      constructor
      · intro h hstart _ message hmem
        refine hhead.mp (fun request hrequest => h request ?_) hstart message ?_
        · exact List.mem_append_right _ hrequest
        · exact List.mem_append_left _ hmem
      · intro h request hmem
        rcases List.mem_append.mp hmem with hmem | hmem
        · exact absurd hmem (happended request)
        · refine hhead.mpr (fun hstart message hmessage => ?_) request hmem
          rcases List.mem_append.mp hmessage with hmessage | hmessage
          · exact h hstart hterminal message hmessage
          · rw [List.mem_singleton.mp hmessage]
            exact not_barren_results hblocks

end Requested

/-! ## Runs -/

/-- Every request has a body in every message. -/
def Bodied (history : List (RunItem T)) : Prop :=
  ∀ request, .requested request ∈ history → ∀ message ∈ request, ¬ Barren message

/-- A steer has a text block. -/
def Fed (_ : AgentHistory T) : RunLabel T → Prop
  | .steer message => message.val.content.any isText = true
  | _ => True

instance (r : AgentHistory T) (label : RunLabel T) : Decidable (Fed r label) := by
  unfold Fed
  split <;> infer_instance

/-- The step asks the model again only when no turn of the conversation is barren. -/
def Replays (cfg : LoopConfig) (r : AgentHistory T) (label : RunLabel T) : Prop :=
  Reprompts cfg r.state label → ∀ message ∈ r.state.conversation, ¬ Barren message

/-- The steers that wait have text, and a batch is the batch of some calls. -/
structure Supplied (s : AgentRun T) : Prop where
  steers : ∀ steer ∈ s.handle.steers, steer.val.content.any isText = true
  batch : ∀ calls, s.phase = .batch calls → calls ≠ []

section Runs

variable {cfg : LoopConfig} {s s' : AgentRun T} {items : List (RunItem T)} {label : RunLabel T}

theorem Bodied.append_iff {history items : List (RunItem T)} :
    Bodied (history ++ items) ↔ Bodied history ∧ Bodied items := by
  unfold Bodied
  constructor
  · intro h
    exact ⟨fun request hmem => h request (List.mem_append_left _ hmem),
      fun request hmem => h request (List.mem_append_right _ hmem)⟩
  · rintro ⟨hold, hnew⟩ request hmem
    rcases List.mem_append.mp hmem with hmem | hmem
    · exact hold request hmem
    · exact hnew request hmem

/-- **What a step requests has a body when no barren turn is replayed.** -/
theorem bodied_step {next : AgentRun T × List (RunItem T)} (hs : Supplied s)
    (h : s.step cfg label = some next) :
    Bodied next.2 ↔ (Reprompts cfg s label → ∀ message ∈ s.conversation, ¬ Barren message) := by
  have hquiet : ∀ {items : List (RunItem T)}, (∀ request, .requested request ∉ items) →
      Bodied items := fun hitems request hmem => absurd hmem (hitems request)
  cases fired_of_step h with
  | textDelta | reasoningDelta | toolUseDelta | complete =>
    exact iff_of_true (hquiet (by simp)) fun hno => False.elim hno
  | streamEnded | turnThrows =>
    exact iff_of_true (hquiet fun _ => not_requested_died) fun hno => False.elim hno
  | turnReturns =>
    exact iff_of_true (hquiet fun _ => not_requested_commitTurn) fun hno => False.elim hno
  | batchThrows =>
    exact iff_of_true (hquiet fun _ => not_requested_exit _) fun hno => False.elim hno
  | rested hphase =>
    refine (bodied_loopHead cfg _ hs.steers).trans ?_
    simp only [Reprompts, hphase, true_and]
  | dispatched hcalls hphase =>
    refine iff_of_true (hquiet (by simp)) ?_
    rintro ⟨hrest, -⟩
    rw [hphase, LoopPhase.boundary.injEq] at hrest
    exact absurd hrest hcalls
  | @batchReturns calls results accepted instant hphase =>
    refine (bodied_commitBatch (hs.batch calls hphase) hs.steers).trans ?_
    constructor
    · rintro hgoes ⟨others, heq, hstarts, hterminal⟩
      rw [hphase, LoopPhase.batch.injEq] at heq
      subst heq
      exact hgoes hstarts hterminal
    · intro hgoes hstarts hterminal
      exact hgoes ⟨calls, hphase, hstarts, hterminal⟩
  | @wakes since park hphase hresolved => exact bodied_loopHead cfg (s.unhook park) hs.steers
  | _ =>
    obtain ⟨-, hitems⟩ := outside_step rfl h
    exact iff_of_true (fun request hmem => absurd (hitems _ hmem) nofun) fun hno => False.elim hno

theorem phase_of_head {next : AgentRun T × List (RunItem T)} (h : Head cfg s next)
    (calls : List ToolUseBlock) : next.1.phase ≠ .batch calls := by
  cases h with
  | cancelled | completed => nofun
  | parked => nofun
  | turn =>
    unfold AgentRun.startTurn
    split <;> nofun

/-- A batch is the batch of some calls. -/
theorem batch_of_block {inside : Bool} {next : AgentRun T × List (RunItem T)}
    (h : Block cfg s inside next) (hs : ∀ calls, s.phase = .batch calls → calls ≠ []) :
    ∀ calls, next.1.phase = .batch calls → calls ≠ [] := by
  intro others hphase
  cases h with
  | outside houtside =>
    rw [houtside.phase] at hphase
    exact hs others hphase
  | streamed | completed | died | executorThrew => cases hphase
  | turn =>
    unfold AgentRun.commitTurn at hphase
    dsimp only at hphase
    split at hphase
    · split at hphase <;> cases hphase
    · cases hphase
  | dispatched hcalls =>
    cases hphase
    exact hcalls
  | batch =>
    unfold AgentRun.commitBatch at hphase
    dsimp only at hphase
    split at hphase
    · split at hphase <;> cases hphase
    · split at hphase
      · cases hphase
      · exact absurd hphase (phase_of_head (loopHead_head cfg _) others)
  | rested | woken => exact absurd hphase (phase_of_head (loopHead_head cfg _) others)

/-- Only a steer is accepted as a steer. -/
theorem steered_label {next : AgentRun T × List (RunItem T)} (hinside : label.isInside = false)
    (h : s.step cfg label = some next) {message : UserMessage}
    (hmem : message ∈ acceptedSteers next.2) : label = .steer message := by
  obtain ⟨item, hitem, haccepted⟩ := List.mem_filterMap.mp hmem
  cases fired_of_step h with
  | steer other =>
    rw [List.mem_singleton] at hitem
    subst hitem
    cases hopen : (s.handle.steer other).2.1 with
    | false =>
      rw [hopen] at haccepted
      cases haccepted
    | true =>
      rw [hopen] at haccepted
      cases haccepted
      rfl
  | interrupt =>
    unfold AgentRun.interrupt at hitem
    split at hitem
    · cases hitem
    · rw [List.mem_singleton] at hitem
      subst hitem
      cases haccepted
  | published | unpublished | beginFinishing | cancelFinishing => cases hitem
  | task inner next hnext =>
    obtain ⟨shown, -, rfl⟩ := List.mem_map.mp hitem
    cases haccepted
  | _ => cases hinside

/-- A block of the loop adds no steer to the queue. -/
theorem steers_of_account {next : AgentRun T × List (RunItem T)} (h : Account s next)
    {steer : UserMessage} (hsteer : steer ∈ next.1.handle.steers) : steer ∈ s.handle.steers := by
  cases h with
  | goesOn _ hqueue =>
    rw [hqueue]
    exact List.mem_append_right _ hsteer
  | ends _ _ _ _ _ _ _ _ _ _ _ hempty =>
    rw [hempty] at hsteer
    cases hsteer

theorem supplied_step {history : List (RunItem T)} (hs : Supplied s) (hlive : Live s)
    (hfed : Fed { state := s, history } label) (h : s.step cfg label = some (s', items)) :
    Supplied s' := by
  refine ⟨?_, batch_of_block (step_block h) hs.batch⟩
  intro steer hsteer
  by_cases hinside : label.isInside = false
  · obtain ⟨-, -, hqueue, -⟩ := accounted_outside (r := { state := s, history }) hinside h
    rw [hqueue, List.mem_append] at hsteer
    rcases hsteer with hold | hnew
    · exact hs.steers steer hold
    · have hlabel := steered_label hinside h hnew
      subst hlabel
      exact hfed
  · have haccount := account_step hlive (by simpa using hinside) h
    exact hs.steers steer (steers_of_account haccount hsteer)

variable {messages : List UserMessage} {labels : List (RunLabel T)} {r : AgentHistory T}

theorem supplied_of_run
    (run : Run (Recorded.step (AgentRun.step cfg)) Fed (AgentRun.start cfg messages) labels r) :
    Supplied r.state := by
  refine run.invariant_of (I := fun r => Supplied r.state) (J := Accounted)
    (fun hrun => accounted_of_run hrun.free) ?_ ?_
  · refine ⟨fun steer hsteer => ?_, fun calls hphase => ?_⟩
    · have haccount : Account (AgentRun.fresh (T := T) messages)
          ((AgentRun.fresh messages).loopHead cfg) := account_loopHead cfg rfl
      cases steers_of_account haccount hsteer
    · exact absurd hphase (phase_of_head (loopHead_head cfg _) calls)
  · intro r label r' hfed hr hs hstep
    obtain ⟨state, items, hstate, rfl⟩ := Recorded.step_cases hstep
    exact supplied_step hs hr.live hfed hstate

theorem bodied_start (hseed : ∀ message ∈ messages, message.val.content.any isText = true) :
    Bodied (AgentRun.start (T := T) cfg messages).history := by
  have hhead := (bodied_loopHead cfg (AgentRun.fresh (T := T) messages) nofun).mpr
    fun _ message hmem => by
      obtain ⟨seed, hfirst, rfl⟩ := List.mem_map.mp hmem
      exact not_barren_of_text (hseed seed hfirst)
  refine Bodied.append_iff.mpr ⟨fun request hmem => ?_, hhead⟩
  obtain ⟨seed, -, heq⟩ := List.mem_map.mp hmem
  cases heq

/-- Every request is bodied in the runs that replay no barren turn. -/
theorem bodied_iff_replays (hseed : ∀ message ∈ messages, message.val.content.any isText = true)
    (run : Run (Recorded.step (AgentRun.step cfg)) Fed (AgentRun.start cfg messages) labels r) :
    Bodied r.history ↔ Run (Recorded.step (AgentRun.step cfg))
      (fun r label => Fed r label ∧ Replays cfg r label) (AgentRun.start cfg messages) labels r := by
  refine run.kept_iff_of (P := fun r => Bodied r.history) (bodied_start hseed) ?_
  intro before r label r' hrun hfed hstep
  obtain ⟨state, items, hstate, rfl⟩ := Recorded.step_cases hstep
  rw [Bodied.append_iff, bodied_step (supplied_of_run hrun) hstate]
  rfl

/-- The messages of the encoded requests that a run sends. -/
def EncodedBodies (history : List (RunItem T)) : Prop :=
  ∀ (request : LlmRequest) (options : WireOptions), .requested request.messages ∈ history →
    ∀ message ∈ (encodeAnthropicRequest request options).messages, message.content ≠ []

theorem encodedBodies_iff {history : List (RunItem T)} : EncodedBodies history ↔ Bodied history := by
  have hbody : ∀ messages : List Message,
      (∀ message ∈ stampConversationTail (messages.map encodeMessage), message.content ≠ []) ↔
        ∀ message ∈ messages, ¬ Barren message := by
    intro messages
    rw [content_stampConversationTail, List.forall_mem_map]
    exact forall₂_congr fun message _ => not_congr encodeMessage_eq_nil
  constructor
  · intro h messages hmem
    have hencoded := h { model := "", messages, systemPrompt := none, maxTokens := 0, tools := [],
                         toolChoice := none, reasoningEffort := none } { systemPrefix := none } hmem
    exact (hbody messages).mp hencoded
  · intro h request options hmem
    exact (hbody request.messages).mpr (h request.messages hmem)

end Runs

/-! ## The turns of the decoders -/

/-- A decoder has completed a stream of events with this message. -/
def Decodable (jsonParse : String → Option Json) (message : Message) : Prop :=
  ∃ (provider : Provider) (requestId : Option String)
    (chunks : List (provider.wire jsonParse).Chunk) (d : (provider.wire jsonParse).Decoder)
    (emitted : List LlmStreamEvent) (usage : UsageSnapshot) (stopReason : Option String),
    decode (provider.wire jsonParse).handle ((provider.wire jsonParse).decoder requestId) chunks =
        .ok (d, emitted) ∧
      .assistantMessageComplete message usage stopReason ∈ emitted

/-- A steer has a text block, and a turn comes from a decoder. -/
def FedAndDecoded (jsonParse : String → Option Json) (r : AgentHistory T) :
    RunLabel T → Prop
  | .complete message _ _ => Decodable jsonParse message.val
  | label => Fed r label

/-- **Every request of a run has a body in every message, exactly when the loop asks the model again
only after turns with a text or a tool call.** -/
theorem encoded_bodies_iff {cfg : LoopConfig} {messages : List UserMessage}
    {labels : List (RunLabel T)} {r : AgentHistory T}
    (hseed : ∀ message ∈ messages, message.val.content.any isText = true)
    (run : Run (Recorded.step (AgentRun.step cfg)) Fed (AgentRun.start cfg messages) labels r) :
    EncodedBodies r.history ↔ Run (Recorded.step (AgentRun.step cfg))
      (fun r label => Fed r label ∧ Replays cfg r label) (AgentRun.start cfg messages) labels r :=
  encodedBodies_iff.trans (bodied_iff_replays hseed run)

/-- A turn of text, and the steer that comes after it. -/
def steeredTurn : List (RunLabel Unit) :=
  [.complete ⟨{ role := .assistant, content := [.text "so far"] }, rfl⟩ ⟨1, 1, none, none⟩ none,
    .turnReturns, .steer ⟨userText "more", rfl⟩, .boundaryReturns]

/-- A request of the conversation after it. -/
def requestsSteered : RunItem Unit → Bool
  | .requested request => request.length == 3
  | _ => false

/-- The model is asked again, and every message has a body. -/
theorem encoded_bodies_iff_steered :
    ∃ r : AgentHistory Unit,
      Run (Recorded.step (AgentRun.step (sampleConfig .terminal))) Fed
        (AgentRun.start (sampleConfig .terminal) [⟨userText "go", rfl⟩]) steeredTurn r ∧
      r.history.any requestsSteered = true ∧ EncodedBodies r.history := by
  obtain ⟨r, run, hrequested⟩ := exists_run (Recorded.step (AgentRun.step (sampleConfig .terminal)))
    (fun r label => Fed r label ∧
      r.state.conversation.all (fun message => message.content.any isText) = true)
    (AgentRun.start (T := Unit) (sampleConfig .terminal) [⟨userText "go", rfl⟩]) steeredTurn
    (fun r => r.history.any requestsSteered) (by decide +kernel)
  have replayed : Run (Recorded.step (AgentRun.step (sampleConfig .terminal)))
      (fun r label => Fed r label ∧ Replays (sampleConfig .terminal) r label)
      (AgentRun.start (sampleConfig .terminal) [⟨userText "go", rfl⟩]) steeredTurn r :=
    run.mono fun r label ⟨hfed, htexts⟩ => ⟨hfed, fun _ message hmessage =>
      not_barren_of_text (List.all_eq_true.mp htexts message hmessage)⟩
  have fed := replayed.mono fun r label hlabel => hlabel.1
  have hseed : ∀ message ∈ [(⟨userText "go", rfl⟩ : UserMessage)],
      message.val.content.any isText = true := by simp [userText, isText]
  exact ⟨r, fed, hrequested, (encoded_bodies_iff hseed fed).mpr replayed⟩

/-- The events of a turn of reasoning alone. -/
def reasoningEvents : List Anthropic.RawMessageStreamEvent :=
  [.contentBlockStart 0 "thinking" none none, .contentBlockDelta 0 (.thinkingDelta "hm"),
    .contentBlockStop 0, .messageStop]

/-- The message of these events. -/
def isReasoningTurn (message : Message) : Bool :=
  match message.role, message.content with
  | .assistant, [.reasoning text] => text == "hm"
  | _, _ => false

theorem decodable_of_isReasoningTurn {message : Message} (h : isReasoningTurn message = true) :
    Decodable (fun _ => none) message := by
  obtain ⟨role, content⟩ := message
  unfold isReasoningTurn at h
  split at h
  · next text hrole hcontent =>
    simp only at hrole hcontent
    rw [hrole, hcontent, beq_iff_eq.mp h]
    exact ⟨.anthropicApi, none, reasoningEvents, _, _, _, _, rfl, List.mem_of_getElem? (i := 1) rfl⟩
  · cases h

/-- The labels of a run without steers whose turns are such turns. -/
def isReasoningLabel : RunLabel Unit → Bool
  | .complete message _ _ => isReasoningTurn message.val
  | .steer _ => false
  | _ => true

/-- A request whose second and last message is such a turn. -/
def requestsReasoningTurn : RunItem Unit → Bool
  | .requested [_, message] => isReasoningTurn message
  | _ => false

/-- **A turn of reasoning alone is prompted again, and its message has no body.** -/
theorem reasoning_turn_is_empty :
    ¬ ∀ (jsonParse : String → Option Json) (cfg : LoopConfig) (messages : List UserMessage)
        (labels : List (RunLabel Unit)) (r : AgentHistory Unit),
      (∀ message ∈ messages, message.val.content.any isText = true) →
      Run (Recorded.step (AgentRun.step cfg)) (FedAndDecoded jsonParse)
        (AgentRun.start cfg messages) labels r → EncodedBodies r.history := by
  intro hall
  obtain ⟨r, run, htest⟩ := exists_run (Recorded.step (AgentRun.step (sampleConfig .terminal)))
    (fun _ label => isReasoningLabel label = true)
    (AgentRun.start (T := Unit) (sampleConfig .terminal) [⟨userText "go", rfl⟩])
    [.complete ⟨{ role := .assistant, content := [.reasoning "hm"] }, rfl⟩ ⟨1, 1, none, none⟩ none,
      .turnReturns, .boundaryReturns]
    (fun r => r.history.any requestsReasoningTurn) (by decide +kernel)
  have hfed : Run (Recorded.step (AgentRun.step (sampleConfig .terminal)))
      (FedAndDecoded fun _ => none) (AgentRun.start (sampleConfig .terminal) [⟨userText "go", rfl⟩])
      _ r := run.mono fun r label hlabel => by
    cases label with
    | complete message usage stopReason => exact decodable_of_isReasoningTurn hlabel
    | steer message => cases hlabel
    | _ => trivial
  have hbodied := encodedBodies_iff.mp (hall _ _ _ _ r (by simp [userText, isText]) hfed)
  obtain ⟨item, hitem, hreasoning⟩ := List.any_eq_true.mp htest
  unfold requestsReasoningTurn at hreasoning
  split at hreasoning
  · next first message =>
    refine hbodied _ hitem message (by simp) ?_
    unfold isReasoningTurn at hreasoning
    split at hreasoning
    · next text _ hcontent =>
      intro block hblock
      rw [hcontent, List.mem_singleton] at hblock
      exact ⟨text, hblock⟩
    · cases hreasoning
  · cases hreasoning

end EphemeralAgent.Engine
