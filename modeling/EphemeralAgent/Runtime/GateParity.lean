import EphemeralAgent.Runtime.Submission

/-!
# The gate of a submission

The gate is read before the `postToolUse` hooks of the submission are awaited, and not again: what
these hooks register or publish is not seen.

* `QuietVetting` — nothing is registered or published while a submission is in these hooks
* `gate_parity` — **then `onSubmit` is entered with an empty registry and an empty inbox**
* `submitted_past_gate` — a task that is registered, and a notification that is published, in between
-/

namespace EphemeralAgent.Runtime

open Lib Background Engine Notification Tool

variable {T : Type}

/-- The task registry and the inbox are empty. -/
def Drained (s : AgentRun T) : Prop :=
  s.tasks.entries = [] ∧ s.inbox.entries = []

/-! ## What fills the registry and the inbox -/

section Supervisor

variable {s : Supervisor} {completionTimeoutMs : Nat} {next : Supervisor × List BackgroundItem}

theorem complete_entries (h : s.entries = []) (position : Nat) (settlement : Settlement) :
    (s.complete position settlement).1.entries = [] := by
  unfold Supervisor.complete
  split
  · simp [Supervisor.remove, h]
  · exact h

theorem settle_entries (h : s.entries = []) (taskId : BackgroundTaskId)
    (outcome : BackgroundTaskOutcome) : (s.settle taskId outcome).1.entries = [] := by
  have hnone : s.get taskId = none := by rw [Supervisor.get, h]; rfl
  rw [Supervisor.settle, hnone]
  exact h

/-- **Only `register` fills an empty registry.** -/
theorem entries_step {label : SupervisorLabel} (h : s.entries = [])
    (hlabel : ∀ task taskId startedAt, label ≠ .register task taskId startedAt)
    (hstep : s.step completionTimeoutMs label = some next) : next.1.entries = [] := by
  cases Supervisor.fired_of_step hstep with
  | register task taskId startedAt hfresh => exact absurd rfl (hlabel task taskId startedAt)
  | done taskId outcome => exact settle_entries h taskId _
  | failed taskId message => exact settle_entries h taskId _
  | cancel tag reason =>
    have hnone : s.findActive tag = none := by rw [Supervisor.findActive, h]; rfl
    simp only [Supervisor.cancel, hnone]
    exact h
  | disposeAll reason => simp [Supervisor.disposeAll, Supervisor.beginSettling, h]
  | tornDown position settlement hat hpoint => exact complete_entries h position _
  | callHandler position settlement hat hpoint => exact h
  | handlerEnded position how settlement hat hpoint => simp [Supervisor.remove, h]
  | cancelReturns call hcall => exact h
  | disposalReturns call hcall hall => exact h

end Supervisor

section Drained

variable {cfg : LoopConfig} {s : AgentRun T} {next : AgentRun T × List (RunItem T)}

theorem Drained.exit (h : Drained s) (status : FinishStatus T) : Drained (s.exit status).1 := by
  refine ⟨?_, h.2⟩
  simp [AgentRun.exit, Supervisor.disposeAll, Supervisor.beginSettling, h.1]

theorem Drained.startTurn (h : Drained s) : Drained (s.startTurn cfg).1 := by
  unfold AgentRun.startTurn
  split
  · exact h.exit _
  · exact h

theorem Drained.park (h : Drained s) (since : Nat) : Drained (s.park since) := by
  constructor
  · show (s.tasks.waitForChange since s.handle.aborted s.parks).1.entries = []
    unfold Supervisor.waitForChange
    split <;> exact h.1
  · show (s.inbox.waitForNext s.handle.aborted s.parks).1.entries = []
    unfold Inbox.waitForNext
    split <;> exact h.2

theorem Drained.loopHead (h : Drained s) : Drained (s.loopHead cfg).1 := by
  have hdrain : Drained (s.drain cfg).1 := ⟨h.1, rfl⟩
  have hhead := loopHead_head cfg s
  generalize s.loopHead cfg = next at hhead
  cases hhead with
  | cancelled => exact h.exit _
  | completed => exact hdrain.exit _
  | parked => exact hdrain.park _
  | turn => exact hdrain.startTurn

theorem Drained.commitTurn (h : Drained s) (message : AssistantMessage) (usage : LlmClient.UsageSnapshot) :
    Drained (s.commitTurn cfg message usage).1 := by
  unfold AgentRun.commitTurn
  dsimp only
  split
  · split
    · exact Drained.exit (s := { (s.appendAssistant message).1 with
        turns := s.turns + 1, usage := addUsage s.usage usage }) h
        (.completed (.text (assistantText message.val)))
    · exact h
  · exact h

theorem Drained.commitBatch (h : Drained s) (calls : List ToolUseBlock)
    (executed : List ToolCallResult) (accepted : Option T) (instant : Nat) :
    Drained (s.commitBatch cfg calls executed accepted instant).1 := by
  have happended : ∀ blocks, Drained (s.appendToolResults blocks).1 := fun _ => h
  unfold AgentRun.commitBatch
  dsimp only
  split
  · split <;> exact (happended _).exit _
  · split
    · exact (happended _).exit _
    · exact (happended _).loopHead

/-- The loop fills neither the registry nor the inbox. -/
theorem Drained.block (h : Drained s) (hblock : Block cfg s true next) : Drained next.1 := by
  cases hblock with
  | streamed | completed | dispatched => exact h
  | died error | executorThrew error => exact h.exit _
  | turn => exact h.commitTurn _ _
  | rested => exact h.loopHead
  | batch => exact h.commitBatch _ _ _ _
  | woken => exact Drained.loopHead (s := s.unhook _) h

/-- The label fills the registry or the inbox. -/
def fills : RunLabel T → Bool
  | .publish .. => true
  | .task (.register ..) => true
  | _ => false

/-- **Only `register` and `publish` fill them.** -/
theorem Drained.step {label : RunLabel T} (h : Drained s) (hlabel : fills label = false)
    (hstep : s.step cfg label = some next) : Drained next.1 := by
  cases hinside : label.isInside with
  | true =>
    have hblock := step_block hstep
    rw [hinside] at hblock
    exact h.block hblock
  | false =>
    cases label with
    | steer message =>
      cases hstep
      exact h
    | interrupt =>
      cases hstep
      unfold AgentRun.interrupt
      split <;> exact h
    | publish message key => cases hlabel
    | task label =>
      obtain ⟨ran, hran, rfl⟩ := Option.map_eq_some_iff.mp hstep
      refine ⟨entries_step h.1 ?_ hran, h.2⟩
      rintro task taskId startedAt rfl
      cases hlabel
    | beginFinishing | cancelFinishing =>
      cases hstep
      exact h
    | _ => cases hinside

end Drained

/-! ## The submission -/

def SystemLabel.fills : SystemLabel T → Bool
  | .run label => Runtime.fills label
  | _ => false

/-- **The condition**: nothing is registered and nothing is published while a submission that has
passed the gate waits for its `postToolUse` hooks. -/
def QuietVetting (r : SystemHistory T) (label : SystemLabel T) : Prop :=
  label.fills = true → ∀ stage ∈ r.state.stages, isVetting stage = false

instance (r : SystemHistory T) (label : SystemLabel T) : Decidable (QuietVetting r label) :=
  inferInstanceAs (Decidable (_ → _))

/-- `onSubmit` is called. -/
def SystemItem.isSubmitted : SystemItem T → Bool
  | .submitted .. => true
  | _ => false

/-- Every submission was entered with an empty registry and an empty inbox. -/
def GateParity (history : List (SystemItem T)) : Prop :=
  ∀ index data gate, .submitted index data gate ∈ history →
    gate.tasks = [] ∧ gate.notifications = []

/-- The invariant: while a submission is vetted, nothing is open. -/
structure Gated (s : AgentSystem T) (history : List (SystemItem T)) : Prop where
  vetting : ∀ stage ∈ s.stages, isVetting stage = true → Drained s.run
  parity : GateParity history

section Gated

variable {spec : RunSpec} {s s' : AgentSystem T} {history items : List (SystemItem T)}

/-- A block that enters no submission. -/
theorem Gated.kept (h : Gated s history) (hitems : ∀ item ∈ items, item.isSubmitted = false)
    (hstages : ∀ stage ∈ s'.stages, isVetting stage = true → stage ∈ s.stages)
    (hrun : (∃ stage ∈ s.stages, isVetting stage = true) → Drained s.run → Drained s'.run) :
    Gated s' (history ++ items) where
  vetting := by
    intro stage hstage hvetting
    have hold := hstages stage hstage hvetting
    exact hrun ⟨stage, hold, hvetting⟩ (h.vetting stage hold hvetting)
  parity := by
    intro index data gate hmem
    rcases List.mem_append.mp hmem with hmem | hmem
    · exact h.parity index data gate hmem
    · exact absurd (hitems _ hmem) nofun

/-- An open gate: nothing is registered, and nothing waits in the inbox. -/
theorem drained_of_blockers (h : s.blockers = []) : Drained s.run := by
  unfold AgentSystem.blockers at h
  simp only [List.append_eq_nil_iff, ite_eq_right_iff, List.cons_ne_nil, imp_false, Nat.not_lt,
    Nat.le_zero] at h
  obtain ⟨⟨⟨htasks, hnotes⟩, -⟩, -⟩ := h
  exact ⟨List.eq_nil_of_length_eq_zero htasks, List.eq_nil_of_length_eq_zero hnotes⟩

theorem run_not_submitted {shown : List (RunItem T)} :
    ∀ item ∈ shown.map (SystemItem.run (T := T)), item.isSubmitted = false := by
  intro item hitem
  obtain ⟨_, -, rfl⟩ := List.mem_map.mp hitem
  rfl

theorem mem_set_vetting {index : Nat} {new : CallStage} (hnew : isVetting new = false) :
    ∀ stage ∈ s.stages.set index new, isVetting stage = true → stage ∈ s.stages := by
  intro stage hstage hvetting
  rcases List.mem_or_eq_of_mem_set hstage with hstage | rfl
  · exact hstage
  · exact absurd (hnew.symm.trans hvetting) nofun

/-- **One block.** -/
theorem gated_step {label : SystemLabel T} {next : AgentSystem T × List (SystemItem T)}
    (hok : QuietVetting { state := s, history } label) (h : Gated s history)
    (hstep : Acted spec s label next) : Gated next.1 (history ++ next.2) := by
  cases hstep with
  | @ran label next hfree hstep hboundary hinterrupt =>
    refine h.kept run_not_submitted (fun _ hstage _ => hstage) ?_
    -- `QuietVetting`: nothing fills the gate while a call is vetted
    rintro ⟨stage, hstage, hvetting⟩ hdrained
    refine hdrained.step ?_ hstep
    cases hfills : fills label with
    | false => rfl
    | true => exact absurd ((hok hfills stage hstage).symm.trans hvetting) nofun
  | @opened next hstep =>
    have hdrained : Drained s.run → Drained next.1 := fun h => h.step rfl hstep
    unfold AgentSystem.openBatch
    split
    · refine h.kept run_not_submitted (fun stage hstage hvetting => ?_) fun _ => hdrained
      rw [List.eq_of_mem_replicate hstage] at hvetting
      cases hvetting
    · exact h.kept run_not_submitted (fun _ hstage _ => hstage) fun _ => hdrained
  | interrupted =>
    have hstep : s.run.step spec.loop .interrupt = some s.run.interrupt := rfl
    have hdrained : Drained s.run → Drained s.run.interrupt.1 := fun h => h.step rfl hstep
    unfold AgentSystem.forwardAbort
    split <;> exact h.kept run_not_submitted (fun _ hstage _ => hstage) fun _ => hdrained
  | blocked hbatch hlabel hstep hhistory hitems =>
    refine h.kept ?_ (fun _ hstage _ => hstage) fun _ => id
    intro item hitem
    obtain ⟨_, -, rfl⟩ := List.mem_map.mp hitem
    rfl
  | @dispatched part instant index b b' label hbatch hlabel hstep hhistory =>
    have hrun := (dispatch_run spec { s with batch := some b' } index instant).1
    refine h.kept ?_ (fun stage hstage hvetting => ?_) fun _ hdrained => ?_
    · intro item hitem
      rcases List.mem_cons.mp hitem with rfl | hitem
      · rfl
      · obtain ⟨facts, rfl⟩ := dispatch_items _ _ _ _ item hitem
        rfl
    · rcases mem_dispatch_stages hstage with hold | ⟨data, rfl, -⟩ | ⟨outcome, rfl⟩
      · exact hold
      · cases hvetting
      · cases hvetting
    · dsimp only
      rw [hrun]
      exact hdrained
  | settled index result => exact h.kept nofun (mem_set_vetting rfl) fun _ => id
  | executed index instant data =>
    exact h.kept (by simp [SystemItem.isSubmitted]) (mem_set_vetting rfl) fun _ => id
  -- the gate was empty in this block, which starts the vetting
  | gatePassed index instant data call hstage hcall hterminal hopen =>
    refine ⟨fun _ _ _ => drained_of_blockers hopen, ?_⟩
    intro i data gate hmem
    rcases List.mem_append.mp hmem with hmem | hmem
    · exact h.parity i data gate hmem
    · cases List.mem_singleton.mp hmem
  | returned index instant => exact h.kept nofun (mem_set_vetting rfl) fun _ => id
  | submitted index instant data hstage =>
    -- what was drained when the call passed still is when it is submitted
    have hdrained := h.vetting _ (List.mem_of_getElem? hstage) rfl
    refine ⟨fun _ _ _ => hdrained, ?_⟩
    intro i data gate hmem
    rcases List.mem_append.mp hmem with hmem | hmem
    · exact h.parity i data gate hmem
    · cases List.mem_singleton.mp hmem
      refine ⟨?_, hdrained.2⟩
      show s.run.tasks.list = []
      rw [Supervisor.list, hdrained.1, List.map_nil]
  | accepted index instant startedAt value hstage =>
    exact h.kept (by simp [SystemItem.isSubmitted]) (mem_set_vetting rfl) fun _ => id
  | refused index instant startedAt verdict =>
    exact h.kept nofun (mem_set_vetting rfl) fun _ => id
  | batchReturned hbatch hreturned hstep =>
    exact h.kept run_not_submitted (fun _ hstage _ => hstage) fun _ h => h.step rfl hstep

end Gated

/-- **Gate parity**, for every run in which nothing is registered or published between the gate and
`onSubmit`: `onSubmit` is entered with an empty task registry and an empty inbox. -/
theorem gate_parity {spec : RunSpec} {messages : List UserMessage}
    {labels : List (SystemLabel T)} {r : SystemHistory T}
    (run : Run (Recorded.step (AgentSystem.step spec)) QuietVetting
      (AgentSystem.start spec messages) labels r)
    {index : Nat} {data : Json} {gate : GateState}
    (hsubmitted : .submitted index data gate ∈ r.history) :
    gate.tasks = [] ∧ gate.notifications = [] := by
  have h : Gated r.state r.history := by
    refine run.invariant (I := fun r => Gated r.state r.history) ⟨nofun, ?_⟩ ?_
    · intro i data gate hmem
      obtain ⟨_, -, hitem⟩ := List.mem_map.mp hmem
      cases hitem
    · intro r label r' hok hr hstep
      obtain ⟨state, items, hstate, rfl⟩ := Recorded.step_cases hstep
      exact gated_step hok hr (acted_of_step hstate)
  exact h.parity index data gate hsubmitted

/-- A schedule of the sample run that enters a submission at a gate like this. -/
theorem exists_submitted (ok : SystemHistory Unit → SystemLabel Unit → Prop)
    [∀ r label, Decidable (ok r label)] (labels : List (SystemLabel Unit)) (p : GateState → Bool)
    (h : (exec (Recorded.step (AgentSystem.step sampleSpec)) ok
      (AgentSystem.start sampleSpec [⟨userText "go", rfl⟩]) labels).any (fun r =>
        r.history.any fun item =>
          match item with
          | .submitted _ _ gate => p gate
          | _ => false) = true) :
    ∃ (r : SystemHistory Unit) (index : Nat) (data : Json) (gate : GateState),
      Run (Recorded.step (AgentSystem.step sampleSpec)) ok
        (AgentSystem.start sampleSpec [⟨userText "go", rfl⟩]) labels r ∧
      .submitted index data gate ∈ r.history ∧ p gate = true := by
  obtain ⟨r, run, hr⟩ := exists_run _ ok _ labels _ h
  obtain ⟨item, hitem, htest⟩ := List.any_eq_true.mp hr
  cases item with
  | submitted index data gate => exact ⟨r, index, data, gate, run, hitem, htest⟩
  | _ => cases htest

/-- A task that is over before the gate is read. -/
theorem gate_parity_after_task :
    ∃ (r : SystemHistory Unit) (index : Nat) (data : Json) (gate : GateState),
      .submitted index data gate ∈ r.history ∧ gate.tasks = [] ∧ gate.notifications = [] := by
  obtain ⟨r, index, data, gate, run, hsubmitted, -⟩ := exists_submitted QuietVetting
    (sampleTurn [("a", "submit")] ++
      [.block .proceed 1, .run (.task (.register ⟨⟨"shell", "a"⟩, "build", true⟩ "t1" 1)),
        .run (.task (.done "t1" (.ok ⟨.success, "built"⟩))), .preHookReturns 0 .passthrough 2,
        .postHookReturns 0 .passthrough 3])
    (fun _ => true) (by decide +kernel)
  exact ⟨r, index, data, gate, hsubmitted, gate_parity run hsubmitted⟩

/-- A task that is registered, or a notification that is published, while the submission waits for
its `postToolUse` hooks: `onSubmit` is entered all the same. -/
theorem submitted_past_gate :
    (∃ (r : SystemHistory Unit) (index : Nat) (data : Json) (gate : GateState),
      Run (Recorded.step (AgentSystem.step sampleSpec)) Free
        (AgentSystem.start sampleSpec [⟨userText "go", rfl⟩])
        (sampleTurn [("a", "submit")] ++
          [.block .proceed 1, .preHookReturns 0 .passthrough 2,
            .run (.task (.register ⟨⟨"shell", "a"⟩, "build", true⟩ "t1" 3)),
            .postHookReturns 0 .passthrough 4]) r ∧
      .submitted index data gate ∈ r.history ∧ gate.tasks ≠ []) ∧
    ∃ (r : SystemHistory Unit) (index : Nat) (data : Json) (gate : GateState),
      Run (Recorded.step (AgentSystem.step sampleSpec)) Free
        (AgentSystem.start sampleSpec [⟨userText "go", rfl⟩])
        (sampleTurn [("a", "submit")] ++
          [.block .proceed 1, .preHookReturns 0 .passthrough 2, .run (.publish "done" none),
            .postHookReturns 0 .passthrough 4]) r ∧
      .submitted index data gate ∈ r.history ∧ gate.notifications ≠ [] := by
  constructor
  · obtain ⟨r, index, data, gate, run, hsubmitted, htasks⟩ := exists_submitted Free
      (sampleTurn [("a", "submit")] ++
        [.block .proceed 1, .preHookReturns 0 .passthrough 2,
          .run (.task (.register ⟨⟨"shell", "a"⟩, "build", true⟩ "t1" 3)),
          .postHookReturns 0 .passthrough 4])
      (fun gate => !gate.tasks.isEmpty) (by decide +kernel)
    refine ⟨r, index, data, gate, run, hsubmitted, fun hempty => ?_⟩
    rw [hempty] at htasks
    cases htasks
  · obtain ⟨r, index, data, gate, run, hsubmitted, hnotes⟩ := exists_submitted Free
      (sampleTurn [("a", "submit")] ++
        [.block .proceed 1, .preHookReturns 0 .passthrough 2, .run (.publish "done" none),
          .postHookReturns 0 .passthrough 4])
      (fun gate => !gate.notifications.isEmpty) (by decide +kernel)
    refine ⟨r, index, data, gate, run, hsubmitted, fun hempty => ?_⟩
    rw [hempty] at hnotes
    cases hnotes

end EphemeralAgent.Runtime
