import EphemeralAgent.Agents.EngineStep
import EphemeralAgent.Lib.Update

/-!
# Submissions of advisory runs

A run with an advisory binding reaches `onSubmit` only with a submission that an advisor of the same
run has passed.

* `Vetted` — a terminal call that the hooks let pass has a pass in the registry
* `Backed` — every pass of the registry comes from an advisor that has passed a submission
* `advisor_gate` — **every submission was approved before, up to the order of object keys**
-/

namespace EphemeralAgent.Agents

open Lib Json Engine Tool EphemeralAgent.Runtime

variable {T : Type}

/-! ## One run -/

/-- The registry has a pass of this run for the call. -/
def Cleared (n : NumberText) (passes : AdvisorPassRegistry) (agentRunId : AgentRunId)
    (call : ToolUseBlock) : Prop :=
  passes.hasPass n agentRunId { toolName := call.name, payload := call.input } = true

/-- A terminal call is cleared once its hooks let it pass. -/
structure Vetted (n : NumberText) (passes : AdvisorPassRegistry) (run : EngineRun T) : Prop where
  asked : ∀ index data call, run.system.stages[index]? = some (.preHook data) →
    run.system.call index = some call → run.spec.isTerminal call = true →
    (∀ decision ∈ run.decisions index, decision = .passthrough) →
    Cleared n passes run.agentRunId call
  vetting : ∀ index data call, run.system.stages[index]? = some (.vetting data) →
    run.system.call index = some call → Cleared n passes run.agentRunId call

/-- All passes of one registry are in the other. -/
def Within (passes passes' : AdvisorPassRegistry) : Prop :=
  ∀ id, passes.passes id ⊆ passes'.passes id

theorem Cleared.mono {n : NumberText} {passes passes' : AdvisorPassRegistry} {id : AgentRunId}
    {call : ToolUseBlock} (h : Cleared n passes id call) (hpasses : Within passes passes') :
    Cleared n passes' id call := by
  unfold Cleared AdvisorPassRegistry.hasPass at h ⊢
  rw [List.contains_iff_mem] at h ⊢
  exact hpasses id h

theorem Vetted.mono {n : NumberText} {passes passes' : AdvisorPassRegistry} {run : EngineRun T}
    (h : Vetted n passes run) (hpasses : Within passes passes') : Vetted n passes' run where
  asked := fun index data call hstage hcall hterminal hdecisions =>
    (h.asked index data call hstage hcall hterminal hdecisions).mono hpasses
  vetting := fun index data call hstage hcall => (h.vetting index data call hstage hcall).mono hpasses

section Terminal

variable {spec : RunSpec} {s : AgentSystem T}

/-- Only a terminal call gets past the gate. -/
theorem terminal_of_vetting (hwired : Wired spec s) {index : Nat} {data : Json}
    (hstage : s.stages[index]? = some (.vetting data)) :
    ∃ call, s.call index = some call ∧ spec.isTerminal call = true := by
  obtain ⟨b, position, hbatch, -, hindex⟩ := hwired.current index ⟨_, hstage, rfl⟩
  have hmem := List.mem_of_getElem? hindex
  have hlt : index < b.batch.calls.length := (mem_terminalCalls.mp hmem).1
  have hcall : s.call index = some b.batch.calls[index] := by
    unfold AgentSystem.call
    rw [hbatch, Option.bind_some, List.getElem?_eq_getElem hlt]
  exact ⟨_, hcall, (mem_terminal hbatch (hwired.sound b hbatch).terminalName_eq hcall).mp hmem⟩

/-- `onSubmit` is called for a call that waited in its `postToolUse` hooks. -/
theorem vetting_of_submitted {label : SystemLabel T} {next : AgentSystem T × List (SystemItem T)}
    {index : Nat} {data : Json} {gate : GateState} (h : Acted spec s label next)
    (hmem : .submitted index data gate ∈ next.2) : s.stages[index]? = some (.vetting data) := by
  have hrun : ∀ {shown : List (RunItem T)},
      SystemItem.submitted index data gate ∉ shown.map SystemItem.run := by
    intro shown hmem
    obtain ⟨item, -, heq⟩ := List.mem_map.mp hmem
    cases heq
  cases h with
  | ran hfree hstep => exact absurd hmem hrun
  | opened hstep => exact absurd hmem hrun
  | interrupted => exact absurd hmem hrun
  | blocked =>
    obtain ⟨item, -, heq⟩ := List.mem_map.mp hmem
    cases heq
  | dispatched =>
    rcases List.mem_cons.mp hmem with heq | hmem
    · cases heq
    · obtain ⟨facts, heq⟩ := dispatch_items _ _ _ _ _ hmem
      cases heq
  | submitted i instant data hstage =>
    cases List.mem_singleton.mp hmem
    exact hstage
  | executed | gatePassed | accepted => cases List.mem_singleton.mp hmem
  | settled | returned | refused => cases hmem
  | batchReturned hbatch hreturned hstep => exact absurd hmem hrun

end Terminal

section Step

variable {n : NumberText} {passes : AdvisorPassRegistry} {run : EngineRun T}

/-- **The hook of an advisory run lets no terminal call pass without a pass.** -/
theorem cleared_of_hooks {facts : ToolCallFacts} {call : ToolUseBlock}
    (hadvisory : run.advisory = true) (hterminal : run.spec.isTerminal call = true)
    (hname : facts.toolName = call.name) (hinput : facts.input = call.input)
    (h : ∀ decision ∈ (HookEngine.ofEntries (run.hooks n passes)).preToolUse facts,
      decision = .passthrough) :
    Cleared n passes run.agentRunId call := by
  have hspec : run.spec.terminal = some call.name := beq_iff_eq.mp hterminal
  have hentry : requireAdvisoryPass n run.agentRunId call.name passes ∈ run.hooks n passes := by
    simp [EngineRun.hooks, hspec, hadvisory]
  have hmatches : HookMatcher.matches (some ⟨some call.name⟩) facts.toolName = true :=
    beq_iff_eq.mpr hname.symm
  have hpass := h _ (HookEngine.mem_preToolUse hentry hmatches)
  dsimp only [guarded] at hpass
  split at hpass
  · next hhas =>
    rw [hname, hinput] at hhas
    exact hhas
  · cases hpass

theorem vetted_moved (h : Tended run) (hadvisory : run.advisory = true)
    (hvetted : Vetted n passes run) {label : SystemLabel T}
    {next : AgentSystem T × List (SystemItem T)} (hstep : run.system.step run.spec label = some next)
    (hlabel : ∀ index instant, label = .preHookReturns index .passthrough instant →
      ∀ decision ∈ run.decisions index, decision = .passthrough) :
    Vetted n passes (run.moved n passes next) := by
  have hsame := moved_same n passes run next
  have hacted := acted_of_step hstep
  refine ⟨?_, ?_⟩
  · rw [hsame.system, hsame.spec, hsame.agentRunId]
    intro index data call hstage hcall hterminal hdecisions
    cases waits_of_acted h.wired hacted hstage rfl hcall with
    | before _ hbefore hcallBefore hquiet =>
      rw [EngineRun.moved, foldl_decisions hquiet] at hdecisions
      exact hvetted.asked index data call hbefore hcallBefore hterminal hdecisions
    | asked _ facts hitems hname hinput =>
      obtain ⟨system, items⟩ := next
      obtain rfl : items = [.batch (.started index), .preToolUse index facts] := hitems
      rw [moved_of_asked] at hdecisions
      exact cleared_of_hooks hadvisory hterminal hname hinput hdecisions
  · rw [hsame.system, hsame.agentRunId]
    intro index data call hstage hcall
    cases waits_of_acted h.wired hacted hstage rfl hcall with
    | before _ hbefore hcallBefore hquiet =>
      exact hvetted.vetting index data call hbefore hcallBefore
    | passed _ instant heq hbefore hcallBefore =>
      obtain ⟨found, hfound, hterminal⟩ :=
        terminal_of_vetting (wired_step h.wired hacted) hstage
      obtain rfl := Option.some.inj (hcall.symm.trans hfound)
      exact hvetted.asked index data call hbefore hcallBefore hterminal (hlabel index instant heq)

theorem vetted_finish (hvetted : Vetted n passes run) (k : Nat) (call : ChildCall)
    (result : Except String ToolResult) (instant : Nat) :
    Vetted n passes (run.finish k call result instant) := by
  obtain ⟨stages, heq, hstages⟩ := answer_system
    { run with calls := run.calls.set k { call with stage := .returned } } call.index result instant
  unfold EngineRun.finish
  rw [heq]
  refine ⟨?_, ?_⟩
  · intro index data call hstage hcall hterminal hdecisions
    exact hvetted.asked index data call (hstages hstage rfl) hcall hterminal hdecisions
  · intro index data call hstage hcall
    exact hvetted.vetting index data call (hstages hstage rfl) hcall

theorem within_recordPass (id : AgentRunId) (submission : AdvisorSubmission) :
    Within passes (passes.recordPass n id submission) :=
  fun _ _ hkey => AdvisorPassRegistry.mem_recordPass.mpr (Or.inl hkey)

theorem within_step {event : RunEvent T} {run' : EngineRun T} {passes' : AdvisorPassRegistry}
    {items : List EngineItem} (hmoved : RunMoved n passes run event run' passes' items) :
    Within passes passes' := by
  cases hmoved with
  | passed => exact within_recordPass _ _
  | _ => exact fun _ _ hkey => hkey

theorem vetted_step {event : RunEvent T} {run' : EngineRun T} {passes' : AdvisorPassRegistry}
    {items : List EngineItem} (h : Tended run) (hadvisory : run.advisory = true)
    (hvetted : Vetted n passes run) (hmoved : RunMoved n passes run event run' passes' items) :
    Vetted n passes' run' := by
  cases hmoved with
  | system _ label next hstep hlabel => exact vetted_moved h hadvisory hvetted hstep hlabel
  | ran => exact ⟨hvetted.asked, hvetted.vetting⟩
  | started => exact ⟨hvetted.asked, hvetted.vetting⟩
  | finished _ k call result instant => exact vetted_finish hvetted k call result instant
  | passed _ k call result instant submission =>
    exact (vetted_finish hvetted k call result instant).mono (within_recordPass _ submission)

/-- The parts of a run that the gate reads never change. -/
theorem same_step {event : RunEvent T} {run' : EngineRun T} {passes' : AdvisorPassRegistry}
    {items : List EngineItem} (hmoved : RunMoved n passes run event run' passes' items) :
    run'.agentRunId = run.agentRunId ∧ run'.spec = run.spec ∧ run'.advisory = run.advisory := by
  have hfinish : ∀ (k : Nat) (call : ChildCall) (result : Except String ToolResult) (instant : Nat),
      (run.finish k call result instant).agentRunId = run.agentRunId ∧
        (run.finish k call result instant).spec = run.spec ∧
        (run.finish k call result instant).advisory = run.advisory := by
    intro k call result instant
    obtain ⟨stages, heq, -⟩ := answer_system
      { run with calls := run.calls.set k { call with stage := .returned } } call.index result instant
    unfold EngineRun.finish
    rw [heq]
    exact ⟨rfl, rfl, rfl⟩
  cases hmoved with
  | system _ label next hstep =>
    have hsame := moved_same n passes run next
    exact ⟨hsame.agentRunId, hsame.spec, hsame.advisory⟩
  | ran => exact ⟨rfl, rfl, rfl⟩
  | started => exact ⟨rfl, rfl, rfl⟩
  | finished => exact hfinish _ _ _ _
  | passed => exact hfinish _ _ _ _

end Step

/-! ## The history -/

/-- The registry holds only what an advisor has passed. -/
def Backed (n : NumberText) (passes : AdvisorPassRegistry) (history : List EngineItem) : Prop :=
  ∀ id, ∀ key ∈ passes.passes id, ∃ submission outcome,
    .advised id submission outcome ∈ history ∧ outcome.passes = true ∧
      key = canonicalJson n submission.toJson

/-- A submission of the run is one that an advisor of the run has passed before, up to the order of
the keys of its objects. -/
def Approved (run : EngineRun T) (before : List EngineItem) (item : EngineItem) : Prop :=
  ∀ call, item = .submitted run.agentRunId call →
    ∃ terminal submission outcome, call = some terminal ∧
      run.spec.terminal = some terminal.name ∧
      .advised run.agentRunId submission outcome ∈ before ∧ outcome.passes = true ∧
      submission.toolName = terminal.name ∧
      SameValue (.obj submission.payload) (.obj terminal.input)

theorem Approved.mono {run : EngineRun T} {before before' : List EngineItem} {item : EngineItem}
    (h : Approved run before item) (hsub : before ⊆ before') : Approved run before' item := by
  intro call heq
  obtain ⟨terminal, submission, outcome, hcall, hspec, hmem, hrest⟩ := h call heq
  exact ⟨terminal, submission, outcome, hcall, hspec, hsub hmem, hrest⟩

section History

variable {n : NumberText} {passes passes' : AdvisorPassRegistry} {run run' : EngineRun T}
  {event : RunEvent T} {items history : List EngineItem}

theorem Backed.step (h : Backed n passes history)
    (hmoved : RunMoved n passes run event run' passes' items) :
    Backed n passes' (history ++ items) := by
  have hkept : Backed n passes (history ++ items) := by
    intro id key hkey
    obtain ⟨submission, outcome, hmem, hrest⟩ := h id key hkey
    exact ⟨submission, outcome, List.mem_append_left _ hmem, hrest⟩
  cases hmoved with
  | passed _ k call result instant submission outcome hcall hpasses =>
    intro id key hkey
    rcases AdvisorPassRegistry.mem_recordPass.mp hkey with hkey | ⟨rfl, rfl⟩
    · exact hkept id key hkey
    · exact ⟨submission, outcome, List.mem_append_right _ List.mem_cons_self, hpasses, rfl⟩
  | _ => exact hkept

/-- **What an advisory run submits in a block has been approved before the block.** -/
theorem approved_of_mem (h : Tended run) (hvetted : Vetted n passes run) (hbacked : Backed n passes history)
    (hmoved : RunMoved n passes run event run' passes' items) {item : EngineItem}
    (hitem : item ∈ items) : Approved run history item := by
  rintro call rfl
  cases hmoved with
  | system _ label next hstep =>
    obtain ⟨shown, hshown, heq⟩ := List.mem_filterMap.mp hitem
    unfold EngineRun.shown at heq
    split at heq
    · next index data gate =>
      cases heq
      have hstage := vetting_of_submitted (acted_of_step hstep) hshown
      obtain ⟨terminal, hcall, hterminal⟩ := terminal_of_vetting h.wired hstage
      have hcleared := hvetted.vetting index data terminal hstage hcall
      unfold Cleared AdvisorPassRegistry.hasPass at hcleared
      rw [List.contains_iff_mem] at hcleared
      obtain ⟨submission, outcome, hmem, hpasses, hkey⟩ := hbacked _ _ hcleared
      obtain ⟨hname, hpayload⟩ := same_submission hkey.symm
      exact ⟨terminal, submission, outcome, hcall, beq_iff_eq.mp hterminal, hmem, hpasses, hname,
        hpayload⟩
    · cases heq
  | ran | started => cases hitem
  | finished _ k found result instant _ hcall hitems =>
    obtain ⟨submission, outcome, heq⟩ := hitems _ hitem
    cases heq
  | passed => cases List.mem_singleton.mp hitem

/-- What a block shows belongs to the run that it moves. -/
theorem owner_of_mem (hmoved : RunMoved n passes run event run' passes' items) {id : AgentRunId}
    {call : Option ToolUseBlock} (hmem : .submitted id call ∈ items) : id = run.agentRunId := by
  cases hmoved with
  | system _ label next hstep =>
    obtain ⟨shown, -, heq⟩ := List.mem_filterMap.mp hmem
    unfold EngineRun.shown at heq
    split at heq
    · cases heq
      rfl
    · cases heq
  | ran | started => cases hmem
  | finished _ k found result instant _ hcall hitems =>
    obtain ⟨submission, outcome, heq⟩ := hitems _ hmem
    cases heq
  | passed => cases List.mem_singleton.mp hmem

end History

/-! ## All runs -/

/-- The invariant of the gate. -/
structure Gated (n : NumberText) (r : Recorded (AgentEngine T) EngineItem) : Prop where
  ids : (r.state.runs.map (·.agentRunId)).Nodup
  known : ∀ id call, .submitted id call ∈ r.history → id ∈ r.state.runs.map (·.agentRunId)
  backed : Backed n r.state.passes r.history
  vetted : ∀ run ∈ r.state.runs, run.advisory = true → Vetted n r.state.passes run
  approved : ∀ run ∈ r.state.runs, run.advisory = true → Chronicle (Approved run) r.history

theorem gated_initial (n : NumberText) : Gated (T := T) n ⟨.initial, []⟩ where
  ids := List.nodup_nil
  known := fun _ _ hmem => absurd hmem List.not_mem_nil
  backed := fun _ _ hmem => absurd hmem List.not_mem_nil
  vetted := fun _ hmem => absurd hmem List.not_mem_nil
  approved := fun _ hmem => absurd hmem List.not_mem_nil

section Runs

variable {n : NumberText} {r : Recorded (AgentEngine T) EngineItem}

theorem Gated.start (h : Gated n r) (agentRunId : AgentRunId) (spec : RunSpec) (advisory : Bool)
    (messages : List UserMessage) (hfresh : ∀ run ∈ r.state.runs, run.agentRunId ≠ agentRunId) :
    Gated n
      { state := { r.state with runs := r.state.runs ++ [.start agentRunId spec advisory messages] }
        history := r.history } := by
  have hnew : agentRunId ∉ r.state.runs.map (·.agentRunId) := by
    intro hmem
    obtain ⟨run, hrun, heq⟩ := List.mem_map.mp hmem
    exact hfresh run hrun heq
  refine ⟨?_, ?_, h.backed, ?_, ?_⟩
  · rw [List.map_append, List.map_singleton]
    exact List.nodup_append.mpr ⟨h.ids, List.nodup_singleton _, fun a ha b hb => by
      rw [List.mem_singleton.mp hb]
      exact fun heq => hnew ((show a = agentRunId from heq) ▸ ha)⟩
  · intro id call hmem
    rw [List.map_append]
    exact List.mem_append_left _ (h.known id call hmem)
  · intro run hmem hadvisory
    rcases List.mem_append.mp hmem with hmem | hmem
    · exact h.vetted run hmem hadvisory
    · -- a run that has just started has no batch
      rw [List.mem_singleton.mp hmem]
      exact ⟨nofun, nofun⟩
  · intro run hmem hadvisory
    rcases List.mem_append.mp hmem with hmem | hmem
    · exact h.approved run hmem hadvisory
    · rintro before item after heq call rfl
      rw [List.mem_singleton.mp hmem] at heq
      refine absurd (h.known agentRunId call ?_) hnew
      show _ ∈ r.history
      rw [show r.history = _ from heq]
      exact List.mem_append_right _ List.mem_cons_self

theorem Gated.run (h : Gated n r) (htended : ∀ run ∈ r.state.runs, Tended run) {position : Nat}
    {event : RunEvent T} {run run' : EngineRun T} {passes' : AdvisorPassRegistry}
    {items : List EngineItem} (hposition : r.state.runs[position]? = some run)
    (hmoved : RunMoved n r.state.passes run event run' passes' items) :
    Gated n { state := { runs := r.state.runs.set position run', passes := passes' }
              history := r.history ++ items } := by
  have hrun := List.mem_of_getElem? hposition
  obtain ⟨hid, hspec, hadvisory⟩ := same_step hmoved
  have hids : (r.state.runs.set position run').map (·.agentRunId) =
      r.state.runs.map (·.agentRunId) := map_set_of_key hposition hid
  refine ⟨?_, ?_, h.backed.step hmoved, ?_, ?_⟩
  · rw [hids]
    exact h.ids
  · intro id call hmem
    rw [hids]
    rcases List.mem_append.mp hmem with hmem | hmem
    · exact h.known id call hmem
    · rw [owner_of_mem hmoved hmem]
      exact List.mem_map_of_mem hrun
  · intro other hother hadvisory'
    rcases (mem_set_iff h.ids hposition).mp hother with rfl | ⟨hother, -⟩
    · rw [hadvisory] at hadvisory'
      exact vetted_step (htended run hrun) hadvisory' (h.vetted run hrun hadvisory') hmoved
    · exact (h.vetted other hother hadvisory').mono (within_step hmoved)
  · intro other hother hadvisory'
    rcases (mem_set_iff h.ids hposition).mp hother with rfl | ⟨hother, hne⟩
    · rw [hadvisory] at hadvisory'
      have hsame : Approved other = Approved run := by
        unfold Approved
        rw [hid, hspec]
      rw [hsame]
      refine (h.approved run hrun hadvisory').append fun before item after heq => ?_
      have hitem : item ∈ items := by
        rw [heq]
        exact List.mem_append_right _ List.mem_cons_self
      exact (approved_of_mem (htended run hrun) (h.vetted run hrun hadvisory') h.backed
        hmoved hitem).mono (List.subset_append_left _ _)
    · -- the block belongs to another run
      refine (h.approved other hother hadvisory').append fun before item after heq call hitem => ?_
      have hmem : .submitted other.agentRunId call ∈ items := by
        rw [heq, hitem]
        exact List.mem_append_right _ List.mem_cons_self
      exact absurd (owner_of_mem hmoved hmem) hne

/-- **Every submission of an advisory run was passed by an advisor of that run before**, for the
terminal tool and with the same payload up to the order of object keys. -/
theorem advisor_gate {labels : List (EngineLabel T)}
    (run : Run (Recorded.step (AgentEngine.step n)) Free ⟨.initial, []⟩ labels r)
    {engineRun : EngineRun T} (hrun : engineRun ∈ r.state.runs)
    (hadvisory : engineRun.advisory = true) : Chronicle (Approved engineRun) r.history := by
  have h : Gated n r := by
    refine run.invariant_of (J := fun r => ∀ engineRun ∈ r.state.runs, Tended engineRun)
      tended_of_run (gated_initial n) ?_
    intro r label r' _ htended hr hstep
    obtain ⟨state, items, hstate, rfl⟩ := Recorded.step_cases hstep
    rcases engine_step_cases hstate with
      ⟨agentRunId, spec, advisory, messages, rfl, hfresh, rfl, rfl⟩ |
      ⟨position, event, moving, moved, passes', rfl, hposition, hmoved, rfl⟩
    · rw [List.append_nil]
      exact hr.start agentRunId spec advisory messages hfresh
    · exact hr.run htended hposition hmoved
  exact h.approved engineRun hrun hadvisory

end Runs

/-- A run that must ask an advisor before it submits. -/
def advisedSpec : RunSpec :=
  { sampleSpec with tools := ["ask_advisor"] }

/-- The advisor is asked and the call is made in one batch, with the keys in another order. -/
def advisedRun : List (EngineLabel Unit) :=
  let content : List ContentBlock :=
    [.toolUse "a" "ask_advisor" [("tool_name", .str "submit"),
        ("payload", .obj [("title", .str "done"), ("files", .num 2)])],
      .toolUse "b" "submit" [("files", .num 2), ("title", .str "done")]]
  [.start "caller" advisedSpec true [⟨userText "go", rfl⟩],
    .run 0 (.system (.run (.complete ⟨{ role := .assistant, content }, rfl⟩
      ⟨1, 1, none, none⟩ none))),
    .run 0 (.system (.run .turnReturns)), .run 0 (.system (.run .boundaryReturns)),
    .run 0 (.system (.block .spawn 1)), .run 0 (.hooksReturn 0 [] 2), .run 0 (.childRuns 0),
    .run 0 (.startReturns 0 (.ok ()) 3),
    .run 0 (.advisorReturns 0 (.completed ⟨.pass, "complete"⟩) 4),
    .run 0 (.system (.postHookReturns 0 .passthrough 5)),
    .run 0 (.system (.block (.resolve 0) 6)), .run 0 (.system (.block (.resume 0) 6)),
    .run 0 (.system (.block .proceed 6)), .run 0 (.hooksReturn 1 [] 7),
    .run 0 (.system (.postHookReturns 1 .passthrough 8))]

/-- The history shows a submission of this run. -/
def submittedBy (agentRunId : AgentRunId) (history : List EngineItem) : Bool :=
  history.any fun item =>
    match item with
    | .submitted id _ => id == agentRunId
    | .advised .. => false

theorem advisor_gate_asked :
    ∃ (r : Recorded (AgentEngine Unit) EngineItem) (engineRun : EngineRun Unit),
      engineRun ∈ r.state.runs ∧ engineRun.advisory = true ∧
        submittedBy engineRun.agentRunId r.history = true ∧
        Chronicle (Approved engineRun) r.history := by
  obtain ⟨r, run, hr⟩ := exists_run (Recorded.step (AgentEngine.step quotients)) Free
    ⟨.initial, []⟩ advisedRun
    (fun r => r.state.runs.any fun run => run.advisory && submittedBy run.agentRunId r.history)
    (by decide +kernel)
  obtain ⟨engineRun, hrun, htest⟩ := List.any_eq_true.mp hr
  rw [Bool.and_eq_true] at htest
  exact ⟨r, engineRun, hrun, htest.1, htest.2, advisor_gate run hrun htest.1⟩

end EphemeralAgent.Agents
