import EphemeralAgent.Agents.Engine
import EphemeralAgent.Runtime.Interruption

/-!
# The blocks of a run of the factory

What one block of an assembled run is to the hooks and the child calls of the engine.

* `call_of_acted`, `waits_of_acted` — the calls of a batch, and the hooks that they wait in
* `signal_of_acted` — only an interrupt aborts the signal, and the listeners are called then
* `RunMoved`, `engine_step_cases` — the ways a block of a run, or of the factory, can go
* `Tended`, `tended_of_run` — what holds of every run of a factory
-/

namespace EphemeralAgent.Agents

open Lib Json Engine Tool EphemeralAgent.Runtime

variable {T : Type}

/-! ## The assembled run -/

section System

variable {spec : RunSpec} {s : AgentSystem T}

/-- A dispatch leaves the calls of the batch alone. -/
theorem call_dispatch (spec : RunSpec) (s : AgentSystem T) (index instant k : Nat) :
    (s.dispatch spec index instant).1.call k = s.call k := by
  rcases dispatch_eq spec s index instant with heq | ⟨stage, heq, -⟩
  · rw [heq]
  · rw [heq]
    rfl

/-- Only a new batch has other calls. -/
theorem call_of_acted {label : SystemLabel T} {next : AgentSystem T × List (SystemItem T)}
    (hwired : Wired spec s) (h : Acted spec s label next) (hlabel : label ≠ .run .boundaryReturns)
    (index : Nat) : next.1.call index = s.call index := by
  cases h with
  | opened hstep => exact absurd rfl hlabel
  | interrupted => exact call_forwardAbort spec _ index
  | blocked hbatch hbatchLabel hstep =>
    exact call_of_calls hbatch rfl
      (sound_step (hwired.sound _ hbatch) (stepped_of_step hstep)).calls_eq index
  | dispatched hbatch hbatchLabel hstep =>
    rw [call_dispatch]
    exact call_of_calls hbatch rfl
      (sound_step (hwired.sound _ hbatch) (stepped_of_step hstep)).calls_eq index
  | _ => rfl

/-- How a call comes to wait in a hook before its side effect. -/
inductive Waits (s : AgentSystem T) (label : SystemLabel T) (items : List (SystemItem T))
    (index : Nat) (call : ToolUseBlock) : CallStage → Prop
  | before (stage : CallStage) (hstage : s.stages[index]? = some stage)
      (hcall : s.call index = some call) (hquiet : ∀ facts, .preToolUse index facts ∉ items) :
      Waits s label items index call stage
  /-- Its `preToolUse` hooks have been asked. -/
  | asked (data : Json) (facts : ToolCallFacts)
      (hitems : items = [.batch (.started index), .preToolUse index facts])
      (hname : facts.toolName = call.name) (hinput : facts.input = call.input) :
      Waits s label items index call (.preHook data)
  /-- They have let it pass. -/
  | passed (data : Json) (instant : Nat)
      (hlabel : label = .preHookReturns index .passthrough instant)
      (hstage : s.stages[index]? = some (.preHook data)) (hcall : s.call index = some call) :
      Waits s label items index call (.vetting data)

/-- A stage that is set past every hook is not one that waits. -/
theorem stage_of_set {stages : List CallStage} {i index : Nat} {new stage : CallStage}
    (h : (stages.set i new)[index]? = some stage) (hwaits : stage.beforeEffect = true)
    (hnew : new.beforeEffect = false) : stages[index]? = some stage := by
  rw [List.getElem?_set] at h
  split at h
  · split at h
    · cases h
      rw [hwaits] at hnew
      cases hnew
    · cases h
  · exact h

theorem enter_cases (parse : ToolUseBlock → ParseOutcome) (terminal aborted : Bool)
    (call : ToolUseBlock) (instant : Nat) :
    (∃ data, enter parse terminal aborted call instant = .preHook data) ∨
      ∃ outcome, enter parse terminal aborted call instant = .settled outcome := by
  unfold enter
  split
  · exact Or.inr ⟨_, rfl⟩
  · split
    · exact Or.inl ⟨_, rfl⟩
    · exact Or.inr ⟨_, rfl⟩
    · exact Or.inr ⟨_, rfl⟩

theorem waits_of_dispatch {label : SystemLabel T} {b : BatchRun} {i instant index : Nat}
    {call : ToolUseBlock} {stage : CallStage} (hkept : ∀ k, { s with batch := some b }.call k = s.call k)
    (hstage : ({ s with batch := some b }.dispatch spec i instant).1.stages[index]? = some stage)
    (hwaits : stage.beforeEffect = true) (hcall : s.call index = some call) :
    Waits s label
      (.batch (.started i) :: ({ s with batch := some b }.dispatch spec i instant).2) index call
      stage := by
  unfold AgentSystem.dispatch at hstage ⊢
  cases hi : { s with batch := some b }.call i with
  | none =>
    rw [hi] at hstage
    exact .before stage hstage hcall (by simp)
  | some found =>
    rw [hi] at hstage
    dsimp only at hstage ⊢
    split at hstage
    · next hbound =>
      rw [if_pos hbound]
      by_cases hindex : i = index
      · subst hindex
        have hfound : found = call := by
          rw [hkept i, hcall] at hi
          exact (Option.some.inj hi).symm
        rcases enter_cases spec.parse (spec.isTerminal found) s.run.handle.aborted found instant with
          ⟨data, henter⟩ | ⟨outcome, henter⟩
        · rw [henter] at hstage ⊢
          rw [List.getElem?_set_self'] at hstage
          obtain ⟨old, -, rfl⟩ := Option.map_eq_some_iff.mp hstage
          exact .asked data _ rfl (by rw [hfound]) (by rw [hfound])
        · rw [henter] at hstage ⊢
          exact .before stage (stage_of_set hstage hwaits rfl) hcall (by simp)
      · rw [List.getElem?_set_ne hindex] at hstage
        refine .before stage hstage hcall fun facts hmem => ?_
        rcases List.mem_cons.mp hmem with heq | hmem
        · cases heq
        · split at hmem
          · cases List.mem_singleton.mp hmem
            exact hindex rfl
          · cases hmem
    · next hbound =>
      rw [if_neg hbound]
      exact .before stage (stage_of_set hstage hwaits rfl) hcall (by simp)

/-- **Every call that waits in a hook before its side effect has come there in one of these ways.** -/
theorem waits_of_acted {label : SystemLabel T} {next : AgentSystem T × List (SystemItem T)}
    {index : Nat} {call : ToolUseBlock} {stage : CallStage} (hwired : Wired spec s)
    (h : Acted spec s label next) (hstage : next.1.stages[index]? = some stage)
    (hwaits : stage.beforeEffect = true) (hcall : next.1.call index = some call) :
    Waits s label next.2 index call stage := by
  have hkept := call_of_acted hwired h
  cases h with
  | ran hfree hstep hboundary hinterrupt => exact .before stage hstage hcall (by simp)
  | @opened ran hstep =>
    unfold AgentSystem.openBatch at hstage hcall
    split at hstage
    · rw [List.eq_of_mem_replicate (List.mem_of_getElem? hstage)] at hwaits
      cases hwaits
    · next hphase =>
      split at hcall
      · next calls heq => exact absurd heq (hphase calls)
      · exact .before stage hstage hcall (by simp)
  | interrupted =>
    rw [hkept nofun] at hcall
    refine .before stage ?_ hcall (by simp)
    unfold AgentSystem.forwardAbort at hstage
    split at hstage <;> exact hstage
  | blocked hbatch hbatchLabel hstep hhistory hitems =>
    rw [hkept nofun] at hcall
    exact .before stage hstage hcall (by simp)
  | @dispatched part instant i b b' batchLabel hbatch hbatchLabel hstep hhistory =>
    rw [hkept nofun] at hcall
    refine waits_of_dispatch (fun k => ?_) hstage hwaits hcall
    exact call_of_calls hbatch rfl
      (sound_step (hwired.sound b hbatch) (stepped_of_step hstep)).calls_eq k
  | settled i result hsettles hterminal hlabel =>
    rw [hkept (hlabel _)] at hcall
    exact .before stage (stage_of_set hstage hwaits rfl) hcall (by simp)
  | executed i instant data found hpre hfound hordinary =>
    exact .before stage (stage_of_set hstage hwaits rfl) hcall (by simp)
  | gatePassed i instant data found hpre hfound hterminal hopen =>
    dsimp only at hstage
    rw [List.getElem?_set] at hstage
    split at hstage
    · next hindex =>
      subst hindex
      split at hstage
      · cases hstage
        exact .passed data instant rfl hpre hcall
      · cases hstage
    · exact .before stage hstage hcall (by simp)
  | returned i instant startedAt answer result hpre =>
    exact .before stage (stage_of_set hstage hwaits rfl) hcall (by simp)
  | submitted i instant data hpre =>
    exact .before stage (stage_of_set hstage hwaits rfl) hcall (by simp)
  | accepted i instant startedAt value hpre =>
    exact .before stage (stage_of_set hstage hwaits rfl) hcall (by simp)
  | refused i instant startedAt verdict hverdict hpre =>
    exact .before stage (stage_of_set hstage hwaits rfl) hcall (by simp)
  | batchReturned hbatch hreturned hstep => exact .before stage hstage hcall (by simp)

/-- **Only an interrupt of a live run aborts the signal**, and only it says so. -/
theorem signal_of_acted {label : SystemLabel T} {next : AgentSystem T × List (SystemItem T)}
    (hwired : Wired spec s) (h : Acted spec s label next) :
    (next.1.run.handle.aborted = s.run.handle.aborted ∧ .run .interrupted ∉ next.2) ∨
      s.run.handle.aborted = false ∧ next.1.run.handle.aborted = true ∧
        next.2 = [.run .interrupted] := by
  -- only an item of the loop says that the run was interrupted
  have hnot : ∀ {shown : List (RunItem T)}, .interrupted ∉ shown →
      SystemItem.run .interrupted ∉ shown.map SystemItem.run := by
    intro shown hshown hmem
    obtain ⟨item, hitem, heq⟩ := List.mem_map.mp hmem
    cases heq
    exact hshown hitem
  cases h with
  | ran hfree hstep hboundary hinterrupt =>
    obtain ⟨haborted, hshown⟩ := aborted_step hwired.live hinterrupt hstep
    exact Or.inl ⟨haborted, hnot hshown⟩
  | @opened ran hstep =>
    obtain ⟨haborted, hshown⟩ := aborted_step hwired.live (by simp) hstep
    refine Or.inl ⟨?_, hnot hshown⟩
    unfold AgentSystem.openBatch
    split <;> exact haborted
  | interrupted =>
    have hrun : ({ s with run := s.run.interrupt.1 }.forwardAbort spec).run = s.run.interrupt.1 := by
      unfold AgentSystem.forwardAbort
      split <;> rfl
    rw [hrun]
    unfold AgentRun.interrupt
    split
    · exact Or.inl ⟨rfl, by simp⟩
    · next hlive =>
      rw [not_or, Bool.not_eq_true, Bool.not_eq_true] at hlive
      refine Or.inr ⟨hlive.2, ?_, rfl⟩
      simp [RunHandle.interrupt, hlive.1]
  | @blocked part instant b b' batchLabel items =>
    refine Or.inl ⟨rfl, fun hmem => ?_⟩
    obtain ⟨item, -, heq⟩ := List.mem_map.mp hmem
    cases heq
  | @dispatched part instant index b b' =>
    refine Or.inl ⟨?_, fun hmem => ?_⟩
    · dsimp only
      rw [(dispatch_run spec { s with batch := some b' } index instant).1]
    · rcases List.mem_cons.mp hmem with heq | hmem
      · cases heq
      · obtain ⟨facts, heq⟩ := dispatch_items _ _ _ _ _ hmem
        cases heq
  | settled index result => exact Or.inl ⟨rfl, (by simp)⟩
  | executed index instant data call => exact Or.inl ⟨rfl, by simp⟩
  | gatePassed index instant data call => exact Or.inl ⟨rfl, by simp⟩
  | returned index instant startedAt => exact Or.inl ⟨rfl, (by simp)⟩
  | submitted index instant data => exact Or.inl ⟨rfl, by simp⟩
  | accepted index instant startedAt value => exact Or.inl ⟨rfl, by simp⟩
  | refused index instant startedAt verdict =>
    exact Or.inl ⟨(aborted_step hwired.live (by simp) (cancelFinishing_step spec.loop s.run)).1, (by simp)⟩
  | batchReturned hbatch hreturned hstep =>
    obtain ⟨haborted, hshown⟩ := aborted_step hwired.live (by simp) hstep
    exact Or.inl ⟨haborted, hnot hshown⟩

end System

/-! ## What a block of the system is to the engine -/

section Moved

variable {n : NumberText} {passes : AdvisorPassRegistry} {run : EngineRun T}

/-- The parts of a run that never change, and its system. -/
structure SameRun (run run' : EngineRun T) : Prop where
  agentRunId : run'.agentRunId = run.agentRunId
  spec : run'.spec = run.spec
  advisory : run'.advisory = run.advisory
  system : run'.system = run.system

theorem SameRun.refl (run : EngineRun T) : SameRun run run := ⟨rfl, rfl, rfl, rfl⟩

theorem SameRun.trans {a b c : EngineRun T} (h₁ : SameRun a b) (h₂ : SameRun b c) : SameRun a c :=
  ⟨h₂.agentRunId.trans h₁.agentRunId, h₂.spec.trans h₁.spec, h₂.advisory.trans h₁.advisory,
    h₂.system.trans h₁.system⟩

theorem observe_same (item : SystemItem T) : SameRun run (run.observe n passes item) := by
  unfold EngineRun.observe
  split
  · exact ⟨rfl, rfl, rfl, rfl⟩
  · split
    · exact ⟨rfl, rfl, rfl, rfl⟩
    · exact .refl run
  · exact ⟨rfl, rfl, rfl, rfl⟩
  · exact .refl run

theorem foldl_same (items : List (SystemItem T)) :
    SameRun run (items.foldl (EngineRun.observe n passes) run) := by
  induction items generalizing run with
  | nil => exact .refl run
  | cons item rest ih => exact (observe_same item).trans ih

variable (n passes run) in
theorem moved_same (next : AgentSystem T × List (SystemItem T)) :
    SameRun { run with system := next.1 } (run.moved n passes next) :=
  foldl_same next.2

/-- Hooks that are not asked leave what they have decided. -/
theorem foldl_decisions {index : Nat} {items : List (SystemItem T)}
    (h : ∀ facts, .preToolUse index facts ∉ items) :
    (items.foldl (EngineRun.observe n passes) run).decisions index = run.decisions index := by
  induction items generalizing run with
  | nil => rfl
  | cons item rest ih =>
    rw [List.foldl_cons, ih fun facts hmem => h facts (List.mem_cons_of_mem _ hmem)]
    unfold EngineRun.observe
    split
    · next i facts =>
      have hindex : index ≠ i := by
        rintro rfl
        exact h facts List.mem_cons_self
      exact Function.update_of_ne hindex _ _
    · split <;> rfl
    · rfl
    · rfl

variable (n passes run) in
/-- Without an interrupt, all that happens to the child calls is that new ones start. -/
theorem foldl_calls {items : List (SystemItem T)} (h : .run .interrupted ∉ items) :
    ∃ more, (items.foldl (EngineRun.observe n passes) run).calls = run.calls ++ more ∧
      ∀ call ∈ more, ∃ index task, call = .start index task := by
  induction items generalizing run with
  | nil => exact ⟨[], by simp, nofun⟩
  | cons item rest ih =>
    obtain ⟨more, hmore, hstart⟩ := ih (run.observe n passes item)
      fun hmem => h (List.mem_cons_of_mem _ hmem)
    rw [List.foldl_cons, hmore]
    unfold EngineRun.observe
    split
    · exact ⟨more, rfl, hstart⟩
    · next index data =>
      split
      · next task heq =>
        refine ⟨.start index task :: more, by simp, ?_⟩
        intro call hcall
        rcases List.mem_cons.mp hcall with rfl | hcall
        · exact ⟨index, task, rfl⟩
        · exact hstart call hcall
      · exact ⟨more, rfl, hstart⟩
    · exact absurd List.mem_cons_self h
    · exact ⟨more, rfl, hstart⟩

theorem moved_of_interrupt {system : AgentSystem T} :
    run.moved n passes (system, [.run .interrupted]) =
      { run with system, calls := run.calls.map ChildCall.abort } := rfl

theorem moved_of_asked {system : AgentSystem T} {index : Nat} {facts : ToolCallFacts} :
    (run.moved n passes (system, [.batch (.started index), .preToolUse index facts])).decisions
      index = (HookEngine.ofEntries (run.hooks n passes)).preToolUse facts :=
  Function.update_self _ _ _

end Moved

/-! ## One block of a run -/

/-- The ways a block of a run can go. -/
inductive RunMoved (n : NumberText) (passes : AdvisorPassRegistry) (run : EngineRun T) :
    RunEvent T → EngineRun T → AdvisorPassRegistry → List EngineItem → Prop
  /-- The assembled run goes on; its hooks let a call pass only when the engine's do. -/
  | system (event : RunEvent T) (label : SystemLabel T)
      (next : AgentSystem T × List (SystemItem T))
      (hstep : run.system.step run.spec label = some next)
      (hlabel : ∀ index instant, label = .preHookReturns index .passthrough instant →
        ∀ decision ∈ run.decisions index, decision = .passthrough)
      (hevent : ∀ k value instant, event ≠ .startReturns k (.ok value) instant) :
      RunMoved n passes run event (run.moved n passes next) passes (next.2.filterMap run.shown)
  | ran (k : Nat) (call : ChildCall) (hcall : run.calls[k]? = some call) :
      RunMoved n passes run (.childRuns k)
        { run with calls := run.calls.set k { call with running := true } } passes []
  | started (k : Nat) (call : ChildCall) (instant : Nat) (hcall : run.calls[k]? = some call)
      (hstage : call.stage = .starting) :
      RunMoved n passes run (.startReturns k (.ok ()) instant)
        { run with calls := run.calls.set k call.started } passes []
  /-- A call returns, and its child has passed no submission. -/
  | finished (event : RunEvent T) (k : Nat) (call : ChildCall) (result : Except String ToolResult)
      (instant : Nat) (items : List EngineItem) (hcall : run.calls[k]? = some call)
      (hitems : ∀ item ∈ items, ∃ submission outcome,
        item = .advised run.agentRunId submission outcome)
      (hevent : ∀ k value instant, event ≠ .startReturns k (.ok value) instant) :
      RunMoved n passes run event (run.finish k call result instant) passes items
  /-- An advisor has passed this submission. -/
  | passed (event : RunEvent T) (k : Nat) (call : ChildCall) (result : Except String ToolResult)
      (instant : Nat) (submission : AdvisorSubmission) (outcome : ChildOutcome AdvisorVerdict)
      (hcall : run.calls[k]? = some call) (hpasses : outcome.passes = true)
      (hevent : ∀ k value instant, event ≠ .startReturns k (.ok value) instant) :
      RunMoved n passes run event (run.finish k call result instant)
        (passes.recordPass n run.agentRunId submission)
        [.advised run.agentRunId submission outcome]

theorem runMoved_of_step {n : NumberText} {passes passes' : AdvisorPassRegistry}
    {run run' : EngineRun T} {event : RunEvent T} {items : List EngineItem}
    (h : run.step n passes event = some (run', passes', items)) :
    RunMoved n passes run event run' passes' items := by
  cases event with
  | system label =>
    simp only [EngineRun.step] at h
    split at h
    · cases h
    · next howns =>
      obtain ⟨next, hstep, heq⟩ := Option.map_eq_some_iff.mp h
      cases heq
      refine .system _ label next hstep ?_ nofun
      rintro index instant rfl
      exact absurd rfl howns
  | hooksReturn index globals instant =>
    simp only [EngineRun.step] at h
    obtain ⟨next, hstep, heq⟩ := Option.map_eq_some_iff.mp h
    cases heq
    refine .system _ _ next hstep ?_ nofun
    rintro i instant' heq decision hmem
    injection heq with hindex hdecision
    rw [← hindex] at hmem
    -- the hooks of the run and the global ones have all passed
    exact combine_eq_passthrough.mp hdecision decision (List.mem_append_right _ hmem)
  | childRuns k =>
    simp only [EngineRun.step] at h
    obtain ⟨call, hcall, h⟩ := Option.bind_eq_some_iff.mp h
    split at h
    · cases h; exact .ran k call hcall
    · cases h
  | startReturns k result instant =>
    cases result with
    | ok value =>
      simp only [EngineRun.step] at h
      obtain ⟨call, hcall, h⟩ := Option.bind_eq_some_iff.mp h
      split at h
      · next hstage => cases h; exact .started k call instant hcall hstage.1
      · cases h
    | error message =>
      simp only [EngineRun.step] at h
      obtain ⟨call, hcall, h⟩ := Option.bind_eq_some_iff.mp h
      split at h
      · cases h; exact .finished _ k call _ instant [] hcall nofun nofun
      · cases h
  | subagentReturns k outcome instant =>
    simp only [EngineRun.step] at h
    obtain ⟨call, hcall, h⟩ := Option.bind_eq_some_iff.mp h
    split at h
    · cases h; exact .finished _ k call _ instant [] hcall nofun nofun
    · cases h
  | advisorReturns k outcome instant =>
    simp only [EngineRun.step] at h
    obtain ⟨call, hcall, h⟩ := Option.bind_eq_some_iff.mp h
    split at h
    · next submission _ _ =>
      -- only a verdict that passes registers a pass
      cases hpasses : outcome.passes with
      | true =>
        rw [hpasses, if_pos rfl] at h
        cases h
        exact .passed _ k call _ instant submission outcome hcall hpasses nofun
      | false =>
        rw [hpasses, if_neg nofun] at h
        cases h
        refine .finished _ k call _ instant _ hcall ?_ nofun
        intro item hitem
        exact ⟨_, _, List.mem_singleton.mp hitem⟩
    · cases h

/-- The result of a call changes nothing that waits in a hook, and not the signal. -/
theorem answer_system (run : EngineRun T) (index : Nat) (result : Except String ToolResult)
    (instant : Nat) :
    ∃ stages, run.answer index result instant =
        { run with system := { run.system with stages } } ∧
      ∀ {k : Nat} {stage : CallStage}, stages[k]? = some stage → stage.beforeEffect = true →
        run.system.stages[k]? = some stage := by
  unfold EngineRun.answer
  split
  · next next hstep =>
    cases acted_of_step hstep with
    | settled i result hsettles hterminal hlabel hverdict =>
      exact ⟨_, rfl, fun hstage hwaits => stage_of_set hstage hwaits rfl⟩
    | returned i instant' startedAt answer result hstage =>
      exact ⟨_, rfl, fun hstage hwaits => stage_of_set hstage hwaits rfl⟩
  · exact ⟨run.system.stages, rfl, fun hstage _ => hstage⟩

/-! ## Every run of the factory -/

/-- The invariant of a run: its system is well wired, and a call that still starts its child has no
listener. -/
structure Tended (run : EngineRun T) : Prop where
  wired : Wired run.spec run.system
  starting : ∀ call ∈ run.calls, call.stage = .starting →
    call.listening = false ∧ call.interrupted = false

theorem tended_start (agentRunId : AgentRunId) (spec : RunSpec) (advisory : Bool)
    (messages : List UserMessage) :
    Tended (EngineRun.start (T := T) agentRunId spec advisory messages) :=
  ⟨wired_start spec messages, nofun⟩

section Tended

variable {n : NumberText} {passes : AdvisorPassRegistry} {run : EngineRun T}

/-- The result of a call leaves the run well wired, and its signal alone. -/
theorem answer_wired (h : Wired run.spec run.system) (index : Nat)
    (result : Except String ToolResult) (instant : Nat) :
    Wired run.spec (run.answer index result instant).system := by
  unfold EngineRun.answer
  split
  · next next hstep => exact wired_step h (acted_of_step hstep)
  · exact h

/-- A child call goes on with its own listener. -/
theorem Tended.set (h : Tended run) {k : Nat} {call : ChildCall}
    (hcall : call.stage = .starting → call.listening = false ∧ call.interrupted = false) :
    Tended { run with calls := run.calls.set k call } := by
  refine ⟨h.wired, fun other hother => ?_⟩
  rcases List.mem_or_eq_of_mem_set hother with hmem | rfl
  · exact h.starting other hmem
  · exact hcall

theorem Tended.moved (h : Tended run) {label : SystemLabel T}
    {next : AgentSystem T × List (SystemItem T)} (hstep : run.system.step run.spec label = some next) :
    Tended (run.moved n passes next) := by
  have hsame := moved_same n passes run next
  have hacted := acted_of_step hstep
  refine ⟨?_, ?_⟩
  · rw [hsame.spec, hsame.system]
    exact wired_step h.wired hacted
  · intro call hcall hstage
    rcases signal_of_acted h.wired hacted with ⟨-, hcalm⟩ | ⟨-, -, hitems⟩
    · obtain ⟨more, hmore, hstart⟩ := foldl_calls n passes { run with system := next.1 } hcalm
      rw [EngineRun.moved, hmore] at hcall
      rcases List.mem_append.mp hcall with hcall | hcall
      · exact h.starting call hcall hstage
      · obtain ⟨index, task, rfl⟩ := hstart call hcall
        exact ⟨rfl, rfl⟩
    · obtain ⟨system, items⟩ := next
      obtain rfl : items = [.run .interrupted] := hitems
      rw [moved_of_interrupt] at hcall
      obtain ⟨old, hold, rfl⟩ := List.mem_map.mp hcall
      obtain ⟨hlistening, hinterrupted⟩ := h.starting old hold hstage
      exact ⟨hlistening, by simp [ChildCall.abort, hlistening, hinterrupted]⟩

theorem Tended.finish (h : Tended run) (k : Nat) (call : ChildCall)
    (result : Except String ToolResult) (instant : Nat) :
    Tended (run.finish k call result instant) := by
  have hset : Tended { run with calls := run.calls.set k { call with stage := .returned } } :=
    h.set nofun
  obtain ⟨stages, heq, -⟩ := answer_system
    { run with calls := run.calls.set k { call with stage := .returned } } call.index result instant
  have hwired := answer_wired hset.wired call.index result instant
  unfold EngineRun.finish
  rw [heq] at hwired ⊢
  exact ⟨hwired, hset.starting⟩

theorem tended_step {event : RunEvent T} {run' : EngineRun T} {passes' : AdvisorPassRegistry}
    {items : List EngineItem} (h : Tended run) (hmoved : RunMoved n passes run event run' passes' items) :
    Tended run' := by
  cases hmoved with
  | system _ label next hstep => exact h.moved hstep
  | ran k call hcall => exact h.set fun hstage => h.starting call (List.mem_of_getElem? hcall) hstage
  | started k call instant hcall hstage =>
    refine h.set fun hstage' => ?_
    unfold ChildCall.started at hstage'
    dsimp only at hstage'
    split at hstage' <;> cases hstage'
  | finished _ k call result instant => exact h.finish k call result instant
  | passed _ k call result instant => exact h.finish k call result instant

end Tended

section Runs

variable {n : NumberText} {ok : Recorded (AgentEngine T) EngineItem → EngineLabel T → Prop}
  {labels : List (EngineLabel T)} {r : Recorded (AgentEngine T) EngineItem}

/-- A block of the engine starts a run or moves one. -/
theorem engine_step_cases {s s' : AgentEngine T} {label : EngineLabel T} {items : List EngineItem}
    (h : s.step n label = some (s', items)) :
    (∃ agentRunId spec advisory messages, label = .start agentRunId spec advisory messages ∧
        (∀ run ∈ s.runs, run.agentRunId ≠ agentRunId) ∧ items = [] ∧
        s' = { s with runs := s.runs ++ [.start agentRunId spec advisory messages] }) ∨
      ∃ position event run run' passes', label = .run position event ∧
        s.runs[position]? = some run ∧ RunMoved n s.passes run event run' passes' items ∧
        s' = { runs := s.runs.set position run', passes := passes' } := by
  cases label with
  | start agentRunId spec advisory messages =>
    simp only [AgentEngine.step] at h
    split at h
    · cases h
    · next hfresh =>
      cases h
      refine Or.inl ⟨_, _, _, _, rfl, fun run hrun heq => hfresh ?_, rfl, rfl⟩
      exact List.any_eq_true.mpr ⟨run, hrun, beq_iff_eq.mpr heq⟩
  | run position event =>
    simp only [AgentEngine.step] at h
    obtain ⟨run, hrun, h⟩ := Option.bind_eq_some_iff.mp h
    obtain ⟨⟨run', passes', shown⟩, hstep, heq⟩ := Option.map_eq_some_iff.mp h
    cases heq
    exact Or.inr ⟨position, event, run, run', passes', rfl, hrun, runMoved_of_step hstep, rfl⟩

theorem tended_of_run
    (run : Run (Recorded.step (AgentEngine.step n)) ok ⟨.initial, []⟩ labels r) :
    ∀ engineRun ∈ r.state.runs, Tended engineRun := by
  refine run.invariant (I := fun r => ∀ engineRun ∈ r.state.runs, Tended engineRun)
    (fun _ hmem => absurd hmem List.not_mem_nil) ?_
  intro r label r' _ hr hstep
  obtain ⟨state, items, hstate, rfl⟩ := Recorded.step_cases hstep
  rcases engine_step_cases hstate with
    ⟨agentRunId, spec, advisory, messages, rfl, -, -, rfl⟩ |
    ⟨position, event, moving, moved, passes', rfl, hposition, hmoved, rfl⟩
  · intro engineRun hmem
    rcases List.mem_append.mp hmem with hmem | hmem
    · exact hr engineRun hmem
    · rw [List.mem_singleton.mp hmem]
      exact tended_start agentRunId spec advisory messages
  · intro engineRun hmem
    rcases List.mem_or_eq_of_mem_set hmem with hmem | rfl
    · exact hr engineRun hmem
    · exact tended_step (hr moving (List.mem_of_getElem? hposition)) hmoved

end Runs

end EphemeralAgent.Agents
