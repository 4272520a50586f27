import EphemeralAgent.Runtime.Wiring

/-!
# Side effects and the interrupt

The pipelines look at the signal when a call is dispatched, and not again when a hook has returned:
an interrupt that comes while a hook is awaited does not stop the call.

* `BetweenHooks` — no interrupt comes while a call waits in a hook before its side effect
* `no_effect_after_interrupt` — **then no side effect starts after the interrupt**
* `effect_after_interrupt` — a call that is interrupted in its `preToolUse` hook and executes
-/

namespace EphemeralAgent.Runtime

open Lib Engine Tool

variable {T : Type}

/-- `execute()` or `onSubmit` is called. -/
def SystemItem.isEffect : SystemItem T → Bool
  | .executed .. => true
  | .submitted .. => true
  | _ => false

/-- No side effect starts after the interrupt. -/
def NotAfterInterrupt (earlier later : SystemItem T) : Prop :=
  earlier.isInterrupt = true → later.isEffect = false

/-- **The condition**: `interrupt()` does not come while a dispatched call waits in a hook that
stands before its side effect. -/
def BetweenHooks (r : SystemHistory T) (label : SystemLabel T) : Prop :=
  label.isInterrupt = true → ∀ stage ∈ r.state.stages, stage.beforeEffect = false

instance (r : SystemHistory T) (label : SystemLabel T) : Decidable (BetweenHooks r label) :=
  inferInstanceAs (Decidable (_ → _))

/-- The invariant: after the interrupt no call waits before its side effect. -/
structure Undisturbed (s : AgentSystem T) (history : List (SystemItem T)) : Prop where
  stages : s.run.handle.aborted = true → ∀ stage ∈ s.stages, stage.beforeEffect = false
  shown : .run .interrupted ∈ history → s.run.handle.aborted = true
  order : history.Pairwise NotAfterInterrupt

section Undisturbed

variable {spec : RunSpec} {s s' : AgentSystem T} {history items : List (SystemItem T)}

theorem isInterrupt_iff {item : SystemItem T} :
    item.isInterrupt = true ↔ item = .run .interrupted := by
  constructor
  · intro h
    unfold SystemItem.isInterrupt at h
    split at h
    · rfl
    · cases h
  · rintro rfl
    rfl

theorem pairwise_calm (h : ∀ item ∈ items, item.isEffect = false) :
    items.Pairwise NotAfterInterrupt :=
  List.pairwise_of_forall_mem_list fun _ _ later hlater _ => h later hlater

/-- A block that starts no side effect. -/
theorem Undisturbed.calm (h : Undisturbed s history) (hitems : ∀ item ∈ items, item.isEffect = false)
    (hstages : s'.run.handle.aborted = true → ∀ stage ∈ s'.stages, stage.beforeEffect = false)
    (hshown : .run .interrupted ∈ history ++ items → s'.run.handle.aborted = true) :
    Undisturbed s' (history ++ items) :=
  ⟨hstages, hshown, List.pairwise_append.mpr
    ⟨h.order, pairwise_calm hitems, fun _ _ later hlater _ => hitems later hlater⟩⟩

/-- A block that leaves the signal alone and starts no side effect. -/
theorem Undisturbed.kept (h : Undisturbed s history)
    (hitems : ∀ item ∈ items, item.isEffect = false ∧ item.isInterrupt = false)
    (haborted : s'.run.handle.aborted = s.run.handle.aborted)
    (hstages : s.run.handle.aborted = true → ∀ stage ∈ s'.stages, stage ∈ s.stages ∨
      stage.beforeEffect = false) :
    Undisturbed s' (history ++ items) := by
  refine h.calm (fun item hitem => (hitems item hitem).1) ?_ ?_
  · intro hs' stage hstage
    rw [haborted] at hs'
    rcases hstages hs' stage hstage with hold | hnew
    · exact h.stages hs' stage hold
    · exact hnew
  · intro hmem
    rw [haborted]
    rcases List.mem_append.mp hmem with hmem | hmem
    · exact h.shown hmem
    · exact absurd ((hitems _ hmem).2.symm.trans (isInterrupt_iff.mpr rfl)) nofun

/-- A block that starts the side effect of a call that has waited in a hook. -/
theorem Undisturbed.effect (h : Undisturbed s history) {index : Nat} {old : CallStage}
    (hold : s.stages[index]? = some old) (hwaits : old.beforeEffect = true) {item : SystemItem T}
    (hitem : item.isInterrupt = false)
    (haborted : s'.run.handle.aborted = s.run.handle.aborted) :
    Undisturbed s' (history ++ [item]) := by
  have hlive : s.run.handle.aborted = false := by
    cases hs : s.run.handle.aborted with
    | false => rfl
    | true => exact absurd (hwaits.symm.trans (h.stages hs old (List.mem_of_getElem? hold))) nofun
  have hunshown : .run .interrupted ∉ history := fun hmem =>
    absurd (hlive.symm.trans (h.shown hmem)) nofun
  refine ⟨?_, ?_, List.pairwise_append.mpr ⟨h.order, List.pairwise_singleton _ _, ?_⟩⟩
  · intro hs'
    rw [haborted, hlive] at hs'
    cases hs'
  · intro hmem
    rcases List.mem_append.mp hmem with hmem | hmem
    · exact absurd hmem hunshown
    · rw [← List.mem_singleton.mp hmem] at hitem
      cases hitem
  · intro earlier hearlier later _ hinterrupt
    rw [isInterrupt_iff] at hinterrupt
    exact absurd (hinterrupt ▸ hearlier) hunshown

theorem run_calm {shown : List (RunItem T)} :
    ∀ item ∈ shown.map (SystemItem.run (T := T)), item.isEffect = false := by
  intro item hitem
  obtain ⟨_, -, rfl⟩ := List.mem_map.mp hitem
  rfl

theorem run_kept {shown : List (RunItem T)} (h : .interrupted ∉ shown) :
    ∀ item ∈ shown.map (SystemItem.run (T := T)),
      item.isEffect = false ∧ item.isInterrupt = false := by
  intro item hitem
  refine ⟨run_calm item hitem, ?_⟩
  obtain ⟨inner, hinner, rfl⟩ := List.mem_map.mp hitem
  cases inner with
  | interrupted => exact absurd hinner h
  | _ => rfl

/-- A stage that is set to one that stands before no side effect. -/
theorem mem_set_past {index : Nat} {new : CallStage} (hnew : new.beforeEffect = false) :
    ∀ stage ∈ s.stages.set index new, stage ∈ s.stages ∨ stage.beforeEffect = false := by
  intro stage hstage
  rcases List.mem_or_eq_of_mem_set hstage with hstage | rfl
  · exact Or.inl hstage
  · exact Or.inr hnew

/-- **One block.** -/
theorem undisturbed_step {label : SystemLabel T} {next : AgentSystem T × List (SystemItem T)}
    (hwired : Wired spec s) (hok : BetweenHooks { state := s, history } label)
    (h : Undisturbed s history) (hstep : Acted spec s label next) :
    Undisturbed next.1 (history ++ next.2) := by
  cases hstep with
  | ran hfree hstep hboundary hinterrupt =>
    obtain ⟨haborted, hshown⟩ := aborted_step hwired.live hinterrupt hstep
    exact h.kept (run_kept hshown) haborted fun _ stage hstage => Or.inl hstage
  | @opened next hstep =>
    obtain ⟨haborted, hshown⟩ := aborted_step hwired.live (by simp) hstep
    unfold AgentSystem.openBatch
    split
    · refine h.kept (run_kept hshown) haborted fun _ stage hstage => Or.inr ?_
      rw [List.eq_of_mem_replicate hstage]
      rfl
    · exact h.kept (run_kept hshown) haborted fun _ stage hstage => Or.inl hstage
  | interrupted =>
    refine h.calm run_calm (fun _ stage hstage => ?_) fun hmem => ?_
    · unfold AgentSystem.forwardAbort at hstage
      split at hstage <;> exact hok rfl stage hstage
    · have haborted : s.run.interrupt.1.handle.aborted = true := by
        refine interrupt_aborted s.run ?_
        rcases List.mem_append.mp hmem with hmem | hmem
        · exact Or.inl (h.shown hmem)
        · obtain ⟨item, hitem, heq⟩ := List.mem_map.mp hmem
          cases heq
          exact Or.inr hitem
      unfold AgentSystem.forwardAbort
      split <;> exact haborted
  | blocked hbatch hlabel hstep hhistory hitems =>
    refine h.kept ?_ rfl fun _ stage hstage => Or.inl hstage
    intro item hitem
    obtain ⟨_, -, rfl⟩ := List.mem_map.mp hitem
    exact ⟨rfl, rfl⟩
  | @dispatched part instant index b b' label hbatch hlabel hstep hhistory =>
    have hrun := (dispatch_run spec { s with batch := some b' } index instant).1
    refine h.kept ?_ ?_ fun haborted stage hstage => ?_
    · intro item hitem
      rcases List.mem_cons.mp hitem with rfl | hitem
      · exact ⟨rfl, rfl⟩
      · obtain ⟨facts, rfl⟩ := dispatch_items _ _ _ _ item hitem
        exact ⟨rfl, rfl⟩
    · dsimp only
      rw [hrun]
    -- a call that is dispatched on an aborted signal does not wait for a hook
    · rcases mem_dispatch_stages hstage with hold | ⟨data, -, hlive⟩ | ⟨outcome, rfl⟩
      · exact Or.inl hold
      · exact absurd (haborted.symm.trans hlive) nofun
      · exact Or.inr rfl
  | settled index result =>
    exact h.kept nofun rfl fun _ => mem_set_past rfl
  | executed index instant data call hstage =>
    exact h.effect hstage rfl rfl rfl
  | gatePassed index instant data call hstage =>
    have hnot : ¬ s.run.handle.aborted = true := fun haborted =>
      absurd (h.stages haborted _ (List.mem_of_getElem? hstage)) nofun
    exact h.kept (by simp [SystemItem.isEffect, SystemItem.isInterrupt]) rfl
      fun haborted => absurd haborted hnot
  | returned index instant => exact h.kept nofun rfl fun _ => mem_set_past rfl
  | submitted index instant data hstage => exact h.effect hstage rfl rfl rfl
  | accepted index instant startedAt value hstage =>
    exact h.kept (by simp [SystemItem.isEffect, SystemItem.isInterrupt]) rfl
      fun _ => mem_set_past rfl
  | refused index instant startedAt verdict =>
    have haborted := (aborted_step hwired.live (by simp)
      (cancelFinishing_step spec.loop s.run)).1
    exact h.kept nofun haborted fun _ => mem_set_past rfl
  | batchReturned hbatch hreturned hstep =>
    obtain ⟨haborted, hshown⟩ := aborted_step hwired.live (by simp) hstep
    exact h.kept (run_kept hshown) haborted fun _ stage hstage => Or.inl hstage

end Undisturbed

/-- **No side effect starts after an interrupt that comes between hooks**, for every run and every
schedule: neither `execute()` of an ordinary call nor `onSubmit`. -/
theorem no_effect_after_interrupt {spec : RunSpec} {messages : List UserMessage}
    {labels : List (SystemLabel T)} {r : SystemHistory T}
    (run : Run (Recorded.step (AgentSystem.step spec)) BetweenHooks
      (AgentSystem.start spec messages) labels r) : r.history.Pairwise NotAfterInterrupt := by
  have h : Undisturbed r.state r.history := by
    refine run.invariant_of (J := fun r => Wired spec r.state)
      (I := fun r => Undisturbed r.state r.history) wired_of_run ?_ ?_
    · refine ⟨fun _ => nofun, fun hmem => ?_, pairwise_calm run_calm⟩
      obtain ⟨item, hitem, heq⟩ := List.mem_map.mp hmem
      cases heq
      exact absurd hitem (interrupted_not_mem_start spec.loop messages)
    · intro r label r' hok hwired hr hstep
      obtain ⟨state, items, hstate, rfl⟩ := Recorded.step_cases hstep
      exact undisturbed_step hwired hok hr (acted_of_step hstate)
  exact h.order

/-- An interrupt while the call executes: the second call is not dispatched any more. -/
theorem no_effect_after_interrupt_executing :
    ∃ r : SystemHistory Unit, r.history.any SystemItem.isInterrupt = true ∧
      r.history.any SystemItem.isEffect = true ∧ r.history.Pairwise NotAfterInterrupt := by
  obtain ⟨r, run, hr⟩ := exists_run (Recorded.step (AgentSystem.step sampleSpec)) BetweenHooks
    (AgentSystem.start sampleSpec [⟨userText "go", rfl⟩])
    (sampleTurn [("a", "write"), ("b", "submit")] ++
      [.block .spawn 1, .preHookReturns 0 .passthrough 2, .run .interrupt,
        .executeReturns 0 (.ok (.error "late")) 3, .block .proceed 4, .batchReturns 5])
    (fun r => r.history.any SystemItem.isInterrupt && r.history.any SystemItem.isEffect)
    (by decide +kernel)
  rw [Bool.and_eq_true] at hr
  exact ⟨r, hr.1, hr.2, no_effect_after_interrupt run⟩

/-- A side effect that comes last, in a run that has been interrupted. -/
theorem not_pairwise_of_last {history : List (SystemItem T)}
    (h : (history.getLast?.any SystemItem.isEffect && history.any SystemItem.isInterrupt) = true) :
    ¬ history.Pairwise NotAfterInterrupt := by
  rw [Bool.and_eq_true, Option.any_eq_true, List.any_eq_true] at h
  obtain ⟨⟨last, hlast, heffect⟩, item, hitem, hinterrupt⟩ := h
  obtain ⟨before, rfl⟩ := List.getLast?_eq_some_iff.mp hlast
  intro hpairwise
  obtain ⟨-, -, hbefore⟩ := List.pairwise_append.mp hpairwise
  rcases List.mem_append.mp hitem with hitem | hitem
  · have hnone := hbefore item hitem last (List.mem_singleton.mpr rfl) hinterrupt
    rw [heffect] at hnone
    cases hnone
  · rw [List.mem_singleton.mp hitem, isInterrupt_iff] at hinterrupt
    rw [hinterrupt] at heffect
    cases heffect

/-- The abort leaves the calls of the batch alone. -/
theorem call_forwardAbort (spec : RunSpec) (s : AgentSystem T) (index : Nat) :
    (s.forwardAbort spec).call index = s.call index := by
  unfold AgentSystem.forwardAbort
  split
  · unfold AgentSystem.call
    cases s.batch with
    | none => rfl
    | some b =>
      show (BatchRun.batch ((b.step spec.bound .abort).getD b)).calls[index]? = _
      simp only [BatchRun.step]
      split <;> rfl
  · rfl

/-- **The condition is needed**: an interrupt of a live run that finds an ordinary call in its
`preToolUse` hook, or a submission in its `postToolUse` hook, is followed by the side effect of
this call as soon as the hook lets it pass. -/
theorem effect_of_interrupt_in_hook {spec : RunSpec} {r : SystemHistory T}
    (hfinished : r.state.run.handle.finished = false)
    (haborted : r.state.run.handle.aborted = false) {index : Nat} {data : Json}
    (hstage : r.state.stages[index]? = some (.vetting data) ∨
      r.state.stages[index]? = some (.preHook data) ∧
        ∃ call, r.state.call index = some call ∧ spec.isTerminal call = false) :
    ∃ labels r', Run (Recorded.step (AgentSystem.step spec)) Free r labels r' ∧
      ¬ r'.history.Pairwise NotAfterInterrupt := by
  have hinterrupt : r.state.run.interrupt.2 = [.interrupted] := by
    simp [AgentRun.interrupt, hfinished, haborted]
  obtain ⟨r₁, hr₁, hstages, hcall, hhistory⟩ : ∃ r₁ : SystemHistory T,
      Recorded.step (AgentSystem.step spec) r (.run .interrupt) = some r₁ ∧
      r₁.state.stages = r.state.stages ∧ (∀ i, r₁.state.call i = r.state.call i) ∧
      r₁.history = r.history ++ [.run .interrupted] := by
    refine ⟨_, rfl, ?_, call_forwardAbort spec _, ?_⟩
    · show (AgentSystem.forwardAbort spec _).stages = _
      unfold AgentSystem.forwardAbort
      split <;> rfl
    · show r.history ++ r.state.run.interrupt.2.map .run = _
      rw [hinterrupt]
      rfl
  -- the hook returns, and the call goes on
  have hend : ∀ (label : SystemLabel T) (item : SystemItem T),
      (r₁.state.step spec label).map Prod.snd = some [item] → item.isEffect = true →
      ∃ labels r', Run (Recorded.step (AgentSystem.step spec)) Free r labels r' ∧
        ¬ r'.history.Pairwise NotAfterInterrupt := by
    intro label item hstep hitem
    obtain ⟨⟨state, items⟩, hstep, rfl⟩ := Option.map_eq_some_iff.mp hstep
    refine ⟨[.run .interrupt] ++ [label], { state, history := r₁.history ++ [item] },
      .snoc (.single trivial hr₁) trivial ?_, not_pairwise_of_last ?_⟩
    · rw [Recorded.step, hstep]
      rfl
    · simp [hitem, hhistory, SystemItem.isInterrupt]
  rw [← hstages] at hstage
  rcases hstage with hstage | ⟨hstage, call, hfound, hordinary⟩
  · refine hend (.postHookReturns index .passthrough 0)
      (.submitted index data r₁.state.run.gate) ?_ rfl
    rw [AgentSystem.step, hstage]
    rfl
  · refine hend (.preHookReturns index .passthrough 0) (.executed index data) ?_ rfl
    rw [← hcall] at hfound
    simp only [AgentSystem.step, hstage, hfound, AgentSystem.afterPreHook, hordinary]
    rfl

/-- An ordinary call that is interrupted in its `preToolUse` hook executes all the same, and a
submission that is interrupted in its `postToolUse` hook is submitted all the same. -/
theorem effect_after_interrupt :
    (∃ r : SystemHistory Unit, Run (Recorded.step (AgentSystem.step sampleSpec)) Free
        (AgentSystem.start sampleSpec [⟨userText "go", rfl⟩])
        (sampleTurn [("a", "write")] ++
          [.block .spawn 1, .run .interrupt, .preHookReturns 0 .passthrough 2]) r ∧
      ¬ r.history.Pairwise NotAfterInterrupt) ∧
    ∃ r : SystemHistory Unit, Run (Recorded.step (AgentSystem.step sampleSpec)) Free
        (AgentSystem.start sampleSpec [⟨userText "go", rfl⟩])
        (sampleTurn [("a", "submit")] ++
          [.block .proceed 1, .preHookReturns 0 .passthrough 2, .run .interrupt,
            .postHookReturns 0 .passthrough 3]) r ∧
      ¬ r.history.Pairwise NotAfterInterrupt := by
  constructor
  · obtain ⟨r, run, hr⟩ := exists_run (Recorded.step (AgentSystem.step sampleSpec)) Free
      (AgentSystem.start sampleSpec [⟨userText "go", rfl⟩])
      (sampleTurn [("a", "write")] ++
        [.block .spawn 1, .run .interrupt, .preHookReturns 0 .passthrough 2])
      (fun r => r.history.getLast?.any SystemItem.isEffect &&
        r.history.any SystemItem.isInterrupt) (by decide +kernel)
    exact ⟨r, run, not_pairwise_of_last hr⟩
  · obtain ⟨r, run, hr⟩ := exists_run (Recorded.step (AgentSystem.step sampleSpec)) Free
      (AgentSystem.start sampleSpec [⟨userText "go", rfl⟩])
      (sampleTurn [("a", "submit")] ++
        [.block .proceed 1, .preHookReturns 0 .passthrough 2, .run .interrupt,
          .postHookReturns 0 .passthrough 3])
      (fun r => r.history.getLast?.any SystemItem.isEffect &&
        r.history.any SystemItem.isInterrupt) (by decide +kernel)
    exact ⟨r, run, not_pairwise_of_last hr⟩

end EphemeralAgent.Runtime
