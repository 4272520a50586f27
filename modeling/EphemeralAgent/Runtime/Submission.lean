import EphemeralAgent.Runtime.Wiring

/-!
# One submission at a time

* `Wired.unique` — only one call at a time is on its way to `onSubmit`
* `Sole` — while a submission is in flight, and after it is accepted, the gate denies every other
* `sole_of_run` — every block keeps it
-/

namespace EphemeralAgent.Runtime

open Lib Engine Tool

variable {T : Type}

/-- A submission that has passed the gate waits for its `postToolUse` hooks. -/
def isVetting : CallStage → Bool
  | .vetting _ => true
  | _ => false

/-- `await fn.onSubmit(..)`. -/
def isSubmitting : CallStage → Bool
  | .submitting _ => true
  | _ => false

/-- The gate is latched while a submission is in flight and after it is accepted. -/
structure Sole (s : AgentSystem T) : Prop where
  inFlight : ∀ stage ∈ s.stages, isSubmitting stage = true → s.submitting = true
  accepted : s.accepted.isSome = true → s.submitting = true ∧
    ∀ stage ∈ s.stages, isVetting stage = false ∧ isSubmitting stage = false

section Sole

variable {spec : RunSpec} {s s' : AgentSystem T}

theorem mem_set_settled {index : Nat} {new : CallStage}
    (hvetting : isVetting new = false) (hsubmitting : isSubmitting new = false) :
    ∀ stage ∈ s.stages.set index new, isVetting stage = true ∨ isSubmitting stage = true →
      stage ∈ s.stages := by
  intro stage hstage hpast
  rcases List.mem_or_eq_of_mem_set hstage with hstage | rfl
  · exact hstage
  · simp [hvetting, hsubmitting] at hpast

/-- Only one call at a time is on its way to `onSubmit`. -/
theorem Wired.unique (hwired : Wired spec s) {i j : Nat} (hi : Submits spec s i)
    (hj : Submits spec s j) : i = j := by
  obtain ⟨b, p, hb, hphase, hindex⟩ := hwired.current i hi
  obtain ⟨b', p', hb', hphase', hindex'⟩ := hwired.current j hj
  cases hb.symm.trans hb'
  cases hphase.symm.trans hphase'
  exact Option.some.inj (hindex.symm.trans hindex')

/-- When the submission in flight settles, no other one is past the gate. -/
theorem Wired.alone (hwired : Wired spec s) {index startedAt : Nat}
    (hstage : s.stages[index]? = some (.submitting startedAt)) (new : CallStage)
    (hvetting : isVetting new = false) (hsubmitting : isSubmitting new = false) :
    ∀ stage ∈ s.stages.set index new, isVetting stage = false ∧ isSubmitting stage = false := by
  intro stage hmem
  obtain ⟨j, hj⟩ := List.getElem?_of_mem hmem
  rw [List.getElem?_set] at hj
  split at hj
  · split at hj
    · cases hj
      exact ⟨hvetting, hsubmitting⟩
    · cases hj
  · next hne =>
    have hnot : ¬ spec.submits (s.call j) stage = true := fun hsubmits =>
      hne (hwired.unique ⟨_, hstage, rfl⟩ ⟨stage, hj, hsubmits⟩)
    cases stage with
    | vetting data => exact absurd rfl hnot
    | submitting at' => exact absurd rfl hnot
    | _ => exact ⟨rfl, rfl⟩

/-- A block that moves no submission. -/
theorem Sole.kept (h : Sole s)
    (hstages : ∀ stage ∈ s'.stages, isVetting stage = true ∨ isSubmitting stage = true →
      stage ∈ s.stages)
    (hflag : s'.submitting = s.submitting)
    (haccepted : s'.accepted.isSome = true → s.accepted.isSome = true) : Sole s' where
  inFlight := fun stage hstage hsubmitting =>
    hflag.trans (h.inFlight stage (hstages stage hstage (Or.inr hsubmitting)) hsubmitting)
  accepted := by
    intro hsome
    obtain ⟨hs, hnone⟩ := h.accepted (haccepted hsome)
    refine ⟨hflag.trans hs, fun stage hstage => ?_⟩
    have hquiet : ¬ (isVetting stage = true ∨ isSubmitting stage = true) := by
      intro hpast
      obtain ⟨hvetting, hsubmitting⟩ := hnone stage (hstages stage hstage hpast)
      rcases hpast with hpast | hpast
      · exact absurd (hvetting.symm.trans hpast) nofun
      · exact absurd (hsubmitting.symm.trans hpast) nofun
    simpa using hquiet

/-- The stages past the gate that a block opens or dispatches. -/
theorem mem_openBatch_stages {run : AgentRun T} {stage : CallStage}
    (hstage : stage ∈ ({ s with run }.openBatch spec).stages)
    (hpast : isVetting stage = true ∨ isSubmitting stage = true) : stage ∈ s.stages := by
  unfold AgentSystem.openBatch at hstage
  split at hstage
  · rw [List.eq_of_mem_replicate hstage] at hpast
    rcases hpast with hpast | hpast <;> cases hpast
  · exact hstage

theorem mem_dispatch_stages_past {index instant : Nat} {stage : CallStage}
    (hstage : stage ∈ (s.dispatch spec index instant).1.stages)
    (hpast : isVetting stage = true ∨ isSubmitting stage = true) : stage ∈ s.stages := by
  rcases mem_dispatch_stages hstage with hold | ⟨data, rfl, -⟩ | ⟨outcome, rfl⟩
  · exact hold
  · rcases hpast with hpast | hpast <;> cases hpast
  · rcases hpast with hpast | hpast <;> cases hpast

theorem takeAccepted_isSome {results : List ToolCallResult} {instant : Nat}
    (h : (s.takeAccepted results instant).isSome = true) : s.accepted.isSome = true := by
  unfold AgentSystem.takeAccepted at h
  split at h
  · split at h
    · cases h
    · exact h
  · exact h

/-- **One block.** -/
theorem sole_step {label : SystemLabel T} {next : AgentSystem T × List (SystemItem T)}
    (hwired : Wired spec s) (h : Sole s) (hstep : Acted spec s label next) : Sole next.1 := by
  have hsame : ∀ stage ∈ s.stages, isVetting stage = true ∨ isSubmitting stage = true →
      stage ∈ s.stages := fun _ hstage _ => hstage
  cases hstep with
  | ran => exact h.kept hsame rfl id
  | opened =>
    refine h.kept (fun stage => mem_openBatch_stages) ?_ ?_ <;> unfold AgentSystem.openBatch
    · split <;> rfl
    · split <;> exact id
  | interrupted =>
    unfold AgentSystem.forwardAbort
    split <;> exact h.kept hsame rfl id
  | blocked => exact h.kept hsame rfl id
  | dispatched =>
    refine h.kept (fun stage => mem_dispatch_stages_past) ?_ ?_ <;> unfold AgentSystem.dispatch
    · split
      · split <;> rfl
      · rfl
    · split
      · split <;> exact id
      · exact id
  | settled | executed | returned => exact h.kept (mem_set_settled rfl rfl) rfl id
  | gatePassed index instant data call hstage hcall hterminal hopen =>
    have hflag : s.submitting = false := by
      cases hs : s.submitting with
      | false => rfl
      | true => simp [AgentSystem.blockers, hs] at hopen
    refine ⟨fun stage hmem hsubmitting => ?_, fun hsome => ?_⟩
    · rcases List.mem_or_eq_of_mem_set hmem with hmem | rfl
      · exact h.inFlight stage hmem hsubmitting
      · cases hsubmitting
    -- the gate denies a second submission
    · exact absurd (hflag.symm.trans (h.accepted hsome).1) nofun
  | submitted index instant data hstage =>
    refine ⟨fun _ _ _ => rfl, fun hsome => ?_⟩
    have hvetting := ((h.accepted hsome).2 _ (List.mem_of_getElem? hstage)).1
    cases hvetting
  | accepted index instant startedAt value hstage =>
    have halone := hwired.alone hstage (.settled
      (.ok (Tool.submitted (.accept value) startedAt instant))) rfl rfl
    refine ⟨fun stage hmem hsubmitting => ?_, fun _ => ⟨?_, halone⟩⟩
    · exact absurd ((halone stage hmem).2.symm.trans hsubmitting) nofun
    · exact h.inFlight _ (List.mem_of_getElem? hstage) rfl
  | refused index instant startedAt verdict hverdict hstage =>
    have halone := hwired.alone hstage (.settled
      (.ok (Tool.submitted verdict startedAt instant))) rfl rfl
    refine ⟨fun stage hmem hsubmitting => ?_, fun hsome => ?_⟩
    · exact absurd ((halone stage hmem).2.symm.trans hsubmitting) nofun
    · have hsubmitting := ((h.accepted hsome).2 _ (List.mem_of_getElem? hstage)).2
      cases hsubmitting
  | batchReturned => exact h.kept hsame rfl takeAccepted_isSome

theorem sole_of_run {messages : List UserMessage} {ok : SystemHistory T → SystemLabel T → Prop}
    {labels : List (SystemLabel T)} {r : SystemHistory T}
    (run : Run (Recorded.step (AgentSystem.step spec)) ok (AgentSystem.start spec messages) labels
      r) : Sole r.state := by
  refine run.invariant_of (J := fun r => Wired spec r.state) (I := fun r => Sole r.state)
    wired_of_run ⟨nofun, nofun⟩ ?_
  intro r label r' _ hwired hr hstep
  obtain ⟨state, items, hstate, rfl⟩ := Recorded.step_cases hstep
  exact sole_step hwired hr (acted_of_step hstate)

end Sole

end EphemeralAgent.Runtime
