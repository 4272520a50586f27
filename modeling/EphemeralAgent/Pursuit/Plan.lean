import EphemeralAgent.Pursuit.Cycles
import Mathlib.Data.List.Nodup

/-!
# Valid plans

What a planner's submission is known to satisfy once `plannerSubmissionError` finds nothing.

* `ValidPlan` — new ids, dependencies that exist, and a rank that dependencies lower
* `validPlan_of_error` — `plannerSubmissionError` refuses everything else
-/

namespace EphemeralAgent.Pursuit

open EphemeralAgent.Lib EphemeralAgent.Workflow

structure ValidPlan (leg : Leg) (attempt : Attempt) (payload : PlannerOutcomePayload) : Prop where
  nodup : payload.ids.Nodup
  fresh : payload.legGoal = none → ∀ spec ∈ payload.workItems, ∀ entry ∈ allExisting leg,
    entry.inVersion leg = true → entry.item.id ≠ spec.id.val
  dependencies : ∀ spec ∈ payload.workItems, ∀ dependency ∈ spec.dependencies,
    dependency ∈ payload.ids ∨ payload.legGoal = none ∧ ∃ entry ∈ allExisting leg,
      entry.item.id = dependency ∧ entry.attempt.sequence < attempt.sequence ∧
        entry.inVersion leg = true
  ranked : ∃ rank : String → Nat, ∀ spec ∈ payload.workItems, ∀ dependency ∈ spec.dependencies,
    dependency ∈ payload.ids → rank dependency < rank spec.id.val

/-! ## The checks, one by one -/

theorem firstError_eq_none {α : Type} {check : α → Option String} {items : List α}
    (h : firstError check items = none) : ∀ item ∈ items, check item = none := by
  induction items with
  | nil => simp
  | cons a rest ih =>
    intro item hitem
    unfold firstError at h
    cases ha : check a with
    | some error =>
      rw [ha] at h
      cases h
    | none =>
      rw [ha] at h
      rcases List.mem_cons.mp hitem with rfl | hitem
      · exact ha
      · exact ih h item hitem

theorem duplicateId_eq_none {items : List PlannerWorkItemSpec} {seen : List String}
    (h : duplicateId items seen = none) :
    (items.map (·.id.val)).Nodup ∧ ∀ item ∈ items, item.id.val ∉ seen := by
  induction items generalizing seen with
  | nil => simp
  | cons a rest ih =>
    unfold duplicateId at h
    by_cases ha : a.id.val ∈ seen
    · rw [if_pos ha] at h
      cases h
    · rw [if_neg ha] at h
      obtain ⟨hnodup, hrest⟩ := ih h
      refine ⟨?_, fun item hitem => ?_⟩
      · rw [List.map_cons, List.nodup_cons]
        refine ⟨fun hmem => ?_, hnodup⟩
        obtain ⟨b, hb, hid⟩ := List.mem_map.mp hmem
        refine hrest b hb ?_
        rw [hid]
        exact List.mem_append_right _ (List.mem_singleton_self _)
      · rcases List.mem_cons.mp hitem with rfl | hitem
        · exact ha
        · exact fun hseen => hrest item hitem (List.mem_append_left _ hseen)

theorem dependencyError_eq_none {leg : Leg} {attempt : Attempt} {payload : PlannerOutcomePayload}
    {spec : PlannerWorkItemSpec} {dependency : String}
    (h : dependencyError leg attempt payload payload.ids spec dependency = none) :
    dependency ∈ payload.ids ∨ payload.legGoal = none ∧ ∃ entry ∈ allExisting leg,
      entry.item.id = dependency ∧ entry.attempt.sequence < attempt.sequence ∧
        entry.inVersion leg = true := by
  unfold dependencyError at h
  by_cases hcurrent : dependency ∈ payload.ids
  · exact .inl hcurrent
  · rw [if_neg hcurrent] at h
    by_cases hgoal : payload.legGoal.isSome = true
    · rw [if_pos hgoal] at h
      cases h
    · rw [if_neg hgoal] at h
      refine .inr ⟨by simpa using hgoal, ?_⟩
      simp only at h
      split at h
      · cases h
      · split at h
        · next hsome =>
          obtain ⟨entry, hentry⟩ := Option.isSome_iff_exists.mp hsome
          have hmem := List.mem_of_find?_eq_some hentry
          have hcheck := List.find?_some hentry
          rw [List.mem_filter, beq_iff_eq] at hmem
          simp only [Bool.and_eq_true, decide_eq_true_eq] at hcheck
          exact ⟨entry, hmem.1, hmem.2, hcheck.1, hcheck.2⟩
        · split at h <;> cases h

/-- A submission without a cycle ranks every item above its own dependencies. -/
theorem ranked_of_currentGraphCycle {payload : PlannerOutcomePayload} (hids : payload.ids.Nodup)
    (h : currentGraphCycle payload = none) :
    ∃ rank : String → Nat, ∀ spec ∈ payload.workItems, ∀ dependency ∈ spec.dependencies,
      dependency ∈ payload.ids → rank dependency < rank spec.id.val := by
  unfold currentGraphCycle at h
  cases hvisit : DepthFirst.visitAll (graphNext payload) (payload.workItems.length + 1)
      (payload.workItems.map (·.id.val)) with
  | none =>
    rw [hvisit] at h
    cases h
  | some order =>
    obtain ⟨horder, hall⟩ := DepthFirst.visitAll_sound hvisit
    refine ⟨DepthFirst.rank order, fun spec hspec dependency hdependency hmem => ?_⟩
    have hnode : spec.id.val ∈ order := hall _ (List.mem_map_of_mem hspec)
    refine DepthFirst.rank_lt_of_topoOrder horder hnode ?_
    exact mem_graphNext hids ⟨hmem, spec, hspec, rfl, hdependency⟩

/-- **A submission in which `plannerSubmissionError` finds nothing is a valid plan.** -/
theorem validPlan_of_error {state : PursuitState} {leg : Leg} {attempt : Attempt}
    {payload : PlannerOutcomePayload}
    (h : plannerSubmissionError state leg attempt payload = none) :
    ValidPlan leg attempt payload := by
  unfold plannerSubmissionError at h
  split at h
  · cases h
  · cases hduplicate : duplicateId payload.workItems [] with
    | some id =>
      rw [hduplicate] at h
      cases h
    | none =>
      have hnodup : payload.ids.Nodup := (duplicateId_eq_none hduplicate).1
      rw [hduplicate] at h
      simp only at h
      split at h
      · cases h
      · next hversion =>
        split at h
        · cases h
        · next hdependencies =>
          refine ⟨hnodup, ?_, ?_, ranked_of_currentGraphCycle hnodup h⟩
          · intro hgoal spec hspec entry hentry hin hid
            rw [if_pos (by simp [hgoal])] at hversion
            have hspec := firstError_eq_none hversion spec hspec
            split at hspec
            · cases hspec
            · next hnone =>
              refine hnone (List.any_eq_true.mpr ⟨entry, ?_, beq_iff_eq.mpr hid⟩)
              exact List.mem_filter.mpr ⟨hentry, hin⟩
          · intro spec hspec dependency hdependency
            have hspec := firstError_eq_none hdependencies spec hspec
            exact dependencyError_eq_none (firstError_eq_none hspec dependency hdependency)

end EphemeralAgent.Pursuit
