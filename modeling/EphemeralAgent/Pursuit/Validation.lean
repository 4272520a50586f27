import EphemeralAgent.Pursuit.Coherence
import EphemeralAgent.Pursuit.Identity
import EphemeralAgent.Pursuit.Lifetime

/-!
# What the validator accepts

`plannerSubmissionError` looks at the state before a submission.  It finds nothing exactly when
the leg that `applyPlannerSettlement` leaves makes sense: items that can be told apart,
dependencies that mean an item, and no cycle among the items of the goal version.

* `plannerSubmissionError_eq_none_iff` — the checks, read together
* `PlanStands` — a leg in which a plan makes sense
* `planner_validation` — the validator is sound and complete
-/

namespace EphemeralAgent.Pursuit

open EphemeralAgent.Lib EphemeralAgent.Workflow

/-! ## The checks find nothing in a valid plan -/

theorem firstError_of_forall {α : Type} {check : α → Option String} {items : List α}
    (h : ∀ item ∈ items, check item = none) : firstError check items = none := by
  induction items with
  | nil => rfl
  | cons a rest ih =>
    unfold firstError
    rw [h a List.mem_cons_self]
    exact ih fun item hitem => h item (List.mem_cons_of_mem _ hitem)

theorem duplicateId_of_nodup {items : List PlannerWorkItemSpec} {seen : List String}
    (hnodup : (items.map (·.id.val)).Nodup) (hseen : ∀ item ∈ items, item.id.val ∉ seen) :
    duplicateId items seen = none := by
  induction items generalizing seen with
  | nil => rfl
  | cons a rest ih =>
    rw [List.map_cons, List.nodup_cons] at hnodup
    unfold duplicateId
    rw [if_neg (hseen a List.mem_cons_self)]
    refine ih hnodup.2 fun item hitem hmem => ?_
    rcases List.mem_append.mp hmem with hmem | hmem
    · exact hseen item (List.mem_cons_of_mem _ hitem) hmem
    · refine hnodup.1 ?_
      rw [← List.mem_singleton.mp hmem]
      exact List.mem_map_of_mem hitem

section Checks

variable {leg : Leg} {attempt : Attempt} {payload : PlannerOutcomePayload}

theorem dependencyError_of_dependency {spec : PlannerWorkItemSpec} {dependency : String}
    (h : dependency ∈ payload.ids ∨ payload.legGoal = none ∧ ∃ entry ∈ allExisting leg,
      entry.item.id = dependency ∧ entry.attempt.sequence < attempt.sequence ∧
        entry.inVersion leg = true) :
    dependencyError leg attempt payload payload.ids spec dependency = none := by
  unfold dependencyError
  by_cases hcurrent : dependency ∈ payload.ids
  · rw [if_pos hcurrent]
  · rw [if_neg hcurrent]
    obtain ⟨hgoal, entry, hentry, hid, hsequence, hin⟩ := h.resolve_left hcurrent
    rw [if_neg (by simp [hgoal])]
    have hmatching : entry ∈ (allExisting leg).filter fun entry => entry.item.id == dependency :=
      List.mem_filter.mpr ⟨hentry, beq_iff_eq.mpr hid⟩
    simp only
    split
    · next hnil =>
      rw [hnil] at hmatching
      cases hmatching
    · next first rest hcons =>
      rw [if_pos]
      rw [List.find?_isSome]
      refine ⟨entry, hcons ▸ hmatching, ?_⟩
      simp [hsequence, hin]

/-- **The checks, read together**: a valid plan, and no goals in predefined mode. -/
theorem plannerSubmissionError_eq_none_iff {state : PursuitState} :
    plannerSubmissionError state leg attempt payload = none ↔
      ValidPlan leg attempt payload ∧
        (state.ext.pursuit.legGoalMode = .predefined →
          payload.legGoal = none ∧ payload.nextLegGoal = none) := by
  constructor
  · intro h
    refine ⟨validPlan_of_error h, fun hmode => ?_⟩
    unfold plannerSubmissionError at h
    split at h
    · cases h
    · next hgoals => simpa [hmode] using hgoals
  · rintro ⟨hvalid, hmode⟩
    unfold plannerSubmissionError
    rw [if_neg]
    · rw [duplicateId_of_nodup hvalid.nodup fun _ _ hmem => by cases hmem]
      simp only
      split
      · next error herror =>
        -- no existing item of the version has the id of a submitted one
        exfalso
        by_cases hgoal : payload.legGoal.isNone = true
        · rw [if_pos hgoal, firstError_of_forall] at herror
          · cases herror
          · intro spec hspec
            rw [if_neg]
            intro hany
            obtain ⟨entry, hentry, hid⟩ := List.any_eq_true.mp hany
            obtain ⟨hmem, hin⟩ := List.mem_filter.mp hentry
            exact hvalid.fresh (by simpa using hgoal) spec hspec entry hmem hin
              (beq_iff_eq.mp hid)
        · rw [if_neg hgoal] at herror
          cases herror
      · split
        · next error herror =>
          exfalso
          rw [firstError_of_forall] at herror
          · cases herror
          · intro spec hspec
            exact firstError_of_forall fun dependency hdependency =>
              dependencyError_of_dependency (hvalid.dependencies spec hspec dependency hdependency)
        · obtain ⟨rank, hrank⟩ := hvalid.ranked
          refine (currentGraphCycle_eq_none_iff payload).mpr
            (DepthFirst.not_transGen_of_rank rank fun id dependency hedge => ?_)
          obtain ⟨hmem, spec, hspec, rfl, hdependency⟩ := exists_of_mem_graphNext hedge
          exact hrank spec hspec dependency hdependency hmem
    · rintro ⟨hpredefined, hgoals⟩
      obtain ⟨hlegGoal, hnextLegGoal⟩ := hmode hpredefined
      simp [hlegGoal, hnextLegGoal] at hgoals

end Checks

/-! ## Plans that make sense -/

/-- The first item depends on the second, and both are items of the version. -/
structure Leg.DependsOn (leg : Leg) (version : Nat) (item other : WorkItem) : Prop where
  source : item ∈ leg.workItems ∧ item.legGoalVersion = version
  target : other ∈ leg.workItems ∧ other.legGoalVersion = version
  dependency : other.id ∈ item.dependsOn

/-- `dependencyStatus` reads an item of an attempt with this number or an earlier one. -/
def Leg.Resolves (leg : Leg) (version sequence : Nat) (id : String) : Prop :=
  ∃ attempt ∈ leg.attempts, attempt.sequence ≤ sequence ∧ ∃ target ∈ attempt.workItems,
    target.id = id ∧ target.legGoalVersion = version ∧
    (leg.workItems.find? fun item => item.id = id ∧ item.legGoalVersion = version) = some target ∧
    dependencyStatus leg version id = some target.status

/-- The leg makes sense after a submission of the attempt with this number. -/
structure PlanStands (mode : LegGoalMode) (leg : Leg) (sequence : Nat)
    (payload : PlannerOutcomePayload) : Prop where
  distinct : (leg.workItems.map fun item => (item.legGoalVersion, item.id)).Nodup
  resolved : ∀ spec ∈ payload.workItems, ∀ dependency ∈ spec.dependencies,
    leg.Resolves leg.legGoalVersion sequence dependency
  acyclic : ∀ item, ¬ Relation.TransGen (leg.DependsOn leg.legGoalVersion) item item
  predefined : mode = .predefined → payload.legGoal = none ∧ payload.nextLegGoal = none

section Stands

variable {leg : Leg} {earlier : List Attempt} {current : Attempt}
  {payload : PlannerOutcomePayload} {mode : LegGoalMode}

theorem Leg.Coherent.resolves (h : leg.Coherent) {attempt : Attempt}
    (hattempt : attempt ∈ leg.attempts) {target : WorkItem} (htarget : target ∈ attempt.workItems)
    {sequence : Nat} (hle : attempt.sequence ≤ sequence) :
    leg.Resolves target.legGoalVersion sequence target.id := by
  have hfind := h.find? (Leg.mem_workItems.mpr ⟨attempt, hattempt, htarget⟩)
  refine ⟨attempt, hattempt, hle, target, htarget, rfl, rfl, hfind, ?_⟩
  rw [dependencyStatus, hfind]
  rfl

/-- The submitted items are those of the last attempt. -/
theorem Leg.planned_current (hitems : current.workItems = []) :
    ∃ attempt ∈ (leg.planned earlier current payload).attempts,
      attempt.sequence = current.sequence ∧ attempt.workItems = payload.workItems.map
        (submittedItem leg.id (leg.planned earlier current payload).legGoalVersion) := by
  refine ⟨_, List.mem_append_right _ (List.mem_singleton_self _), rfl, ?_⟩
  simp only [Attempt.planSubmitted, Attempt.mark, hitems, List.nil_append]
  rfl

/-- **A valid plan stands.** -/
theorem ValidPlan.stands (hplan : ValidPlan leg current payload) (h : leg.Coherent)
    (hwell : leg.WellFormed) (hlatest : leg.Latest earlier current)
    (hitems : current.workItems = [])
    (hmode : mode = .predefined → payload.legGoal = none ∧ payload.nextLegGoal = none) :
    PlanStands mode (leg.planned earlier current payload) current.sequence payload := by
  have hnext := h.planned hwell hlatest hitems hplan
  refine ⟨hnext.distinct, fun spec hspec dependency hdependency => ?_, ?_, hmode⟩
  · rcases hplan.dependencies spec hspec dependency hdependency with
      hmem | ⟨hgoal, entry, hentry, rfl, hsequence, hin⟩
    · obtain ⟨other, hother, rfl⟩ := List.mem_map.mp hmem
      obtain ⟨attempt, hattempt, hnumber, hworkItems⟩ : ∃ attempt ∈
          (leg.planned earlier current payload).attempts, attempt.sequence = current.sequence ∧
            attempt.workItems = payload.workItems.map
              (submittedItem leg.id (leg.planned earlier current payload).legGoalVersion) :=
        Leg.planned_current hitems
      have htarget : submittedItem leg.id (leg.planned earlier current payload).legGoalVersion
          other ∈ attempt.workItems := by
        rw [hworkItems]
        exact List.mem_map_of_mem hother
      exact hnext.resolves hattempt htarget (Nat.le_of_eq hnumber)
    · obtain ⟨hattempt, hitem⟩ := mem_allExisting.mp hentry
      have hversion : entry.item.legGoalVersion =
          (leg.planned earlier current payload).legGoalVersion := by
        rw [(h.inVersion hwell hattempt hitem).mp hin, Leg.planned_legGoalVersion,
          if_neg (by simp [hgoal])]
      rw [hlatest.attempts, List.mem_append, List.mem_singleton] at hattempt
      rcases hattempt with hattempt | heq
      · rw [← hversion]
        exact hnext.resolves (List.mem_append_left _ (List.mem_map_of_mem hattempt)) hitem
          (Nat.le_of_lt hsequence)
      · rw [heq, hitems] at hitem
        cases hitem
  · obtain ⟨rank, hrank⟩ := hnext.ranked (leg.planned earlier current payload).legGoalVersion
    refine DepthFirst.not_transGen_of_rank (fun item => rank item.id) fun item other hdepends => ?_
    exact (hrank item hdepends.source.1 hdepends.source.2 other.id hdepends.dependency).1

/-- A cycle among submitted ids is one among the items that were submitted. -/
theorem exists_dependsOn_of_transGen (hlatest : leg.Latest earlier current)
    (hitems : current.workItems = []) {a b : String}
    (h : Relation.TransGen (fun a b => b ∈ graphNext payload a) a b) {target : WorkItem}
    (htarget : target ∈ (leg.planned earlier current payload).workItems)
    (hversion : target.legGoalVersion = (leg.planned earlier current payload).legGoalVersion)
    (hid : target.id = b) :
    ∃ item ∈ (leg.planned earlier current payload).workItems,
      item.legGoalVersion = (leg.planned earlier current payload).legGoalVersion ∧ item.id = a ∧
      Relation.TransGen ((leg.planned earlier current payload).DependsOn
        (leg.planned earlier current payload).legGoalVersion) item target := by
  -- the item of the first id of an edge depends on every item of the second
  have hedge : ∀ {a b : String} {target : WorkItem}, b ∈ graphNext payload a →
      target ∈ (leg.planned earlier current payload).workItems →
      target.legGoalVersion = (leg.planned earlier current payload).legGoalVersion →
      target.id = b → ∃ item, item.id = a ∧ (leg.planned earlier current payload).DependsOn
        (leg.planned earlier current payload).legGoalVersion item target := by
    intro a b target hmem htarget hversion hid
    obtain ⟨-, spec, hspec, hspecId, hdependency⟩ := exists_of_mem_graphNext hmem
    refine ⟨submittedItem leg.id (leg.planned earlier current payload).legGoalVersion spec,
      hspecId, ⟨?_, rfl⟩, ⟨htarget, hversion⟩, hid ▸ hdependency⟩
    rw [hlatest.planned_workItems hitems]
    exact List.mem_append_right _ (List.mem_map_of_mem hspec)
  induction h generalizing target with
  | single hab =>
    obtain ⟨item, hitemId, hdepends⟩ := hedge hab htarget hversion hid
    exact ⟨item, hdepends.source.1, hdepends.source.2, hitemId, .single hdepends⟩
  | tail _ hbc ih =>
    obtain ⟨middle, hmiddleId, hdepends⟩ := hedge hbc htarget hversion hid
    obtain ⟨item, hitem, hitemVersion, hitemId, hpath⟩ :=
      ih hdepends.source.1 hdepends.source.2 hmiddleId
    exact ⟨item, hitem, hitemVersion, hitemId, hpath.tail hdepends⟩

/-- **A plan that stands is valid.** -/
theorem PlanStands.valid {sequence : Nat}
    (hstands : PlanStands mode (leg.planned earlier current payload) sequence payload)
    (h : leg.Coherent) (hwell : leg.WellFormed) (hlatest : leg.Latest earlier current)
    (hitems : current.workItems = []) : ValidPlan leg current payload := by
  have hworkItems : (leg.planned earlier current payload).workItems = leg.workItems ++
      payload.workItems.map
        (submittedItem leg.id (leg.planned earlier current payload).legGoalVersion) :=
    hlatest.planned_workItems hitems
  have hdistinct := hstands.distinct
  rw [hworkItems, List.map_append, List.map_map] at hdistinct
  have hnodup : payload.ids.Nodup := by
    refine List.Nodup.of_map
      (Prod.mk (leg.planned earlier current payload).legGoalVersion) ?_
    unfold PlannerOutcomePayload.ids
    rw [List.map_map]
    exact hdistinct.of_append_right
  refine ⟨hnodup, ?_, ?_, ranked_of_currentGraphCycle hnodup
    ((currentGraphCycle_eq_none_iff payload).mpr ?_)⟩
  · intro hgoal spec hspec entry hentry hin hid
    obtain ⟨hattempt, hitem⟩ := mem_allExisting.mp hentry
    have hversion := (h.inVersion hwell hattempt hitem).mp hin
    refine List.disjoint_of_nodup_append hdistinct
      (List.mem_map_of_mem (Leg.mem_workItems.mpr ⟨_, hattempt, hitem⟩))
      (List.mem_map.mpr ⟨spec, hspec, ?_⟩)
    show ((leg.planned earlier current payload).legGoalVersion, spec.id.val) = _
    rw [Leg.planned_legGoalVersion, if_neg (by simp [hgoal]), hversion, hid]
  · intro spec hspec dependency hdependency
    obtain ⟨attempt, hattempt, -, target, htarget, rfl, hversion, -⟩ :=
      hstands.resolved spec hspec dependency hdependency
    by_cases hmem : target.id ∈ payload.ids
    · exact .inl hmem
    · -- what the plan does not submit is an item of an earlier attempt
      right
      have hold : target ∈ leg.workItems := by
        have hin := Leg.mem_workItems.mpr ⟨attempt, hattempt, htarget⟩
        rw [hworkItems] at hin
        rcases List.mem_append.mp hin with hin | hin
        · exact hin
        · obtain ⟨other, hother, rfl⟩ := List.mem_map.mp hin
          exact absurd (List.mem_map_of_mem hother) hmem
      have hle := h.version_le hwell hold
      -- a goal would make a new version, and the target is of an old one
      have hgoal : payload.legGoal = none := by
        by_contra hsome
        rw [Leg.planned_legGoalVersion, if_pos (by simpa [Option.isSome_iff_ne_none] using hsome)]
          at hversion
        omega
      rw [Leg.planned_legGoalVersion, if_neg (by simp [hgoal])] at hversion
      obtain ⟨before, hbefore, hin⟩ := Leg.mem_workItems.mp hold
      refine ⟨hgoal, ⟨before, target⟩, mem_allExisting.mpr ⟨hbefore, hin⟩, rfl, ?_,
        (h.inVersion hwell hbefore hin).mpr hversion⟩
      have hnumbered := (Leg.wellFormed_iff hlatest.attempts).mp hwell
      rw [hlatest.attempts, List.mem_append, List.mem_singleton] at hbefore
      rcases hbefore with hbefore | heq
      · show before.sequence < current.sequence
        have hnumber := List.mem_map_of_mem (f := fun a : Attempt => a.sequence) hbefore
        rw [hnumbered.numbered, List.mem_range'_1] at hnumber
        rw [hnumbered.number]
        omega
      · rw [heq, hitems] at hin
        cases hin
  · intro id hcycle
    obtain ⟨next, hedge, -⟩ := Relation.TransGen.head'_iff.mp hcycle
    obtain ⟨-, spec, hspec, hid, -⟩ := exists_of_mem_graphNext hedge
    have hmem : submittedItem leg.id (leg.planned earlier current payload).legGoalVersion spec ∈
        (leg.planned earlier current payload).workItems := by
      rw [hworkItems]
      exact List.mem_append_right _ (List.mem_map_of_mem hspec)
    -- a cycle of the plan is a path of the leg back to the same item
    obtain ⟨item, hitem, hitemVersion, hitemId, hpath⟩ :=
      exists_dependsOn_of_transGen hlatest hitems hcycle hmem rfl hid
    obtain rfl := eq_of_key_eq hstands.distinct hitem hmem
      (Prod.ext hitemVersion (hitemId.trans hid.symm))
    exact hstands.acyclic _ hpath

end Stands

/-! ## The leg that a submission leaves -/

section Submitted

variable {host : Host} {clock : Stamp} {state : PursuitState} {leg : Leg}
  {earlier : List Attempt} {current : Attempt} {payload : PlannerOutcomePayload}

/-- The submission of the last attempt of a leg replaces the leg by the planned one. -/
theorem applyPlannerSettlement_planned (hdated : Dated host clock state)
    (hleg : leg ∈ state.ext.legs) (hattempts : leg.attempts = earlier ++ [current])
    {accepted : WorkflowNodeOutcome}
    (hparse : PlannerOutcomePayload.parse accepted.outcome = some payload)
    (planId : String) (number : Rat) :
    ∃ applied, applyPlannerSettlement host state leg.id current.id planId number
        (.completed accepted) = .ok applied ∧
      applied.state.ext.legs.find? (·.id == leg.id) =
        some (leg.planned earlier current payload) := by
  have hmem : current ∈ leg.attempts := by
    rw [hattempts]
    exact List.mem_append_right _ (List.mem_singleton_self _)
  obtain ⟨hfindLeg, -, hfind⟩ := findAttempt_of_dated hdated hleg hmem
  have hids := (hdated.legs leg hleg).nodup
  rw [hattempts, List.map_append, List.map_singleton] at hids
  have hdeclared : (leg.declareGoal current.id payload).attempts =
      earlier.map (·.mark current.id payload) ++ [current.mark current.id payload] := by
    rw [Leg.declareGoal_attempts, hattempts, List.map_append, List.map_singleton]
  -- no earlier attempt has the id of the last one
  have hplanned : (leg.declareGoal current.id payload).updateAttempt current.id
      (·.planSubmitted (leg.declareGoal current.id payload).id
        (leg.declareGoal current.id payload).legGoalVersion payload) =
      leg.planned earlier current payload := by
    unfold Leg.updateAttempt
    rw [hdeclared, updateFirst_append_last]
    · simp only [Leg.planned, Leg.declareGoal_id]
    · intro a ha
      obtain ⟨b, hb, rfl⟩ := List.mem_map.mp ha
      refine beq_eq_false_iff_ne.mpr fun heq => ?_
      refine List.disjoint_of_nodup_append hids (List.mem_map_of_mem hb) ?_
      rw [← show b.id = current.id from heq]
      exact List.mem_singleton_self _
    · exact beq_self_eq_true current.id
  simp only [applyPlannerSettlement, hfind, parseOrThrow, hparse]
  refine ⟨_, rfl, ?_⟩
  show (updateFirst (·.id == leg.id) _ state.ext.legs).find? _ = _
  rw [find?_updateFirst hfindLeg]
  · rw [hplanned]
  · rw [hplanned]
    exact beq_iff_eq.mpr (Leg.declareGoal_id leg current.id payload)

/-- Items of a coherent leg have keys of their own. -/
theorem Leg.Coherent.nodup_keys (h : leg.Coherent) (hplain : ':' ∉ leg.id.toList) :
    (leg.workItems.map (·.key)).Nodup := by
  refine List.Nodup.map_on (fun item hitem other hother heq => ?_) (h.distinct.of_map _)
  rw [h.keyed item hitem, h.keyed other hother] at heq
  obtain ⟨-, hversion, hid⟩ := workItemKey_inj hplain hplain heq
  exact eq_of_key_eq h.distinct hitem hother (Prod.ext hversion hid)

end Submitted

/-- Every leg of every run is well formed and coherent, and its ids are distinct. -/
theorem coherent_of_state {host : Host} (hhost : host.Random) {definition : WorkflowDefinition}
    {args : JsonObject} {toJsonObject : PursuitState → Except String Json} {ls : List Label}
    {s : WorkflowRunInstance PursuitFields}
    (run : Run (step (pursuitRequest host definition args toJsonObject)) Free initial ls s)
    {state : PursuitState} (hstate : s.state = some state) :
    WellFormed state ∧ Coherent state ∧ Dated host s.clock state := by
  rcases followed_of_run run with hnone | ⟨first, cs, pursuit, h⟩
  · rw [hnone.state] at hstate
    cases hstate
  · obtain ⟨hext, -⟩ := h.ext hstate
    refine ⟨h.sound.wellFormed.of_ext hext, ?_, dated_of_run hhost run state hstate⟩
    obtain ⟨stamp, parsed, hparsed, rfl⟩ := h.created
    have hsound := sound_createInitialState host stamp (PursuitArgs.parse_spec hparsed).1
    intro leg hleg
    rw [hext] at hleg
    exact coherent_of_run (createInitialState_coherent stamp parsed) hsound h.run leg hleg

/-- **The validator is sound and complete**: it finds nothing in a payload exactly when the leg that
the settlement leaves makes sense.  The keys of its items are distinct then. -/
theorem planner_validation (host : Host) (hhost : host.Random) (definition : WorkflowDefinition)
    (args : JsonObject) (toJsonObject : PursuitState → Except String Json) {ls : List Label}
    {s : WorkflowRunInstance PursuitFields}
    (run : Run (step (pursuitRequest host definition args toJsonObject)) Free initial ls s)
    {state : PursuitState} (hstate : s.state = some state) {leg : Leg}
    (hleg : leg ∈ state.ext.legs) {attempt : Attempt} (hattempt : attempt ∈ leg.attempts)
    (hplan : attempt.plan.status = .notStarted) {accepted : WorkflowNodeOutcome}
    {payload : PlannerOutcomePayload}
    (hparse : PlannerOutcomePayload.parse accepted.outcome = some payload) (number : Rat) :
    ∃ applied after, applyPlannerSettlement host state leg.id attempt.id attempt.plan.id number
        (.completed accepted) = .ok applied ∧
      applied.state.ext.legs.find? (·.id == leg.id) = some after ∧
      (plannerSubmissionError state leg attempt payload = none ↔
        PlanStands state.ext.pursuit.legGoalMode after attempt.sequence payload) ∧
      (plannerSubmissionError state leg attempt payload = none →
        (after.workItems.map (·.key)).Nodup) := by
  obtain ⟨hwell, hcoherent, hdated⟩ := coherent_of_state hhost run hstate
  have hlegWell := hwell.legs leg hleg
  have hlegCoherent := hcoherent leg hleg
  -- the only attempt that can wait for its plan is the last one
  obtain ⟨earlier, current, hlatest⟩ := hlegCoherent.latest
  obtain rfl : attempt = current := by
    rw [hlatest.attempts, List.mem_append, List.mem_singleton] at hattempt
    rcases hattempt with hattempt | heq
    · exact absurd hplan (hlatest.past attempt hattempt)
    · exact heq
  have hitems := hlatest.items hplan
  obtain ⟨applied, happly, hfind⟩ :=
    applyPlannerSettlement_planned hdated hleg hlatest.attempts hparse attempt.plan.id number
  refine ⟨applied, _, happly, hfind, ⟨fun h => ?_, fun h => ?_⟩, fun h => ?_⟩
  · obtain ⟨hvalid, hmode⟩ := plannerSubmissionError_eq_none_iff.mp h
    exact hvalid.stands hlegCoherent hlegWell hlatest hitems hmode
  · exact plannerSubmissionError_eq_none_iff.mpr
      ⟨h.valid hlegCoherent hlegWell hlatest hitems, h.predefined⟩
  · have hnext := hlegCoherent.planned hlegWell hlatest hitems (validPlan_of_error h)
    refine hnext.nodup_keys ?_
    rw [show (leg.planned earlier attempt payload).id = leg.id from Leg.declareGoal_id ..]
    exact (hdated.legs leg hleg).id.plain hhost

/-- The outcome of a planner whose second item waits for its first. -/
def dependentItems : Json :=
  .obj
    [("summary", .str "two items"),
      ("work_items", .arr
        [.obj
          [("id", .str "a"), ("agent_name", .str "worker"), ("title", .str "A"),
            ("spec", .str "do a")],
        .obj
          [("id", .str "b"), ("agent_name", .str "worker"), ("title", .str "B"),
            ("spec", .str "do b"), ("depends_on", .arr [.str "a"])]])]

/-- The settlement of a planner with this outcome. -/
def dependentPlan : WorkflowNodeOutcome :=
  { node := agentBindings.planner, metadata := none, outcomeName := "plan", outcome := dependentItems }

/-- The planner of a new pursuit is about to submit these items. -/
theorem planner_validation_two :
    ∃ s state leg attempt payload applied after,
      Run (step boundRequest) Free initial [.start, .launchResolved .start, .resume .start] s ∧
      s.state = some state ∧ leg ∈ state.ext.legs ∧ attempt ∈ leg.attempts ∧
      attempt.plan.status = .notStarted ∧
      PlannerOutcomePayload.parse dependentPlan.outcome = some payload ∧
      payload.workItems.map (·.dependencies) = [[], ["a"]] ∧
      plannerSubmissionError state leg attempt payload = none ∧
      applyPlannerSettlement spellingHost state leg.id attempt.id attempt.plan.id 1
        (.completed dependentPlan) = .ok applied ∧
      applied.state.ext.legs.find? (·.id == leg.id) = some after ∧
      PlanStands .dynamic after 1 payload ∧ (after.workItems.map (·.key)).Nodup := by
  obtain ⟨s, hs, hp⟩ := exists_run (step boundRequest) Free initial
    [.start, .launchResolved .start, .resume .start]
    (fun s => s.state.any fun state => state.ext.pursuit.legGoalMode = .dynamic ∧
      state.ext.legs.any fun leg => leg.attempts.any fun attempt =>
        attempt.plan.status = .notStarted ∧ attempt.sequence = 1 ∧
          (PlannerOutcomePayload.parse dependentPlan.outcome).any fun payload =>
            payload.workItems.map (·.dependencies) = [[], ["a"]] ∧
              (plannerSubmissionError state leg attempt payload).isNone) (by decide +kernel)
  obtain ⟨state, hstate, hfields⟩ := (Option.any_eq_true _ _).mp hp
  obtain ⟨hmode, hlegs⟩ := of_decide_eq_true hfields
  obtain ⟨leg, hleg, hattempts⟩ := List.any_eq_true.mp hlegs
  obtain ⟨attempt, hattempt, htests⟩ := List.any_eq_true.mp hattempts
  obtain ⟨hplan, hsequence, hpayloads⟩ := of_decide_eq_true htests
  obtain ⟨payload, hparse, hsubmission⟩ := (Option.any_eq_true _ _).mp hpayloads
  obtain ⟨hchained, herror⟩ := of_decide_eq_true hsubmission
  have hnone := Option.isNone_iff_eq_none.mp herror
  obtain ⟨applied, after, happly, hfind, hiff, hnodup⟩ :=
    planner_validation spellingHost spellingHost_random boundDefinition _ _ hs hstate hleg hattempt
      hplan hparse 1
  rw [hmode, hsequence] at hiff
  exact ⟨s, state, leg, attempt, payload, applied, after, hs, hstate, hleg, hattempt, hplan, hparse,
    hchained, hnone, happly, hfind, hiff.mp hnone, hnodup hnone⟩

end EphemeralAgent.Pursuit
