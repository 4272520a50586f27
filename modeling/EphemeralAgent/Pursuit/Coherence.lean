import Mathlib.Logic.Relation
import EphemeralAgent.Pursuit.Structure
import EphemeralAgent.Pursuit.Tickets

/-!
# Coherent legs

The work items of a leg, over all its attempts and goal versions: no two items of one version
share an id, an attempt has items of its own version only, later items have later versions, and
dependencies of an item are items of its version that rank lower.

* `Leg.Coherent` — the invariant
* `Leg.Coherent.planned` — a valid plan keeps it
* `Called.coherent`, `coherent_of_run` — every call keeps it
-/

namespace EphemeralAgent.Pursuit

open EphemeralAgent.Lib EphemeralAgent.Workflow

/-! ## The invariant -/

/-- What tells the work items of a leg apart. -/
def WorkItem.versionedId (item : WorkItem) : Nat × String :=
  (item.legGoalVersion, item.id)

/-- The dependencies of a version are items of that version, and they rank lower. -/
def Leg.Ranked (leg : Leg) (version : Nat) : Prop :=
  ∃ rank : String → Nat, ∀ item ∈ leg.workItems, item.legGoalVersion = version →
    ∀ dependency ∈ item.dependsOn, rank dependency < rank item.id ∧
      ∃ target ∈ leg.workItems, target.id = dependency ∧ target.legGoalVersion = version

/-- The last attempt of the leg is for its current goal, and the only one that may wait for its
plan. -/
structure Leg.Latest (leg : Leg) (earlier : List Attempt) (current : Attempt) : Prop where
  attempts : leg.attempts = earlier ++ [current]
  version : current.legGoalVersion = leg.legGoalVersion
  past : ∀ attempt ∈ earlier, attempt.plan.status ≠ .notStarted
  items : current.plan.status = .notStarted → current.workItems = []

structure Leg.Coherent (leg : Leg) : Prop where
  distinct : (leg.workItems.map (·.versionedId)).Nodup
  keyed : ∀ item ∈ leg.workItems, item.key = workItemKey leg.id item.legGoalVersion item.id
  versions : ∀ attempt ∈ leg.attempts, ∀ item ∈ attempt.workItems,
    item.legGoalVersion = attempt.legGoalVersion
  ordered : (leg.workItems.map (·.legGoalVersion)).Pairwise (· ≤ ·)
  latest : ∃ earlier current, leg.Latest earlier current
  ranked : ∀ version, leg.Ranked version

def Coherent (state : PursuitState) : Prop :=
  ∀ leg ∈ state.ext.legs, leg.Coherent

section Coherent

variable {leg leg' : Leg} {earlier earlier' : List Attempt} {current current' : Attempt}
  {payload : PlannerOutcomePayload}

/-- Work items of one version are found by their ids. -/
theorem Leg.Coherent.find? (h : leg.Coherent) {item : WorkItem} (hitem : item ∈ leg.workItems) :
    (leg.workItems.find? fun other =>
      other.id = item.id ∧ other.legGoalVersion = item.legGoalVersion) = some item := by
  have hfind := find?_of_nodup h.distinct hitem
  rw [← hfind]
  congr 1
  funext other
  simp [WorkItem.versionedId, Prod.ext_iff, Bool.beq_eq_decide_eq, and_comm]

/-- The items of an attempt are items of its leg. -/
theorem Leg.Coherent.version_le (h : leg.Coherent) (hwell : leg.WellFormed) {item : WorkItem}
    (hitem : item ∈ leg.workItems) : item.legGoalVersion ≤ leg.legGoalVersion := by
  obtain ⟨attempt, hattempt, hitem⟩ := Leg.mem_workItems.mp hitem
  rw [h.versions attempt hattempt item hitem]
  exact (hwell.attempts attempt hattempt).version_le

/-- An item of the current goal version counts as existing for the planner. -/
theorem Leg.Coherent.inVersion (h : leg.Coherent) (hwell : leg.WellFormed) {attempt : Attempt}
    (hattempt : attempt ∈ leg.attempts) {item : WorkItem} (hitem : item ∈ attempt.workItems) :
    ExistingItem.inVersion leg ⟨attempt, item⟩ = true ↔
      item.legGoalVersion = leg.legGoalVersion := by
  have hversion := h.versions attempt hattempt item hitem
  have hconsistent := (hwell.attempts attempt hattempt).consistent
  simp only [ExistingItem.inVersion, Bool.and_eq_true, beq_iff_eq]
  rw [hconsistent, hversion]
  constructor
  · exact fun h => h.2
  · exact fun h => ⟨h, h⟩

/-! ## Items that end -/

/-- Another list of attempts with the same items. -/
theorem Leg.Coherent.of_workItems (h : leg.Coherent) (hid : leg'.id = leg.id)
    (hitems : leg'.workItems = leg.workItems)
    (hversions : ∀ attempt ∈ leg'.attempts, ∀ item ∈ attempt.workItems,
      item.legGoalVersion = attempt.legGoalVersion)
    (hlatest : leg'.Latest earlier' current') : leg'.Coherent := by
  refine ⟨?_, ?_, hversions, ?_, ⟨earlier', current', hlatest⟩, fun version => ?_⟩
  · rw [hitems]
    exact h.distinct
  · rw [hitems, hid]
    exact h.keyed
  · rw [hitems]
    exact h.ordered
  · unfold Leg.Ranked
    rw [hitems]
    exact h.ranked version

theorem Leg.Latest.advances (h : leg.Latest earlier current) (hadv : leg.Advances leg') :
    ∃ earlier' current', leg'.Latest earlier' current' := by
  have hattempts := hadv.attempts
  rw [h.attempts] at hattempts
  obtain ⟨earlier', current', heq, hearlier, hcurrent⟩ := forall₂_append_last hattempts
  refine ⟨earlier', current', heq, ?_, fun b hb => ?_, fun hplan => ?_⟩
  · rw [hcurrent.eq, hadv.legGoalVersion]
    exact h.version
  · obtain ⟨a, ha, hab⟩ := exists_of_forall₂_right hearlier hb
    rw [hab.plan]
    exact h.past a ha
  · rw [hcurrent.plan] at hplan
    have hlength := hcurrent.items.length_eq
    rw [h.items hplan] at hlength
    exact List.eq_nil_of_length_eq_zero hlength.symm

theorem Leg.Ranked.advances {version : Nat} (h : leg.Ranked version) (hadv : leg.Advances leg') :
    leg'.Ranked version := by
  obtain ⟨rank, hrank⟩ := h
  refine ⟨rank, fun j hj hversion dependency hdependency => ?_⟩
  obtain ⟨i, hi, hij⟩ := exists_of_forall₂_right hadv.workItems hj
  rw [hij.legGoalVersion] at hversion
  rw [hij.dependsOn] at hdependency
  obtain ⟨hlow, target, htarget, htargetId, htargetVersion⟩ :=
    hrank i hi hversion dependency hdependency
  obtain ⟨target', htarget', hadvance⟩ := exists_of_forall₂_left hadv.workItems htarget
  refine ⟨by rw [hij.id]; exact hlow, target', htarget', ?_, ?_⟩
  · rw [hadvance.id, htargetId]
  · rw [hadvance.legGoalVersion, htargetVersion]

theorem Leg.Coherent.advances (h : leg.Coherent) (hadv : leg.Advances leg') : leg'.Coherent := by
  have hitems := hadv.workItems
  obtain ⟨earlier, current, hlatest⟩ := h.latest
  refine ⟨?_, fun j hj => ?_, fun b hb j hj => ?_, ?_, hlatest.advances hadv,
    fun version => (h.ranked version).advances hadv⟩
  · have hids := map_eq_of_forall₂ (f := fun i : WorkItem => i.versionedId)
      (g := fun j : WorkItem => j.versionedId)
      (fun i j (hij : i.Advances j) => by
        simp only [WorkItem.versionedId, hij.legGoalVersion, hij.id]) hitems
    rw [hids]
    exact h.distinct
  · obtain ⟨i, hi, hij⟩ := exists_of_forall₂_right hitems hj
    rw [hij.key, hij.legGoalVersion, hij.id, hadv.id]
    exact h.keyed i hi
  · obtain ⟨a, ha, hab⟩ := exists_of_forall₂_right hadv.attempts hb
    obtain ⟨i, hi, hij⟩ := exists_of_forall₂_right hab.items hj
    rw [hij.legGoalVersion, hab.eq]
    exact h.versions a ha i hi
  · have hversions := map_eq_of_forall₂ (f := fun i : WorkItem => i.legGoalVersion)
      (g := fun j : WorkItem => j.legGoalVersion)
      (fun i j (hij : i.Advances j) => hij.legGoalVersion) hitems
    rw [hversions]
    exact h.ordered

/-! ## Plans -/

/-- The goal version of the leg once the plan has been submitted. -/
theorem Leg.planned_legGoalVersion :
    (leg.planned earlier current payload).legGoalVersion =
      if payload.legGoal.isSome then leg.legGoalVersion + 1 else leg.legGoalVersion :=
  Leg.declareGoal_legGoalVersion leg current.id payload

/-- The items of the plan follow those that the leg has. -/
theorem Leg.Latest.planned_workItems (h : leg.Latest earlier current)
    (hitems : current.workItems = []) :
    (leg.planned earlier current payload).workItems = leg.workItems ++
      payload.workItems.map
        (submittedItem leg.id (leg.planned earlier current payload).legGoalVersion) := by
  have hleg : leg.workItems = earlier.flatMap (·.workItems) := by
    unfold Leg.workItems
    rw [h.attempts, List.flatMap_append, List.flatMap_singleton, hitems, List.append_nil]
  rw [Leg.planned_workItems hitems, hleg]
  rfl

/-- No item that the leg has is in the way of a valid plan. -/
theorem ValidPlan.fresh_workItems (hplan : ValidPlan leg current payload) (h : leg.Coherent)
    (hwell : leg.WellFormed) {item : WorkItem} (hitem : item ∈ leg.workItems)
    (hversion : item.legGoalVersion = (leg.planned earlier current payload).legGoalVersion) :
    item.id ∉ payload.ids := by
  rw [Leg.planned_legGoalVersion] at hversion
  by_cases hgoal : payload.legGoal.isSome = true
  · -- nothing has a version that is still to come
    rw [if_pos hgoal] at hversion
    have hle := h.version_le hwell hitem
    omega
  · rw [if_neg hgoal] at hversion
    intro hmem
    obtain ⟨spec, hspec, hid⟩ := List.mem_map.mp hmem
    obtain ⟨attempt, hattempt, hin⟩ := Leg.mem_workItems.mp hitem
    refine hplan.fresh (by simpa using hgoal) spec hspec ⟨attempt, item⟩
      (mem_allExisting.mpr ⟨hattempt, hin⟩) ?_ hid.symm
    exact (h.inVersion hwell hattempt hin).mpr hversion

theorem exists_bound {α : Type*} (f : α → Nat) (xs : List α) : ∃ bound, ∀ a ∈ xs, f a ≤ bound := by
  induction xs with
  | nil => exact ⟨0, by simp⟩
  | cons a rest ih =>
    obtain ⟨bound, hbound⟩ := ih
    refine ⟨max (f a) bound, fun b hb => ?_⟩
    rcases List.mem_cons.mp hb with rfl | hb
    · exact Nat.le_max_left ..
    · exact Nat.le_trans (hbound b hb) (Nat.le_max_right ..)

/-- **The items of a valid plan rank above those that the leg has.** -/
theorem Leg.Coherent.ranked_planned (h : leg.Coherent) (hwell : leg.WellFormed)
    (hlatest : leg.Latest earlier current) (hitems : current.workItems = [])
    (hplan : ValidPlan leg current payload) (version : Nat) :
    (leg.planned earlier current payload).Ranked version := by
  obtain ⟨old, hold⟩ := h.ranked version
  obtain ⟨new, hnew⟩ := hplan.ranked
  obtain ⟨bound, hbound⟩ := exists_bound (fun item : WorkItem => old item.id) leg.workItems
  unfold Leg.Ranked
  rw [hlatest.planned_workItems hitems]
  by_cases hversion : version = (leg.planned earlier current payload).legGoalVersion
  · subst hversion
    have hfresh : ∀ item ∈ leg.workItems,
        item.legGoalVersion = (leg.planned earlier current payload).legGoalVersion →
        item.id ∉ payload.ids :=
      fun item hitem => hplan.fresh_workItems h hwell hitem
    -- the new items rank above all old ones, in the order of the plan
    refine ⟨fun id => if id ∈ payload.ids then bound + 1 + new id else old id,
      fun item hitem hitemVersion dependency hdependency => ?_⟩
    dsimp only
    rcases List.mem_append.mp hitem with hitem | hitem
    · obtain ⟨hlow, target, htarget, htargetId, htargetVersion⟩ :=
        hold item hitem hitemVersion dependency hdependency
      refine ⟨?_, target, List.mem_append_left _ htarget, htargetId, htargetVersion⟩
      have hnot := hfresh target htarget htargetVersion
      rw [htargetId] at hnot
      rw [if_neg hnot, if_neg (hfresh item hitem hitemVersion)]
      exact hlow
    · obtain ⟨spec, hspec, rfl⟩ := List.mem_map.mp hitem
      have hid : (submittedItem leg.id (leg.planned earlier current payload).legGoalVersion
          spec).id ∈ payload.ids := List.mem_map_of_mem hspec
      rw [if_pos hid]
      rcases hplan.dependencies spec hspec dependency hdependency with
        hmem | ⟨hgoal, entry, hentry, hentryId, -, hin⟩
      · rw [if_pos hmem]
        refine ⟨Nat.add_lt_add_left (hnew spec hspec dependency hdependency hmem) _, ?_⟩
        obtain ⟨other, hother, hotherId⟩ := List.mem_map.mp hmem
        exact ⟨_, List.mem_append_right _ (List.mem_map_of_mem hother), hotherId, rfl⟩
      · -- an item of an earlier attempt, which ranks below every item of the plan
        obtain ⟨hattempt, hentryItem⟩ := mem_allExisting.mp hentry
        have hmem : entry.item ∈ leg.workItems :=
          Leg.mem_workItems.mpr ⟨_, hattempt, hentryItem⟩
        have hentryVersion : entry.item.legGoalVersion =
            (leg.planned earlier current payload).legGoalVersion := by
          rw [(h.inVersion hwell hattempt hentryItem).mp hin, Leg.planned_legGoalVersion,
            if_neg (by simp [hgoal])]
        have hnot := hfresh entry.item hmem hentryVersion
        rw [hentryId] at hnot
        rw [if_neg hnot]
        refine ⟨?_, entry.item, List.mem_append_left _ hmem, hentryId, hentryVersion⟩
        have hle := hbound entry.item hmem
        rw [hentryId] at hle
        omega
  · -- the plan adds nothing to another version
    refine ⟨old, fun item hitem hitemVersion dependency hdependency => ?_⟩
    rcases List.mem_append.mp hitem with hitem | hitem
    · obtain ⟨hlow, target, htarget, htargetId, htargetVersion⟩ :=
        hold item hitem hitemVersion dependency hdependency
      exact ⟨hlow, target, List.mem_append_left _ htarget, htargetId, htargetVersion⟩
    · obtain ⟨spec, -, rfl⟩ := List.mem_map.mp hitem
      exact absurd hitemVersion.symm hversion

/-- **A valid plan keeps the leg coherent.** -/
theorem Leg.Coherent.planned (h : leg.Coherent) (hwell : leg.WellFormed)
    (hlatest : leg.Latest earlier current) (hitems : current.workItems = [])
    (hplan : ValidPlan leg current payload) :
    (leg.planned earlier current payload).Coherent := by
  have hworkItems : (leg.planned earlier current payload).workItems = leg.workItems ++
      payload.workItems.map
        (submittedItem leg.id (leg.planned earlier current payload).legGoalVersion) :=
    hlatest.planned_workItems hitems
  have hid : (leg.planned earlier current payload).id = leg.id := Leg.declareGoal_id ..
  have hcurrent : current ∈ leg.attempts := by
    rw [hlatest.attempts]
    exact List.mem_append_right _ (List.mem_singleton_self _)
  -- the plan is filed under the version that it declares, or the current one
  have hversion : (if payload.legGoal.isSome then
      (leg.planned earlier current payload).legGoalVersion else current.legGoalVersion) =
        (leg.planned earlier current payload).legGoalVersion := by
    rw [Leg.planned_legGoalVersion, hlatest.version]
    split <;> rfl
  refine ⟨?_, ?_, ?_, ?_, ⟨_, _, rfl, hversion, ?_, ?_⟩,
    h.ranked_planned hwell hlatest hitems hplan⟩
  · rw [hworkItems, List.map_append, List.map_map]
    refine List.Nodup.append h.distinct ?_ ?_
    · have hnodup := hplan.nodup.map (f := fun id =>
        ((leg.planned earlier current payload).legGoalVersion, id))
        fun _ _ heq => (Prod.mk.inj heq).2
      unfold PlannerOutcomePayload.ids at hnodup
      rwa [List.map_map] at hnodup
    · -- an item submitted again would break the freshness of the plan
      intro pair hpair hnew
      obtain ⟨item, hitem, rfl⟩ := List.mem_map.mp hpair
      obtain ⟨spec, hspec, heq⟩ := List.mem_map.mp hnew
      obtain ⟨hspecVersion, hspecId⟩ := Prod.mk.inj heq
      have hsame : item.legGoalVersion = (leg.planned earlier current payload).legGoalVersion :=
        hspecVersion.symm
      refine hplan.fresh_workItems h hwell hitem hsame ?_
      rw [← hspecId]
      exact List.mem_map_of_mem hspec
  · rw [hworkItems, hid]
    intro item hitem
    rcases List.mem_append.mp hitem with hitem | hitem
    · exact h.keyed item hitem
    · obtain ⟨spec, -, rfl⟩ := List.mem_map.mp hitem
      rfl
  · intro attempt hattempt item hitem
    rcases List.mem_append.mp hattempt with hattempt | hattempt
    · obtain ⟨a, ha, rfl⟩ := List.mem_map.mp hattempt
      refine h.versions a ?_ item hitem
      rw [hlatest.attempts]
      exact List.mem_append_left _ ha
    · obtain rfl := List.mem_singleton.mp hattempt
      simp only [Attempt.planSubmitted, Attempt.mark, hitems, List.nil_append] at hitem
      obtain ⟨spec, -, rfl⟩ := List.mem_map.mp hitem
      exact hversion.symm
  · -- the new items have the latest version
    rw [hworkItems, List.map_append, List.map_map, List.pairwise_append]
    refine ⟨h.ordered, ?_, fun a ha b hb => ?_⟩
    · refine List.pairwise_map.mpr (List.pairwise_of_forall fun _ _ => ?_)
      exact Nat.le_refl (leg.planned earlier current payload).legGoalVersion
    · obtain ⟨item, hitem, rfl⟩ := List.mem_map.mp ha
      obtain ⟨spec, -, rfl⟩ := List.mem_map.mp hb
      show item.legGoalVersion ≤ (leg.planned earlier current payload).legGoalVersion
      have hle := h.version_le hwell hitem
      rw [Leg.planned_legGoalVersion]
      split <;> omega
  · intro attempt hattempt
    obtain ⟨a, ha, rfl⟩ := List.mem_map.mp hattempt
    exact hlatest.past a ha
  · intro hplan
    cases hplan

/-! ## Calls -/

section Called

variable {host : Host} {state next : PursuitState} {closed : List Leg}

/-- The open leg is seen from its current attempt. -/
theorem Leg.Coherent.latest_of_open (h : leg.Coherent) (hopen : leg.Open earlier current) :
    leg.Latest earlier current := by
  obtain ⟨earlier', current', hlatest⟩ := h.latest
  have heq := hlatest.attempts.symm.trans hopen.attempts
  obtain ⟨rfl, hsingle⟩ := List.append_inj' heq rfl
  obtain rfl := List.singleton_inj.mp hsingle
  exact hlatest

theorem Settled.coherent {settled : NodeRunStatus} {metadata : PursuitNodeMetadata}
    (hsettled : Settled state leg earlier current settled metadata leg' earlier' current')
    (hopen : leg.Open earlier current) (hwell : leg.WellFormed) (h : leg.Coherent) :
    leg'.Coherent := by
  have hlatest := h.latest_of_open hopen
  cases hsettled with
  | planned planId number hplan hcompleted payload herror =>
    exact h.planned hwell hlatest (hlatest.items hplan) (validPlan_of_error herror)
  | planFailed planId number hplan reason =>
    have hitems := hlatest.items hplan
    refine h.of_workItems rfl ?_ ?_ ⟨rfl, hlatest.version, hlatest.past, fun _ => hitems⟩
    · unfold Leg.workItems
      rw [hlatest.attempts, List.flatMap_append, List.flatMap_append]
      rfl
    · intro attempt hattempt item hitem
      rcases List.mem_append.mp hattempt with hattempt | hattempt
      · exact h.versions attempt (hlatest.attempts ▸ List.mem_append_left _ hattempt) item hitem
      · obtain rfl := List.mem_singleton.mp hattempt
        rw [show (current.planFailed reason).workItems = [] from hitems] at hitem
        cases hitem
  | closed number item hfind hwaits status hstatus summary outcome =>
    exact h.advances (hopen.advances_replace
      (Attempt.advances_updateWorkItem hfind hwaits hstatus summary outcome))

/-- Closing the current attempt changes no item. -/
theorem Leg.Coherent.decided (h : leg.Coherent) (hlatest : leg.Latest earlier current)
    (hid : leg'.id = leg.id) (hversion : leg'.legGoalVersion = leg.legGoalVersion)
    {status : PursuitEntityRunStatus} {failureReasons : List AttemptFailureReason}
    (hattempts : leg'.attempts = earlier ++ [current.close status failureReasons]) :
    leg'.Coherent := by
  refine h.of_workItems hid ?_ ?_
    ⟨hattempts, hlatest.version.trans hversion.symm, hlatest.past, hlatest.items⟩
  · unfold Leg.workItems
    rw [hattempts, hlatest.attempts, List.flatMap_append, List.flatMap_append]
    rfl
  · rw [hattempts]
    intro attempt hattempt item hitem
    rcases List.mem_append.mp hattempt with hattempt | hattempt
    · exact h.versions attempt (hlatest.attempts ▸ List.mem_append_left _ hattempt) item hitem
    · obtain rfl := List.mem_singleton.mp hattempt
      refine h.versions current ?_ item hitem
      rw [hlatest.attempts]
      exact List.mem_append_right _ (List.mem_singleton_self _)

theorem Leg.Coherent.retried {stamp : Stamp} (h : leg.Coherent) (hopen : leg.Open earlier current)
    (hfails : current.Fails) (failureReasons : List AttemptFailureReason)
    (index sequence : Nat) :
    (leg.retried earlier current failureReasons
      (createAttempt host stamp index sequence leg.legGoalVersion)).Coherent := by
  have hlatest := h.latest_of_open hopen
  have hdecided : (leg.decided earlier current .failed failureReasons).Coherent :=
    h.decided hlatest rfl rfl rfl
  refine hdecided.of_workItems rfl ?_ ?_ ⟨Leg.retried_attempts .., rfl, ?_, fun _ => rfl⟩
  · unfold Leg.workItems
    rw [Leg.retried_attempts, List.flatMap_append, List.flatMap_singleton]
    exact List.append_nil _
  · intro attempt hattempt item hitem
    rcases List.mem_append.mp hattempt with hattempt | hattempt
    · exact hdecided.versions attempt hattempt item hitem
    · obtain rfl := List.mem_singleton.mp hattempt
      cases hitem
  · intro attempt hattempt hplan
    rcases List.mem_append.mp hattempt with hattempt | hattempt
    · exact hlatest.past attempt hattempt hplan
    · -- an attempt that has failed is over
      obtain rfl := List.mem_singleton.mp hattempt
      have hover := (hfails.over hopen.current).plan
      rw [show current.plan.status = .notStarted from hplan] at hover
      cases hover

theorem createLeg_coherent (stamp : Stamp) (index : Nat) (input : LegInit) :
    (createLeg host stamp index input).Coherent := by
  refine ⟨List.nodup_nil, fun _ hitem => (by cases hitem), ?_, List.Pairwise.nil,
    ⟨[], _, rfl, rfl, ?_, fun _ => rfl⟩,
    fun _ => ⟨fun _ => 0, fun _ hitem => (by cases hitem)⟩⟩
  · intro attempt hattempt item hitem
    obtain rfl := List.mem_singleton.mp hattempt
    cases hitem
  · intro attempt hattempt
    cases hattempt

theorem Coherent.replace (h : Coherent state) (hlegs : state.ext.legs = closed ++ [leg])
    {more : List Leg} (hnext : next.ext.legs = closed ++ [leg'] ++ more) (hleg : leg'.Coherent)
    (hmore : ∀ other ∈ more, other.Coherent) : Coherent next := by
  intro other hother
  rw [hnext, List.append_assoc] at hother
  rcases List.mem_append.mp hother with hother | hother
  · exact h other (hlegs ▸ List.mem_append_left _ hother)
  · rcases List.mem_cons.mp hother with rfl | hother
    · exact hleg
    · exact hmore other hother

/-- **A call keeps every leg coherent.** -/
theorem Called.coherent {c : Call} (hcalled : Called host state c next) (h : Coherent state)
    (hwell : WellFormed state) : Coherent next := by
  have hleg : ∀ {closed : List Leg} {leg : Leg}, state.ext.legs = closed ++ [leg] →
      leg.WellFormed ∧ leg.Coherent := fun {closed leg} hlegs => by
    have hmem : leg ∈ state.ext.legs := by simp [hlegs]
    exact ⟨hwell.legs leg hmem, h leg hmem⟩
  have hnone : ∀ other ∈ ([] : List Leg), other.Coherent := fun _ hother => by cases hother
  cases hcalled with
  | settled settlement metadata _ hmetadata hopen hsettled hids hnext hon =>
    obtain ⟨hlegWell, hlegCoherent⟩ := hleg hopen.legs
    exact h.replace hopen.legs (hnext.legs.trans (List.append_nil _).symm)
      (hsettled.coherent hopen.leg hlegWell hlegCoherent) hnone
  | done stamp runtime hdone => exact h
  | undecided stamp runtime _ hopen hadvances hnext hon =>
    obtain ⟨-, hlegCoherent⟩ := hleg hopen.legs
    exact h.replace hopen.legs (hnext.legs.trans (List.append_nil _).symm)
      (hlegCoherent.advances hadvances) hnone
  | decided stamp runtime _ hopen hadvances hlegOpen hdecided =>
    obtain ⟨-, hlegCoherent⟩ := hleg hopen.legs
    have hadvanced := hlegCoherent.advances hadvances
    have hlatest := hadvanced.latest_of_open hlegOpen
    cases hdecided with
    | retried failureReasons hfails hmore retry hretry hnext =>
      subst hretry
      exact h.replace hopen.legs (hnext.legs.trans (List.append_nil _).symm)
        (hadvanced.retried hlegOpen hfails failureReasons _ _) hnone
    | failed failureReasons hfails hlast hend =>
      exact h.replace hopen.legs (hend.legs.trans (List.append_nil _).symm)
        (hadvanced.decided hlatest rfl rfl (Leg.failed_attempts ..)) hnone
    | succeeded failureReasons hsucceeds input hinput hnext =>
      refine h.replace hopen.legs hnext.legs
        (hadvanced.decided hlatest rfl rfl (Leg.succeeded_attempts ..)) fun other hother => ?_
      obtain rfl := List.mem_singleton.mp hother
      exact createLeg_coherent ..
    | completed failureReasons hsucceeds hinput hend =>
      exact h.replace hopen.legs (hend.legs.trans (List.append_nil _).symm)
        (hadvanced.decided hlatest rfl rfl (Leg.succeeded_attempts ..)) hnone

theorem createInitialState_coherent (stamp : Stamp) (args : PursuitArgs) :
    Coherent (createInitialState host stamp args) := by
  intro leg hleg
  obtain rfl := List.mem_singleton.mp hleg
  exact createLeg_coherent ..

theorem coherent_of_run {cs : List Call} (h : Coherent state) (hsound : Sound state)
    (run : Run (call host) Free state cs next) : Coherent next := by
  induction run with
  | nil => exact h
  | snoc run _ hcall ih =>
    have hbefore := (hsound.run run).1
    exact (called_of_call hbefore.openOrDone hcall).coherent ih hbefore.wellFormed

end Called

end Coherent

end EphemeralAgent.Pursuit
