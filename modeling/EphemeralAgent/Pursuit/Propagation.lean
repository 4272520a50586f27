import EphemeralAgent.Pursuit.Validation

/-!
# Failed dependencies

What `propagateDependencyBlocks` blocks: the items that a chain of waiting items connects to a
failed one.

* `Leg.Doomed` — such an item
* `Leg.Propagates` — the loop, with the order of its visits left open
* `Leg.propagates_spec` — in every order it blocks the doomed items, and nothing else
* `propagation_exact` — so it is for every leg of every pursuit
-/

namespace EphemeralAgent.Pursuit

open EphemeralAgent.Lib EphemeralAgent.Workflow

/-! ## Chains of dependencies -/

section Doomed

variable (running : RunningMetadata) (leg : Leg)

/-- The item waits, and no node runs for it. -/
def WorkItem.Idle (item : WorkItem) : Prop :=
  item.status = .notStarted ∧ running.workItems.contains item.key = false

/-- `target` is an item of the leg that `item` depends on, in the goal version of `item`. -/
structure Leg.Awaits (item target : WorkItem) : Prop where
  mem : target ∈ leg.workItems
  edge : target.id ∈ item.dependsOn
  version : target.legGoalVersion = item.legGoalVersion

/-- One link of a chain: an idle item and one that it depends on. -/
def Leg.Link (item target : WorkItem) : Prop :=
  item.Idle running ∧ leg.Awaits item target

/-- A chain of idle items leads from the item to one that has failed or is blocked. -/
def Leg.Doomed (item : WorkItem) : Prop :=
  ∃ target, Relation.TransGen (leg.Link running) item target ∧
    (target.status = .failed ∨ target.status = .blocked)

end Doomed

section Doomed

variable {running : RunningMetadata} {leg : Leg} {item target : WorkItem}

theorem Leg.Doomed.idle (h : leg.Doomed running item) : item.Idle running := by
  obtain ⟨target, hchain, -⟩ := h
  rcases Relation.TransGen.head'_iff.mp hchain with ⟨next, hlink, -⟩
  exact hlink.1

/-- A doomed item is not blocked yet. -/
theorem Leg.Doomed.status (h : leg.Doomed running item) : item.status = .notStarted :=
  h.idle.1

theorem Leg.Doomed.direct (hlink : leg.Link running item target)
    (htarget : target.status = .failed ∨ target.status = .blocked) : leg.Doomed running item :=
  ⟨target, .single hlink, htarget⟩

theorem Leg.Doomed.link (hlink : leg.Link running item target)
    (htarget : leg.Doomed running target) : leg.Doomed running item := by
  obtain ⟨last, hchain, hlast⟩ := htarget
  exact ⟨last, .head hlink hchain, hlast⟩

theorem dependencyBlocks_some {status : WorkItemRunStatus} :
    dependencyBlocks (some status) = true ↔ status = .failed ∨ status = .blocked := by
  cases status <;> simp [dependencyBlocks]

/-- What a dependency that blocks means: an item of the leg that has failed or is blocked. -/
theorem exists_of_dependencyBlocks {version : Nat} {id : String}
    (h : dependencyBlocks (dependencyStatus leg version id) = true) :
    ∃ target ∈ leg.workItems, target.id = id ∧ target.legGoalVersion = version ∧
      (target.status = .failed ∨ target.status = .blocked) := by
  unfold dependencyStatus at h
  cases hfind : leg.workItems.find? fun item =>
      item.id = id ∧ item.legGoalVersion = version with
  | none =>
    rw [hfind] at h
    cases h
  | some target =>
    rw [hfind, Option.map_some, dependencyBlocks_some] at h
    have hhit := List.find?_some hfind
    obtain ⟨hid, hversion⟩ := of_decide_eq_true hhit
    exact ⟨target, List.mem_of_find?_eq_some hfind, hid, hversion, h⟩

theorem blockable_iff : blockable running leg item = true ↔
    item.Idle running ∧
      ∃ id ∈ item.dependsOn,
        dependencyBlocks (dependencyStatus leg item.legGoalVersion id) = true := by
  unfold blockable WorkItem.Idle blockedBy
  simp only [Bool.and_eq_true, beq_iff_eq, Bool.not_eq_true', List.isEmpty_eq_false_iff, ne_eq,
    List.filter_eq_nil_iff, not_forall, not_not, exists_prop]

end Doomed

/-! ## What has been blocked -/

/-- Nothing of the attempt but its items is different, and those are related item by item. -/
structure Attempt.Only (R : WorkItem → WorkItem → Prop) (a b : Attempt) : Prop where
  eq : b = { a with workItems := b.workItems }
  items : List.Forall₂ R a.workItems b.workItems

/-- Nothing of the leg but its items is different, and those are related item by item. -/
structure Leg.Only (R : WorkItem → WorkItem → Prop) (l m : Leg) : Prop where
  eq : m = { l with attempts := m.attempts }
  attempts : List.Forall₂ (Attempt.Only R) l.attempts m.attempts

section Only

variable {l m : Leg} {j : WorkItem} {R S : WorkItem → WorkItem → Prop}

theorem Leg.Only.refl (hR : ∀ i, R i i) (l : Leg) : l.Only R l :=
  ⟨rfl, List.forall₂_same.mpr fun _ _ => ⟨rfl, List.forall₂_same.mpr fun i _ => hR i⟩⟩

theorem Leg.Only.workItems (h : l.Only R m) : List.Forall₂ R l.workItems m.workItems :=
  List.rel_flatMap h.attempts fun _ _ hab => hab.items

/-- A change of the item at a position. -/
theorem Leg.Only.modifyItem (h : l.Only R m) {attempt item : Nat}
    (hj : m.item? attempt item = some j) {f : WorkItem → WorkItem}
    (hf : ∀ i, R i j → R i (f j)) : l.Only R (m.modifyItem attempt item f) := by
  obtain ⟨b, hb, hitem⟩ := Leg.item?_eq_some hj
  refine ⟨?_, forall₂_modify h.attempts hb fun a hab => ⟨?_, ?_⟩⟩
  · unfold Leg.modifyItem
    rw [h.eq]
  · rw [hab.eq]
  · exact forall₂_modify hab.items hitem hf

/-- Another relation, of items that are in the legs. -/
theorem Leg.Only.imp (h : l.Only R m) (hRS : ∀ i j, j ∈ m.workItems → R i j → S i j) :
    l.Only S m := by
  refine ⟨h.eq, forall₂_imp_mem (fun a b _ hb hab => ⟨hab.eq, ?_⟩) h.attempts⟩
  refine forall₂_imp_mem (fun i j _ hj hij => ?_) hab.items
  exact hRS i j (List.mem_flatMap.mpr ⟨b, hb, hj⟩) hij

/-- Legs whose items are the same are the same. -/
theorem Leg.Only.eq_of_eq (h : l.Only (fun i j => j = i) m) : m = l := by
  have hattempts : m.attempts = l.attempts := by
    have hmap := map_eq_of_forall₂ (f := fun a : Attempt => a) (g := fun b : Attempt => b)
      (fun a b (hab : a.Only (fun i j => j = i) b) => by
        have hitems := map_eq_of_forall₂ (f := fun i : WorkItem => i) (g := fun j : WorkItem => j)
          (fun _ _ hij => hij) hab.items
        rw [List.map_id', List.map_id'] at hitems
        show b = a
        rw [hab.eq, hitems]) h.attempts
    rwa [List.map_id', List.map_id'] at hmap
  rw [h.eq, hattempts]

end Only

/-! ## Soundness -/

section Marked

variable (running : RunningMetadata) (leg : Leg)

/-- The item is as before, or it was doomed and is blocked. -/
def Leg.MarkedItem (i j : WorkItem) : Prop :=
  j = i ∨ leg.Doomed running i ∧ ∃ summary, j = i.close .blocked summary summary

end Marked

section Marked

variable {running : RunningMetadata} {leg m : Leg} {i j : WorkItem}

theorem Leg.MarkedItem.versionedId (h : leg.MarkedItem running i j) :
    j.versionedId = i.versionedId := by
  rcases h with rfl | ⟨-, _, rfl⟩ <;> rfl

/-- An item that still waits is as before. -/
theorem Leg.MarkedItem.eq_of_waits (h : leg.MarkedItem running i j)
    (hj : j.status = .notStarted) : j = i := by
  rcases h with rfl | ⟨-, _, rfl⟩
  · rfl
  · cases hj

/-- An item that can be blocked was doomed from the start. -/
theorem Leg.Doomed.of_blockable (h : leg.Only (leg.MarkedItem running) m)
    (hi : blockable running m i = true) : leg.Doomed running i := by
  obtain ⟨hidle, id, hid, hblocks⟩ := blockable_iff.mp hi
  obtain ⟨target', htarget', rfl, hversion, hstatus⟩ := exists_of_dependencyBlocks hblocks
  obtain ⟨target, htarget, hmarked⟩ := exists_of_forall₂_right h.workItems htarget'
  obtain ⟨hsame, hids⟩ := Prod.mk.inj hmarked.versionedId
  have hlink : leg.Link running i target :=
    ⟨hidle, htarget, hids ▸ hid, hsame.symm.trans hversion⟩
  rcases hmarked with rfl | ⟨hdoomed, -⟩
  · exact .direct hlink hstatus
  · exact .link hlink hdoomed

theorem blockAt_marked (h : leg.Only (leg.MarkedItem running) m) (position : Nat × Nat) :
    leg.Only (leg.MarkedItem running) (blockAt running m position).1 := by
  unfold blockAt
  split
  · exact h
  · next j hj =>
    split
    · next hblock =>
      refine h.modifyItem hj fun i hij => .inr ?_
      have hidle := (blockable_iff.mp hblock).1
      obtain rfl := hij.eq_of_waits hidle.1
      exact ⟨.of_blockable h hblock, _, rfl⟩
    · exact h

theorem blockAll_marked (h : leg.Only (leg.MarkedItem running) m)
    (positions : List (Nat × Nat)) (changed : Bool) :
    leg.Only (leg.MarkedItem running) (blockAll running positions m changed).1 := by
  induction positions generalizing m changed with
  | nil => exact h
  | cons position rest ih =>
    rw [blockAll_cons]
    exact ih (blockAt_marked h position) _

end Marked

/-! ## Completeness -/

section Settled

variable (running : RunningMetadata) (leg : Leg)

/-- The item is newly blocked exactly when it was doomed; otherwise it is as before. -/
structure Leg.SettledItem (i j : WorkItem) : Prop where
  newly : (i.status ≠ .blocked ∧ j.status = .blocked) ↔ leg.Doomed running i
  fields : j = { i with status := j.status, summary := j.summary, outcome := j.outcome }
  others : ¬ leg.Doomed running i → j = i

end Settled

section Settled

variable {running : RunningMetadata} {leg m : Leg} {i j target target' : WorkItem}

theorem Leg.Only.distinct (h : leg.Only (leg.MarkedItem running) m)
    (hdistinct : (leg.workItems.map (·.versionedId)).Nodup) :
    (m.workItems.map (·.versionedId)).Nodup := by
  have hids := map_eq_of_forall₂ (f := fun i : WorkItem => i.versionedId)
    (g := fun j : WorkItem => j.versionedId)
    (fun i j (hij : leg.MarkedItem running i j) => hij.versionedId) h.workItems
  rw [hids]
  exact hdistinct

/-- A dependency that has failed or is blocked blocks. -/
theorem blockable_of_target (hdistinct : (m.workItems.map (·.versionedId)).Nodup)
    (hidle : i.Idle running) (htarget : m.Awaits i target)
    (hstatus : target.status = .failed ∨ target.status = .blocked) :
    blockable running m i = true := by
  refine blockable_iff.mpr ⟨hidle, target.id, htarget.edge, ?_⟩
  have hfind := find?_of_nodup hdistinct htarget.mem
  have hlookup : (m.workItems.find? fun item =>
      item.id = target.id ∧ item.legGoalVersion = i.legGoalVersion) = some target := by
    rw [← hfind, ← htarget.version]
    congr 1
    funext other
    simp [WorkItem.versionedId, Prod.ext_iff, Bool.beq_eq_decide_eq, and_comm]
  unfold dependencyStatus
  rw [hlookup]
  exact dependencyBlocks_some.mpr hstatus

/-- The end of a link, in the leg where items have been blocked. -/
theorem Leg.Link.marked (hlink : leg.Link running i target)
    (hmarked : leg.MarkedItem running target target') (hmem : target' ∈ m.workItems) :
    m.Awaits i target' := by
  obtain ⟨hversion, hid⟩ := Prod.mk.inj hmarked.versionedId
  refine ⟨hmem, ?_, hversion.trans hlink.2.version⟩
  rw [hid]
  exact hlink.2.edge

/-- **When nothing more can be blocked, every doomed item is.**  The induction is on the chain. -/
theorem Leg.MarkedItem.blocked (h : leg.Only (leg.MarkedItem running) m)
    (hdistinct : (leg.workItems.map (·.versionedId)).Nodup) (hnone : m.Unblocked running)
    (hdoomed : leg.Doomed running i) :
    ∀ {j}, j ∈ m.workItems → leg.MarkedItem running i j → j.status = .blocked := by
  have hnodup := h.distinct hdistinct
  -- an item that is not blocked is as before, and then a blocked dependency could block it
  have hlast : ∀ {i target target' j : WorkItem}, leg.Link running i target →
      leg.MarkedItem running target target' → target' ∈ m.workItems →
      (target'.status = .failed ∨ target'.status = .blocked) → j ∈ m.workItems →
      leg.MarkedItem running i j → j.status = .blocked := by
    intro i target target' j hlink hmarked hmem hstatus hj hij
    rcases hij with rfl | ⟨-, _, rfl⟩
    · have hblockable := blockable_of_target hnodup hlink.1 (hlink.marked hmarked hmem) hstatus
      rw [hnone j hj] at hblockable
      cases hblockable
    · rfl
  obtain ⟨target, hchain, htarget⟩ := hdoomed
  induction hchain using Relation.TransGen.head_induction_on with
  | single hlink =>
    intro j hj hij
    obtain ⟨target', hmem, hmarked⟩ := exists_of_forall₂_left h.workItems hlink.2.mem
    refine hlast hlink hmarked hmem ?_ hj hij
    rcases hmarked with rfl | ⟨-, _, rfl⟩
    · exact htarget
    · exact .inr rfl
  | head hlink _ ih =>
    intro j hj hij
    obtain ⟨next', hmem, hmarked⟩ := exists_of_forall₂_left h.workItems hlink.2.mem
    exact hlast hlink hmarked hmem (.inr (ih hmem hmarked)) hj hij

theorem Leg.MarkedItem.settled (h : leg.Only (leg.MarkedItem running) m)
    (hdistinct : (leg.workItems.map (·.versionedId)).Nodup) (hnone : m.Unblocked running)
    (hj : j ∈ m.workItems) (hij : leg.MarkedItem running i j) : leg.SettledItem running i j := by
  refine ⟨⟨fun hnew => ?_, fun hdoomed => ⟨?_, hij.blocked h hdistinct hnone hdoomed hj⟩⟩, ?_,
    fun hnot => ?_⟩
  · rcases hij with rfl | ⟨hdoomed, -⟩
    · exact absurd hnew.2 hnew.1
    · exact hdoomed
  · rw [hdoomed.status]
    simp
  · rcases hij with rfl | ⟨-, _, rfl⟩ <;> rfl
  · rcases hij with rfl | ⟨hdoomed, -⟩
    · rfl
    · exact absurd hdoomed hnot

end Settled

/-! ## The loop, in any order -/

section Propagates

variable (running : RunningMetadata)

/-- The order in which a pass of the source visits the items. -/
def Leg.InOrder (leg : Leg) (order : List (Nat × Nat)) : Prop :=
  order = leg.positions

/-- Any order in which a pass visits every item once. -/
def Leg.AnyOrder (leg : Leg) (order : List (Nat × Nat)) : Prop :=
  order.Perm leg.positions

/-- The loop of `propagateDependencyBlocks` from a leg to its end: passes in such orders, up to one
that blocks nothing. -/
inductive Leg.Propagates (visits : Leg → List (Nat × Nat) → Prop) : Leg → Leg × Bool → Prop
  | done {leg next : Leg} {order : List (Nat × Nat)} (hvisits : visits leg order)
      (hpass : blockAll running order leg false = (next, false)) :
      Leg.Propagates visits leg (next, false)
  | again {leg next last : Leg} {changed : Bool} {order : List (Nat × Nat)}
      (hvisits : visits leg order) (hpass : blockAll running order leg false = (next, true))
      (hrest : Leg.Propagates visits next (last, changed)) :
      Leg.Propagates visits leg (last, true)

/-- One pass that blocks items, in any order. -/
def Leg.Passes (next leg : Leg) : Prop :=
  ∃ order, leg.AnyOrder order ∧ blockAll running order leg false = (next, true)

end Propagates

section Propagates

variable {running : RunningMetadata} {leg next : Leg} {result : Leg × Bool}
  {visits : Leg → List (Nat × Nat) → Prop}

/-- **Every pass but the last blocks an item, so no order of visits goes on for ever.** -/
theorem Leg.passes_wellFounded : WellFounded (Leg.Passes running) := by
  refine Subrelation.wf (r := fun next leg : Leg => next.waiting < leg.waiting) ?_
    (measure Leg.waiting).wf
  rintro next leg ⟨order, -, hpass⟩
  have hblocks := (blockAll_spec running order leg).1
  rw [hpass] at hblocks
  exact hblocks.changed rfl

/-- The source's loop comes to its end. -/
theorem propagateLoop_propagates (fuel : Nat) (leg : Leg) (h : leg.waiting < fuel) :
    Leg.Propagates running Leg.InOrder leg (propagateLoop running fuel leg) := by
  induction fuel generalizing leg with
  | zero => cases h
  | succ fuel ih =>
    have hblocks := (propagatePass_spec running leg).1
    unfold propagateLoop
    cases hp : propagatePass running leg with
    | mk next changed =>
      rw [hp] at hblocks
      cases changed with
      | false =>
        obtain rfl : next = leg := hblocks.unchanged rfl
        exact .done rfl hp
      | true =>
        have hlt : next.waiting < leg.waiting := hblocks.changed rfl
        exact .again rfl hp (ih next (by omega))

theorem Leg.Propagates.blocks (h : Leg.Propagates running visits leg result) :
    Blocks leg result := by
  induction h with
  | @done leg next order _ hpass =>
    rw [← hpass]
    exact (blockAll_spec running order leg).1
  | @again leg next last changed order _ hpass _ ih =>
    have hblocks := (blockAll_spec running order leg).1
    rw [hpass] at hblocks
    have hlt : next.waiting < leg.waiting := hblocks.changed rfl
    have hle : last.waiting ≤ next.waiting := ih.advances.waiting_le
    refine ⟨hblocks.advances.trans ih.advances, fun h => (by cases h), fun _ => ?_⟩
    show last.waiting < leg.waiting
    omega

theorem Leg.Propagates.unblocked (h : Leg.Propagates running Leg.AnyOrder leg result) :
    result.1.Unblocked running := by
  induction h with
  | @done leg next order hvisits hpass =>
    obtain ⟨hblocks, hnone⟩ := blockAll_spec running order leg
    rw [hpass] at hblocks hnone
    obtain rfl : next = leg := hblocks.unchanged rfl
    intro item hitem
    obtain ⟨position, hposition, hat⟩ := Leg.exists_position hitem
    exact blockAt_eq_false running hat (hnone rfl position (hvisits.mem_iff.mpr hposition))
  | again _ _ _ ih => exact ih

theorem Leg.Propagates.marked (h : Leg.Propagates running visits next result)
    (hmarked : leg.Only (leg.MarkedItem running) next) :
    leg.Only (leg.MarkedItem running) result.1 := by
  induction h with
  | @done m next order _ hpass =>
    have hnext := blockAll_marked hmarked order false
    rwa [hpass] at hnext
  | @again m next last changed order _ hpass _ ih =>
    have hnext := blockAll_marked hmarked order false
    rw [hpass] at hnext
    exact ih hnext

theorem Leg.Propagates.anyOrder (h : Leg.Propagates running Leg.InOrder leg result) :
    Leg.Propagates running Leg.AnyOrder leg result := by
  induction h with
  | done hvisits hpass => exact .done (List.Perm.of_eq hvisits) hpass
  | again hvisits hpass _ ih => exact .again (List.Perm.of_eq hvisits) hpass ih

/-- **In every order, exactly the doomed items are blocked.** -/
theorem Leg.Propagates.settled (h : Leg.Propagates running Leg.AnyOrder leg result)
    (hdistinct : (leg.workItems.map (·.versionedId)).Nodup) :
    leg.Only (leg.SettledItem running) result.1 := by
  have hmarked := h.marked (Leg.Only.refl (fun i => .inl rfl) leg)
  exact hmarked.imp fun i j hj hij => hij.settled hmarked hdistinct h.unblocked hj

/-- The loop says that it has changed something when it has. -/
theorem Leg.Propagates.changed_iff (h : Leg.Propagates running visits leg result) :
    result.2 = true ↔ result.1 ≠ leg := by
  have hblocks := h.blocks
  constructor
  · intro hchanged heq
    have hlt := hblocks.changed hchanged
    rw [heq] at hlt
    omega
  · intro hne
    by_contra hchanged
    exact hne (hblocks.unchanged (by simpa using hchanged))

end Propagates

section Settled

variable {running : RunningMetadata} {leg m m' : Leg}

open Classical in
/-- The statuses that the doomed items leave. -/
theorem Leg.Only.statuses (h : leg.Only (leg.SettledItem running) m) :
    m.workItems.map (·.status) = leg.workItems.map fun i =>
      if leg.Doomed running i then .blocked else i.status := by
  refine map_eq_of_forall₂ (fun i j (hij : leg.SettledItem running i j) => ?_) h.workItems
  by_cases hdoomed : leg.Doomed running i
  · rw [if_pos hdoomed]
    exact (hij.newly.mpr hdoomed).2
  · rw [if_neg hdoomed, hij.others hdoomed]

/-- Something changes exactly when an item is doomed. -/
theorem Leg.Only.ne_iff (h : leg.Only (leg.SettledItem running) m) :
    m ≠ leg ↔ ∃ item ∈ leg.workItems, leg.Doomed running item := by
  constructor
  · intro hne
    by_contra hnone
    refine hne (Leg.Only.eq_of_eq ⟨h.eq, ?_⟩)
    refine forall₂_imp_mem (fun a b ha _ hab => ⟨hab.eq, ?_⟩) h.attempts
    refine forall₂_imp_mem (fun i j hi _ hij => hij.others fun hdoomed => ?_) hab.items
    exact hnone ⟨i, List.mem_flatMap.mpr ⟨a, ha, hi⟩, hdoomed⟩
  · rintro ⟨item, hitem, hdoomed⟩ rfl
    have hstatuses := h.statuses
    rw [List.map_inj_left] at hstatuses
    have hstatus := hstatuses item hitem
    rw [if_pos hdoomed, hdoomed.status] at hstatus
    cases hstatus

end Settled

/-! ## Every leg of every pursuit -/

/-- What `propagateDependencyBlocks` makes of the leg while such nodes are running. -/
structure Leg.PropagatesExactly (running : RunningMetadata) (leg : Leg) : Prop where
  /-- The loop comes to its end. -/
  ends : Leg.Propagates running Leg.InOrder leg (propagateDependencyBlocks running leg)
  /-- Exactly the doomed items are newly blocked, and nothing else changes. -/
  settled : leg.Only (leg.SettledItem running) (propagateDependencyBlocks running leg).1
  /-- It returns true exactly when something has changed. -/
  changed : (propagateDependencyBlocks running leg).2 = true ↔
    (propagateDependencyBlocks running leg).1 ≠ leg
  /-- Every other order of visits comes to its end, too. -/
  wellFounded : WellFounded (Leg.Passes running)
  /-- Every other order blocks the same items and returns the same. -/
  anyOrder : ∀ result, Leg.Propagates running Leg.AnyOrder leg result →
    leg.Only (leg.SettledItem running) result.1 ∧
      result.1.workItems.map (·.status) =
        (propagateDependencyBlocks running leg).1.workItems.map (·.status) ∧
      result.2 = (propagateDependencyBlocks running leg).2

theorem Leg.Coherent.propagatesExactly {leg : Leg} (h : leg.Coherent)
    (running : RunningMetadata) : leg.PropagatesExactly running := by
  have hends : Leg.Propagates running Leg.InOrder leg (propagateDependencyBlocks running leg) :=
    propagateLoop_propagates _ leg (Nat.lt_succ_self _)
  have hsettled := hends.anyOrder.settled h.distinct
  refine ⟨hends, hsettled, hends.changed_iff, Leg.passes_wellFounded, fun result hresult => ?_⟩
  have hother := hresult.settled h.distinct
  refine ⟨hother, hother.statuses.trans hsettled.statuses.symm, ?_⟩
  rw [Bool.eq_iff_iff, hresult.changed_iff, hends.changed_iff, hother.ne_iff, hsettled.ne_iff]

/-- **Propagation of failed dependencies computes the least set closed under them.**  It does so
for every leg that calls of the two callbacks lead to, and for every leg of every run of the
workflow runtime, whatever is running. -/
theorem propagation_exact (host : Host) :
    (∀ stamp object args cs state, PursuitArgs.parse object = some args →
      Run (call host) Free (createInitialState host stamp args) cs state →
        ∀ leg ∈ state.ext.legs, ∀ running, leg.PropagatesExactly running) ∧
    ∀ definition args toJsonObject ls s state,
      Run (step (pursuitRequest host definition args toJsonObject)) Free initial ls s →
      s.state = some state →
        ∀ leg ∈ state.ext.legs, ∀ running, leg.PropagatesExactly running := by
  have hcalls : ∀ stamp object args cs state, PursuitArgs.parse object = some args →
      Run (call host) Free (createInitialState host stamp args) cs state →
        ∀ leg ∈ state.ext.legs, ∀ running, leg.PropagatesExactly running := by
    intro stamp object args cs state hargs run leg hleg running
    have hsound := sound_createInitialState host stamp (PursuitArgs.parse_spec hargs).1
    have hcoherent := coherent_of_run (createInitialState_coherent stamp args) hsound run
    exact (hcoherent leg hleg).propagatesExactly running
  refine ⟨hcalls, ?_⟩
  intro definition args toJsonObject ls s state run hstate
  rcases followed_of_run run with hnone | ⟨first, cs, pursuit, h⟩
  · rw [hnone.state] at hstate
    cases hstate
  · obtain ⟨stamp, parsed, hparsed, rfl⟩ := h.created
    rw [(h.ext hstate).1]
    exact hcalls stamp args parsed cs pursuit hparsed h.run

/-- The outcome of a planner: "b" depends on "a", "c" on "b", and "d" on nothing. -/
def chainedItems : Json :=
  .obj
    [("summary", .str "a chain"),
      ("work_items", .arr
        [.obj
          [("id", .str "a"), ("agent_name", .str "worker"), ("title", .str "A"),
            ("spec", .str "do a")],
        .obj
          [("id", .str "b"), ("agent_name", .str "worker"), ("title", .str "B"),
            ("spec", .str "do b"), ("depends_on", .arr [.str "a"])],
        .obj
          [("id", .str "c"), ("agent_name", .str "worker"), ("title", .str "C"),
            ("spec", .str "do c"), ("depends_on", .arr [.str "b"])],
        .obj
          [("id", .str "d"), ("agent_name", .str "worker"), ("title", .str "D"),
            ("spec", .str "do d")]])]

/-- The plan is submitted, and the worker of "a" fails. -/
def chainBroken : List Call :=
  [.apply (.completed
      { node := agentBindings.planner
        metadata := some (PursuitNodeMetadata.planner "bc" "bcc" "bccc" 1).toJson
        outcomeName := "plan"
        outcome := chainedItems }),
    .apply (.failed agentBindings.worker
      (some (PursuitNodeMetadata.worker "bc" "bcc" "a" (workItemKey "bc" 1 "a") 1).toJson)
      "broken")]

theorem propagation_exact_chain :
    ∃ state leg, Run (call spellingHost) Free
        (createInitialState spellingHost 0
          { pursuitGoal := "ship", legGoals := none, maxAttempts := 2 }) chainBroken state ∧
      leg ∈ state.ext.legs ∧
      leg.workItems.map (·.status) = [.failed, .notStarted, .notStarted, .notStarted] ∧
      (propagateDependencyBlocks ⟨[], []⟩ leg).1.workItems.map (·.status) =
        [.failed, .blocked, .blocked, .notStarted] ∧
      leg.PropagatesExactly ⟨[], []⟩ := by
  obtain ⟨state, hrun, hp⟩ := exists_run (call spellingHost) Free
    (createInitialState spellingHost 0
      { pursuitGoal := "ship", legGoals := none, maxAttempts := 2 }) chainBroken
    (fun state => state.ext.legs.any fun leg =>
      leg.workItems.map (·.status) = [.failed, .notStarted, .notStarted, .notStarted] ∧
      (propagateDependencyBlocks ⟨[], []⟩ leg).1.workItems.map (·.status) =
        [.failed, .blocked, .blocked, .notStarted]) (by decide +kernel)
  obtain ⟨leg, hleg, htests⟩ := List.any_eq_true.mp hp
  obtain ⟨hbefore, hafter⟩ := of_decide_eq_true htests
  have hexact := (propagation_exact spellingHost).1 0 [("pursuit_goal", .str "ship")] _
    chainBroken state rfl hrun leg hleg ⟨[], []⟩
  exact ⟨state, leg, hrun, hleg, hbefore, hafter, hexact⟩

end EphemeralAgent.Pursuit
