import EphemeralAgent.Pursuit.Progress

/-!
# Work items that end

The settlement of a worker and the propagation of blocks end work items of a leg and leave
everything else of it alone.

* `Leg.Advances` — items of the leg that waited have ended
* `propagateDependencyBlocks_spec` — propagation blocks items until there is none to block
-/

namespace EphemeralAgent.Pursuit

open EphemeralAgent.Lib

/-! ## The relation -/

/-- A status that a settlement or a failed dependency gives an item. -/
def ended : WorkItemRunStatus → Bool
  | .success | .failed | .blocked => true
  | _ => false

def WorkItem.waits (item : WorkItem) : Bool :=
  item.status == .notStarted

/-- The item is as before, or it waited and has ended. -/
structure WorkItem.Advances (i j : WorkItem) : Prop where
  eq : j = { i with status := j.status, summary := j.summary, outcome := j.outcome }
  status : j.status = i.status ∨ i.status = .notStarted ∧ ended j.status = true

/-- Items of the attempt have ended. -/
structure Attempt.Advances (a b : Attempt) : Prop where
  eq : b = { a with workItems := b.workItems }
  items : List.Forall₂ WorkItem.Advances a.workItems b.workItems

/-- Items of the leg have ended. -/
structure Leg.Advances (l m : Leg) : Prop where
  eq : m = { l with attempts := m.attempts }
  attempts : List.Forall₂ Attempt.Advances l.attempts m.attempts

theorem WorkItem.Advances.refl (i : WorkItem) : i.Advances i :=
  ⟨rfl, .inl rfl⟩

theorem WorkItem.Advances.trans {i j k : WorkItem} (h₁ : i.Advances j) (h₂ : j.Advances k) :
    i.Advances k := by
  refine ⟨?_, ?_⟩
  · rw [h₂.eq, h₁.eq]
  · rcases h₂.status with hk | ⟨hj, hk⟩
    · rw [hk]
      exact h₁.status
    · rcases h₁.status with hi | ⟨_, hend⟩
      · exact .inr ⟨hi ▸ hj, hk⟩
      · rw [hj] at hend
        cases hend

/-- An item that waited ends. -/
theorem WorkItem.advances_close {i : WorkItem} (hi : i.status = .notStarted)
    {status : WorkItemRunStatus} (hs : ended status = true) (summary outcome : String) :
    i.Advances (i.close status summary outcome) :=
  ⟨rfl, .inr ⟨hi, hs⟩⟩

theorem Attempt.Advances.refl (a : Attempt) : a.Advances a :=
  ⟨rfl, List.forall₂_same.mpr fun i _ => .refl i⟩

theorem Attempt.Advances.trans {a b c : Attempt} (h₁ : a.Advances b) (h₂ : b.Advances c) :
    a.Advances c :=
  ⟨by rw [h₂.eq, h₁.eq], forall₂_trans (fun _ _ _ => .trans) h₁.items h₂.items⟩

theorem Leg.Advances.refl (l : Leg) : l.Advances l :=
  ⟨rfl, List.forall₂_same.mpr fun a _ => .refl a⟩

theorem Leg.Advances.trans {l m n : Leg} (h₁ : l.Advances m) (h₂ : m.Advances n) : l.Advances n :=
  ⟨by rw [h₂.eq, h₁.eq], forall₂_trans (fun _ _ _ => .trans) h₁.attempts h₂.attempts⟩

/-! ## What it keeps -/

section Kept

variable {i j : WorkItem} {a b : Attempt} {l m : Leg}

theorem WorkItem.Advances.id (h : i.Advances j) : j.id = i.id := by rw [h.eq]

theorem WorkItem.Advances.key (h : i.Advances j) : j.key = i.key := by rw [h.eq]

theorem WorkItem.Advances.legGoalVersion (h : i.Advances j) :
    j.legGoalVersion = i.legGoalVersion := by rw [h.eq]

theorem WorkItem.Advances.dependsOn (h : i.Advances j) : j.dependsOn = i.dependsOn := by rw [h.eq]

theorem WorkItem.Advances.ended (h : i.Advances j) (hi : ended i.status = true) :
    ended j.status = true := by
  rcases h.status with hs | ⟨hs, _⟩
  · rw [hs]
    exact hi
  · rw [hs] at hi
    cases hi

theorem WorkItem.Advances.waits (h : i.Advances j) (hj : j.waits = true) : i.waits = true := by
  unfold WorkItem.waits at hj ⊢
  rcases h.status with hs | ⟨hs, _⟩
  · rwa [← hs]
  · rw [hs]
    rfl

theorem Attempt.Advances.id (h : a.Advances b) : b.id = a.id := by rw [h.eq]

theorem Attempt.Advances.plan (h : a.Advances b) : b.plan = a.plan := by rw [h.eq]

theorem Attempt.Advances.status (h : a.Advances b) : b.status = a.status := by rw [h.eq]

theorem Leg.Advances.id (h : l.Advances m) : m.id = l.id := by rw [h.eq]

theorem Leg.Advances.status (h : l.Advances m) : m.status = l.status := by rw [h.eq]

theorem Leg.Advances.legGoalVersion (h : l.Advances m) :
    m.legGoalVersion = l.legGoalVersion := by rw [h.eq]

theorem Leg.Advances.workItems (h : l.Advances m) :
    List.Forall₂ WorkItem.Advances l.workItems m.workItems :=
  List.rel_flatMap h.attempts fun _ _ hab => hab.items

/-- The item that a dependency means has advanced, too. -/
theorem Leg.Advances.find? (h : l.Advances m) (id : String) (version : Nat) :
    Option.Rel WorkItem.Advances
      (l.workItems.find? fun item => item.id = id ∧ item.legGoalVersion = version)
      (m.workItems.find? fun item => item.id = id ∧ item.legGoalVersion = version) := by
  refine find?_rel (fun i j hij => ?_) h.workItems
  rw [hij.id, hij.legGoalVersion]

end Kept

/-! ## Ending the item at a position -/

/-- How many items of the leg wait. -/
def Leg.waiting (leg : Leg) : Nat :=
  leg.workItems.countP (·.waits)

theorem Leg.Advances.waiting_le {l m : Leg} (h : l.Advances m) : m.waiting ≤ l.waiting :=
  countP_le_of_forall₂ (fun _ _ hij => hij.waits) h.workItems

theorem Leg.item?_eq_some {leg : Leg} {attempt item : Nat} {i : WorkItem}
    (h : leg.item? attempt item = some i) :
    ∃ a, leg.attempts[attempt]? = some a ∧ a.workItems[item]? = some i :=
  Option.bind_eq_some_iff.mp h

theorem Leg.advances_modifyItem {leg : Leg} {attempt item : Nat} {i : WorkItem}
    (h : leg.item? attempt item = some i) {f : WorkItem → WorkItem} (hf : i.Advances (f i)) :
    leg.Advances (leg.modifyItem attempt item f) := by
  obtain ⟨a, ha, hi⟩ := Leg.item?_eq_some h
  exact ⟨rfl, modify_forall₂ .refl ha ⟨rfl, modify_forall₂ .refl hi hf⟩⟩

theorem Leg.waiting_modifyItem_lt {leg : Leg} {attempt item : Nat} {i : WorkItem}
    (h : leg.item? attempt item = some i) {f : WorkItem → WorkItem} (hi : i.waits = true)
    (hf : (f i).waits = false) : (leg.modifyItem attempt item f).waiting < leg.waiting := by
  obtain ⟨a, ha, hitem⟩ := Leg.item?_eq_some h
  unfold Leg.waiting Leg.workItems
  rw [List.countP_flatMap, List.countP_flatMap]
  have hlt := countP_modify_lt (p := fun i : WorkItem => i.waits) hitem hi hf
  exact sum_map_modify_lt (g := fun a : Attempt => a.workItems.countP fun i => i.waits)
    (f := fun a => { a with workItems := a.workItems.modify item f }) ha hlt

theorem Leg.exists_position {leg : Leg} {i : WorkItem} (h : i ∈ leg.workItems) :
    ∃ position ∈ leg.positions, leg.item? position.1 position.2 = some i := by
  obtain ⟨a, ha, hi⟩ := List.mem_flatMap.mp h
  obtain ⟨attempt, hattempt⟩ := List.mem_iff_getElem?.mp ha
  obtain ⟨item, hitem⟩ := List.mem_iff_getElem?.mp hi
  refine ⟨(attempt, item), ?_, ?_⟩
  · unfold Leg.positions
    refine List.mem_flatMap.mpr ⟨(a, attempt), ?_, ?_⟩
    · exact List.mem_zipIdx_iff_getElem?.mpr hattempt
    · have hlt : item < a.workItems.length := (List.getElem?_eq_some_iff.mp hitem).1
      exact List.mem_map.mpr ⟨item, List.mem_range.mpr hlt, rfl⟩
  · simp [Leg.item?, hattempt, hitem]

/-! ## Propagation -/

section Propagation

variable (running : RunningMetadata)

/-- What code that blocks items makes of a leg, and whether it says that it has blocked any. -/
structure Blocks (leg : Leg) (result : Leg × Bool) : Prop where
  advances : leg.Advances result.1
  unchanged : result.2 = false → result.1 = leg
  changed : result.2 = true → result.1.waiting < leg.waiting

theorem Blocks.refl (leg : Leg) : Blocks leg (leg, false) :=
  ⟨.refl leg, fun _ => rfl, fun h => (by cases h)⟩

theorem blockAt_blocks (leg : Leg) (position : Nat × Nat) :
    Blocks leg (blockAt running leg position) := by
  unfold blockAt
  split
  · exact .refl leg
  · next item hitem =>
    split
    · next hblock =>
      simp only [blockable, Bool.and_eq_true, beq_iff_eq] at hblock
      have hwaits : item.waits = true := by simp [WorkItem.waits, hblock.1.1]
      refine ⟨?_, fun h => (by cases h), fun _ => ?_⟩
      · exact Leg.advances_modifyItem hitem (WorkItem.advances_close hblock.1.1 rfl _ _)
      · exact Leg.waiting_modifyItem_lt hitem hwaits rfl
    · exact .refl leg

theorem blockAt_eq_false {leg : Leg} {position : Nat × Nat} {item : WorkItem}
    (hitem : leg.item? position.1 position.2 = some item)
    (h : (blockAt running leg position).2 = false) : blockable running leg item = false := by
  unfold blockAt at h
  simp only [hitem] at h
  by_contra hblock
  rw [if_pos (by simpa using hblock)] at h
  cases h

/-- The inner loops, over any positions. -/
def blockAll (positions : List (Nat × Nat)) (leg : Leg) (changed : Bool) : Leg × Bool :=
  positions.foldl (fun (leg, changed) position =>
    let (leg, blocked) := blockAt running leg position
    (leg, changed || blocked)) (leg, changed)

theorem blockAll_cons (position : Nat × Nat) (rest : List (Nat × Nat)) (leg : Leg)
    (changed : Bool) : blockAll running (position :: rest) leg changed =
      blockAll running rest (blockAt running leg position).1
        (changed || (blockAt running leg position).2) :=
  rfl

/-- Once an item is blocked, the loops remember it. -/
theorem blockAll_true (positions : List (Nat × Nat)) (leg : Leg) :
    (blockAll running positions leg true).2 = true := by
  induction positions generalizing leg with
  | nil => rfl
  | cons position rest ih =>
    rw [blockAll_cons, Bool.true_or]
    exact ih _

theorem blockAll_advances (positions : List (Nat × Nat)) (leg : Leg) (changed : Bool) :
    leg.Advances (blockAll running positions leg changed).1 := by
  induction positions generalizing leg changed with
  | nil => exact .refl leg
  | cons position rest ih =>
    rw [blockAll_cons]
    exact (blockAt_blocks running leg position).advances.trans (ih _ _)

theorem blockAll_spec (positions : List (Nat × Nat)) (leg : Leg) :
    Blocks leg (blockAll running positions leg false) ∧
      ((blockAll running positions leg false).2 = false →
        ∀ position ∈ positions, (blockAt running leg position).2 = false) := by
  induction positions generalizing leg with
  | nil => exact ⟨.refl leg, by simp⟩
  | cons position rest ih =>
    have hfirst := blockAt_blocks running leg position
    rw [blockAll_cons, Bool.false_or]
    cases hb : (blockAt running leg position).2 with
    | false =>
      rw [hfirst.unchanged hb]
      obtain ⟨hblocks, hrest⟩ := ih leg
      refine ⟨hblocks, fun h p hp => ?_⟩
      rcases List.mem_cons.mp hp with rfl | hp
      · exact hb
      · exact hrest h p hp
    | true =>
      -- the flag is set for good, so only the leg matters from here on
      have hadv := blockAll_advances running rest (blockAt running leg position).1 true
      have hlt := hfirst.changed hb
      have hle := hadv.waiting_le
      refine ⟨⟨hfirst.advances.trans hadv, fun h => ?_, fun _ => by omega⟩, fun h => ?_⟩
      · rw [blockAll_true] at h
        cases h
      · rw [blockAll_true] at h
        cases h

/-- No item of the leg can be blocked. -/
def Leg.Unblocked (leg : Leg) : Prop :=
  ∀ item ∈ leg.workItems, blockable running leg item = false

theorem propagatePass_spec (leg : Leg) :
    Blocks leg (propagatePass running leg) ∧
      ((propagatePass running leg).2 = false → leg.Unblocked running) := by
  obtain ⟨hblocks, hnone⟩ := blockAll_spec running leg.positions leg
  refine ⟨hblocks, fun h item hitem => ?_⟩
  obtain ⟨position, hposition, hat⟩ := Leg.exists_position hitem
  exact blockAt_eq_false running hat (hnone h position hposition)

theorem propagateLoop_spec (fuel : Nat) (leg : Leg) (h : leg.waiting < fuel) :
    Blocks leg (propagateLoop running fuel leg) ∧
      (propagateLoop running fuel leg).1.Unblocked running := by
  induction fuel generalizing leg with
  | zero => cases h
  | succ fuel ih =>
    obtain ⟨hpass, hnone⟩ := propagatePass_spec running leg
    unfold propagateLoop
    cases hp : propagatePass running leg with
    | mk next changed =>
      rw [hp] at hpass hnone
      cases changed with
      | false =>
        obtain rfl : next = leg := hpass.unchanged rfl
        exact ⟨.refl next, hnone rfl⟩
      | true =>
        have hlt : next.waiting < leg.waiting := hpass.changed rfl
        obtain ⟨hblocks, hunblocked⟩ := ih next (by omega)
        have hle := hblocks.advances.waiting_le
        simp only [if_true]
        refine ⟨⟨hpass.advances.trans hblocks.advances, fun h => (by cases h), fun _ => ?_⟩,
          hunblocked⟩
        show (propagateLoop running fuel next).1.waiting < leg.waiting
        omega

/-- **Propagation blocks items until there is none to block.** -/
theorem propagateDependencyBlocks_spec (leg : Leg) :
    Blocks leg (propagateDependencyBlocks running leg) ∧
      (propagateDependencyBlocks running leg).1.Unblocked running :=
  propagateLoop_spec running _ leg (Nat.lt_succ_self _)

end Propagation

end EphemeralAgent.Pursuit
