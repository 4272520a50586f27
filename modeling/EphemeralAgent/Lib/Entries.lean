import Mathlib.Data.List.Induction
import Mathlib.Data.List.Nodup

/-!
# Maps that keep the order of insertion

A map as the list of its entries: a new key goes to the end, and a new value keeps the place of
its key.

* `setEntry`, `setEntries` — one write, and several in a row
* `setEntries_of_nodup` — writes under distinct keys are kept as they are
* `mem_setEntries` — writes that agree wherever they meet are all kept
-/

namespace EphemeralAgent.Lib

variable {K V : Type*} [DecidableEq K]

/-- `map.set(key, value)`. -/
def setEntry (entries : List (K × V)) (entry : K × V) : List (K × V) :=
  if entry.1 ∈ entries.map (·.1) then
    entries.map fun other => if other.1 = entry.1 then entry else other
  else entries ++ [entry]

/-- A map after some writes. -/
def setEntries (writes : List (K × V)) : List (K × V) :=
  writes.foldl setEntry []

/-- Writes under one key write the same. -/
def Agreeing (writes : List (K × V)) : Prop :=
  ∀ e ∈ writes, ∀ e' ∈ writes, e.1 = e'.1 → e = e'

variable {entries writes : List (K × V)} {entry e : K × V}

theorem setEntries_concat (writes : List (K × V)) (entry : K × V) :
    setEntries (writes ++ [entry]) = setEntry (setEntries writes) entry := by
  simp [setEntries]

theorem setEntry_of_notMem (h : entry.1 ∉ entries.map (·.1)) :
    setEntry entries entry = entries ++ [entry] :=
  if_neg h

/-- A write that says what the map says already changes nothing. -/
theorem setEntry_of_agreeing (h : Agreeing entries) (hmem : entry ∈ entries) :
    setEntry entries entry = entries := by
  unfold setEntry
  rw [if_pos (List.mem_map_of_mem hmem)]
  refine (List.map_congr_left fun other hother => ?_).trans (List.map_id entries)
  by_cases hkey : other.1 = entry.1
  · rw [if_pos hkey, h other hother entry hmem hkey]
    rfl
  · rw [if_neg hkey]
    rfl

theorem nodup_keys_setEntry (h : (entries.map (·.1)).Nodup) :
    ((setEntry entries entry).map (·.1)).Nodup := by
  by_cases hkey : entry.1 ∈ entries.map (·.1)
  · unfold setEntry
    rw [if_pos hkey, List.map_map]
    have hkeys : (fun e : K × V => e.1) ∘ (fun other => if other.1 = entry.1 then entry else other)
        = fun e => e.1 := by
      funext other
      show (if other.1 = entry.1 then entry else other).1 = other.1
      split
      · next heq => exact heq.symm
      · rfl
    rw [hkeys]
    exact h
  · rw [setEntry_of_notMem hkey, List.map_append, List.map_singleton]
    exact List.Nodup.append h (List.nodup_singleton _) (by simpa using hkey)

/-- **A map has one entry under each of its keys.** -/
theorem nodup_keys_setEntries (writes : List (K × V)) : ((setEntries writes).map (·.1)).Nodup := by
  induction writes using List.reverseRecOn with
  | nil => exact List.nodup_nil
  | append_singleton writes entry ih =>
    rw [setEntries_concat]
    exact nodup_keys_setEntry ih

theorem setEntry_ne_nil (entries : List (K × V)) (entry : K × V) : setEntry entries entry ≠ [] := by
  unfold setEntry
  split
  · next h =>
    intro hnil
    rw [List.map_eq_nil_iff] at hnil
    rw [hnil] at h
    exact List.not_mem_nil h
  · exact List.append_ne_nil_of_right_ne_nil _ (List.cons_ne_nil _ _)

theorem setEntries_ne_nil (h : writes ≠ []) : setEntries writes ≠ [] := by
  rw [← List.dropLast_concat_getLast h, setEntries_concat]
  exact setEntry_ne_nil _ _

/-- Writes under distinct keys are kept as they are. -/
theorem setEntries_of_nodup (h : (writes.map (·.1)).Nodup) : setEntries writes = writes := by
  induction writes using List.reverseRecOn with
  | nil => rfl
  | append_singleton writes entry ih =>
    rw [List.map_append, List.map_singleton, List.nodup_append] at h
    rw [setEntries_concat, ih h.1]
    exact setEntry_of_notMem fun hmem => h.2.2 _ hmem _ (List.mem_singleton_self _) rfl

/-- **Writes that agree wherever they meet are all kept.** -/
theorem mem_setEntries (h : Agreeing writes) : e ∈ setEntries writes ↔ e ∈ writes := by
  induction writes using List.reverseRecOn generalizing e with
  | nil => rfl
  | append_singleton writes entry ih =>
    have hbefore : Agreeing writes := fun a ha b hb =>
      h a (List.mem_append_left _ ha) b (List.mem_append_left _ hb)
    have hmem : ∀ {e}, e ∈ setEntries writes ↔ e ∈ writes := ih hbefore
    have hmap : Agreeing (setEntries writes) := fun a ha b hb =>
      hbefore a (hmem.mp ha) b (hmem.mp hb)
    rw [setEntries_concat, List.mem_append, List.mem_singleton]
    by_cases hkey : entry.1 ∈ (setEntries writes).map (·.1)
    · -- the entry under this key was written before
      obtain ⟨other, hother, heq⟩ := List.mem_map.mp hkey
      obtain rfl : other = entry := h other (List.mem_append_left _ (hmem.mp hother)) entry
        (List.mem_append_right _ (List.mem_singleton_self _)) heq
      rw [setEntry_of_agreeing hmap hother, hmem]
      constructor
      · exact Or.inl
      · rintro (hold | rfl)
        · exact hold
        · exact hmem.mp hother
    · rw [setEntry_of_notMem hkey, List.mem_append, List.mem_singleton, hmem]

end EphemeralAgent.Lib
