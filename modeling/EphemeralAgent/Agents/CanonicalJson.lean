import Mathlib.Data.List.Sort
import Mathlib.Data.List.Perm.Basic
import EphemeralAgent.Contracts.JsonText

/-!
# Canonical JSON

`canonicalJson` of `src/agents/outcome-advisory.ts`: a value is printed with the keys of every
object sorted.

* `sortKeys`, `canonicalJson` — the function of the source
* `SameValue` — two values are equal up to the order of the keys of their objects
* `same_of_canonicalJson` — values with one canonical text are the same value
-/

namespace EphemeralAgent.Agents

open Json

/-! ## The order of keys -/

/-- The UTF-16 code units of a string, by which JavaScript compares. -/
def codeUnits (s : String) : List Nat :=
  s.toList.flatMap fun c =>
    if c.toNat < 0x10000 then [c.toNat]
    else [0xd800 + (c.toNat - 0x10000) / 0x400, 0xdc00 + (c.toNat - 0x10000) % 0x400]

/-- `a <= b` on the keys of two entries. -/
def entryLe (a b : String × Json) : Prop :=
  List.le (codeUnits a.1) (codeUnits b.1)

instance : DecidableRel entryLe := fun a b =>
  inferInstanceAs (Decidable (List.le (codeUnits a.1) (codeUnits b.1)))

/-- The number that a key is as an array index, when it is one. -/
def arrayIndex? (key : String) : Option Nat :=
  let digits := key.toList
  if digits ≠ [] ∧ digits.all Char.isDigit = true ∧ (digits.head? ≠ some '0' ∨ digits = ['0']) then
    let n := digits.foldl (fun n c => n * 10 + (c.toNat - 48)) 0
    if n < 2 ^ 32 - 1 then some n else none
  else none

/-- Array indices in their order, by number. -/
def indexLe (a b : String × Json) : Prop :=
  (arrayIndex? a.1).getD 0 ≤ (arrayIndex? b.1).getD 0

instance : DecidableRel indexLe := fun a b =>
  inferInstanceAs (Decidable ((arrayIndex? a.1).getD 0 ≤ (arrayIndex? b.1).getD 0))

/-- `Object.fromEntries`: an object lists the keys that are array indices first. -/
def fromEntries (entries : List (String × Json)) : JsonObject :=
  (entries.filter fun entry => (arrayIndex? entry.1).isSome).insertionSort indexLe ++
    entries.filter fun entry => !(arrayIndex? entry.1).isSome

/-! ## Sorting -/

mutual

/-- `sortKeys`. -/
def sortKeys : Json → Json
  | .arr items => .arr (sortItems items)
  | .obj fields => .obj (fromEntries ((sortFields fields).insertionSort entryLe))
  | .null => .null
  | .bool value => .bool value
  | .num value => .num value
  | .str value => .str value

def sortItems : List Json → List Json
  | [] => []
  | item :: rest => sortKeys item :: sortItems rest

def sortFields : List (String × Json) → List (String × Json)
  | [] => []
  | (key, value) :: rest => (key, sortKeys value) :: sortFields rest

end

/-- `canonicalJson`. -/
def canonicalJson (n : NumberText) (value : Json) : List Char :=
  stringify n (sortKeys value)

theorem sortItems_eq (items : List Json) : sortItems items = items.map sortKeys := by
  induction items with
  | nil => rfl
  | cons item rest ih => rw [sortItems, ih, List.map_cons]

theorem sortFields_eq (fields : List (String × Json)) :
    sortFields fields = fields.map fun field => (field.1, sortKeys field.2) := by
  induction fields with
  | nil => rfl
  | cons field rest ih => rw [sortFields, ih, List.map_cons]

theorem fromEntries_perm (entries : List (String × Json)) : (fromEntries entries).Perm entries := by
  unfold fromEntries
  refine ((List.perm_insertionSort indexLe _).append_right _).trans ?_
  exact List.filter_append_perm _ _

/-! ## Equality up to the order of keys -/

/-- Equal as JSON values, up to the order of the keys of every object. -/
inductive SameValue : Json → Json → Prop
  | null : SameValue .null .null
  | bool (value : Bool) : SameValue (.bool value) (.bool value)
  | num (value : Rat) : SameValue (.num value) (.num value)
  | str (value : String) : SameValue (.str value) (.str value)
  | arr {xs ys : List Json} (hitems : List.Forall₂ SameValue xs ys) : SameValue (.arr xs) (.arr ys)
  | obj {xs ys zs : List (String × Json)} (hperm : xs.Perm ys)
      (hkeys : ys.map Prod.fst = zs.map Prod.fst)
      (hvalues : List.Forall₂ SameValue (ys.map Prod.snd) (zs.map Prod.snd)) :
      SameValue (.obj xs) (.obj zs)

theorem eq_of_same_str {a b : String} (h : SameValue (.str a) (.str b)) : a = b := by
  cases h
  rfl

/-- Lists that are permutations of each other under `f` correspond, one of them permuted. -/
theorem exists_perm_of_map_perm {α β : Type*} {f : α → β} {xs ys : List α}
    (h : (xs.map f).Perm (ys.map f)) :
    ∃ xs', xs.Perm xs' ∧ List.Forall₂ (fun x y => f x = f y) xs' ys := by
  have himage : List.Forall₂ (fun x z => f x = z) xs (xs.map f) := by
    rw [List.forall₂_map_right_iff]
    exact List.forall₂_same.mpr fun _ _ => rfl
  have hcomp : Relation.Comp (List.Forall₂ fun x z => f x = z) List.Perm xs (ys.map f) :=
    ⟨_, himage, h⟩
  rw [List.forall₂_comp_perm_eq_perm_comp_forall₂] at hcomp
  obtain ⟨xs', hperm, hforall⟩ := hcomp
  exact ⟨xs', hperm, List.forall₂_map_right_iff.mp hforall⟩

/-- **Values that sort alike are the same value.** -/
theorem same_of_sortKeys : ∀ (a b : Json), sortKeys a = sortKeys b → SameValue a b
  | .null, b, h => by cases b <;> simp [sortKeys] at h; exact .null
  | .bool value, b, h => by cases b <;> simp [sortKeys] at h; rw [h]; exact .bool _
  | .num value, b, h => by cases b <;> simp [sortKeys] at h; rw [h]; exact .num _
  | .str value, b, h => by cases b <;> simp [sortKeys] at h; rw [h]; exact .str _
  | .arr xs, b, h => by
    cases b with
    | arr ys =>
      rw [sortKeys, sortKeys, Json.arr.injEq, sortItems_eq, sortItems_eq] at h
      refine .arr ?_
      have hforall : List.Forall₂ (fun x y => sortKeys x = sortKeys y) xs ys := by
        have hmap : List.Forall₂ Eq (xs.map sortKeys) (ys.map sortKeys) := by
          rw [List.forall₂_eq_eq_eq, h]
        rwa [List.forall₂_map_left_iff, List.forall₂_map_right_iff] at hmap
      rw [List.forall₂_iff_get] at hforall ⊢
      refine ⟨hforall.1, fun i hx hy => ?_⟩
      have hlt : sizeOf xs[i] < 1 + sizeOf xs := by
        have hsize := List.sizeOf_lt_of_mem (List.getElem_mem hx)
        omega
      exact same_of_sortKeys _ _ (hforall.2 i hx hy)
    | _ => simp [sortKeys] at h
  | .obj xs, b, h => by
    cases b with
    | obj zs =>
      rw [sortKeys, sortKeys, Json.obj.injEq] at h
      -- sorting permutes the fields: equal results come from permuted ones
      have hperm : (sortFields xs).Perm (sortFields zs) := by
        refine (List.perm_insertionSort entryLe _).symm.trans ?_
        refine (fromEntries_perm _).symm.trans ?_
        rw [h]
        exact (fromEntries_perm _).trans (List.perm_insertionSort entryLe _)
      rw [sortFields_eq, sortFields_eq] at hperm
      obtain ⟨ys, hys, hforall⟩ := exists_perm_of_map_perm hperm
      have hkeys : ys.map Prod.fst = zs.map Prod.fst := by
        rw [← List.forall₂_eq_eq_eq, List.forall₂_map_left_iff, List.forall₂_map_right_iff]
        exact hforall.imp fun p q hpq => (Prod.mk.inj hpq).1
      refine .obj hys hkeys ?_
      rw [List.forall₂_map_left_iff, List.forall₂_map_right_iff]
      rw [List.forall₂_iff_get] at hforall ⊢
      refine ⟨hforall.1, fun i hy hz => ?_⟩
      have hmem : ys.get ⟨i, hy⟩ ∈ xs := hys.symm.subset (List.get_mem ys ⟨i, hy⟩)
      have hlt : sizeOf ys[i].2 < 1 + sizeOf xs := by
        have hsize := List.sizeOf_lt_of_mem hmem
        have hpair : sizeOf (ys.get ⟨i, hy⟩) = 1 + sizeOf ys[i].1 + sizeOf ys[i].2 := rfl
        omega
      exact same_of_sortKeys _ _ (Prod.mk.inj (hforall.2 i hy hz)).2
    | _ => simp [sortKeys] at h
termination_by a => sizeOf a

/-- **Values with one canonical text are the same value.** -/
theorem same_of_canonicalJson {n : NumberText} {a b : Json}
    (h : canonicalJson n a = canonicalJson n b) : SameValue a b :=
  same_of_sortKeys a b (stringify_injective h)

end EphemeralAgent.Agents
