import Mathlib.Data.List.Forall2
import Mathlib.Data.List.Basic

/-!
# Gathering values that arrive in any order

As many places as there are values; a value that arrives is put into its own place, and all are
taken when every place is filled.

* `arrive`, `gathered` — the two operations
* `Fills` — every filled place holds the value that belongs to it
* `Fills.gathered` — what is taken are the values in their order, whatever the order they came in
-/

namespace EphemeralAgent.Lib

variable {α : Type*}

/-- The `k`th value arrives, once. -/
def arrive (values : List α) (slots : List (Option α)) (k : Nat) : Option (List (Option α)) :=
  match slots[k]?, values[k]? with
  | some none, some value => some (slots.set k (some value))
  | _, _ => none

/-- All values, when all have arrived. -/
def gathered : List (Option α) → Option (List α)
  | [] => some []
  | some value :: slots => (gathered slots).map (value :: ·)
  | none :: _ => none

/-- Every filled place holds the value that belongs to it. -/
def Fills (values : List α) (slots : List (Option α)) : Prop :=
  List.Forall₂ (fun value slot => slot = none ∨ slot = some value) values slots

theorem Fills.set {values : List α} {slots : List (Option α)} (h : Fills values slots) :
    ∀ {k : Nat} {value : α}, values[k]? = some value → Fills values (slots.set k (some value)) := by
  induction h with
  | nil => exact fun hk => by cases hk
  | @cons value slot values slots hslot hrest ih =>
    intro k new hk
    cases k with
    | zero =>
      rw [List.getElem?_cons_zero, Option.some.injEq] at hk
      exact List.Forall₂.cons (Or.inr (congrArg some hk.symm)) hrest
    | succ k => exact List.Forall₂.cons hslot (ih hk)

/-- An arrival puts a value where it belongs. -/
theorem Fills.arrive {values : List α} {slots slots' : List (Option α)} {k : Nat}
    (h : Fills values slots) (harrive : Lib.arrive values slots k = some slots') :
    Fills values slots' := by
  unfold Lib.arrive at harrive
  split at harrive
  · next value _ hvalue =>
    cases harrive
    exact h.set hvalue
  · cases harrive

/-- **What is gathered are the values in their order.** -/
theorem Fills.gathered {values : List α} {slots : List (Option α)} (h : Fills values slots) :
    ∀ {taken : List α}, Lib.gathered slots = some taken → taken = values := by
  induction h with
  | nil =>
    intro taken htaken
    cases htaken
    rfl
  | @cons value slot values slots hslot _ ih =>
    intro taken htaken
    rcases hslot with rfl | rfl
    · cases htaken
    · rw [Lib.gathered, Option.map_eq_some_iff] at htaken
      obtain ⟨rest, hrest, rfl⟩ := htaken
      rw [ih hrest]

end EphemeralAgent.Lib
