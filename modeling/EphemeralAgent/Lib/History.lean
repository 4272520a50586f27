import Mathlib.Data.List.Basic
import Mathlib.Data.List.Induction
import Mathlib.Data.List.Nodup

/-!
# Histories that grow at the end

A component notes what it does at the end of a list.  `Chronicle P` says of such a list that every
item was admissible, by `P`, after the items before it; it is kept by adding an admissible item.

* `Chronicle.snoc` — the one step; `Chronicle.after` reads an item back with its past
* `mem_take_of_lt`, `not_mem_take` — what a sorted list has taken before one of its items
* `Recorded.step` — a component whose step shows items to others, with all it has shown so far
-/

namespace EphemeralAgent.Lib

variable {α : Type*}

/-- Every item was admissible after the items before it. -/
def Chronicle (P : List α → α → Prop) (history : List α) : Prop :=
  ∀ before item after, history = before ++ item :: after → P before item

section Chronicle

variable {P : List α → α → Prop} {history : List α}

theorem Chronicle.nil : Chronicle P ([] : List α) := by
  intro before item after h
  cases before <;> cases h

/-- **An admissible item may be added.** -/
theorem Chronicle.snoc {item : α} (h : Chronicle P history) (hitem : P history item) :
    Chronicle P (history ++ [item]) := by
  intro before other after heq
  rcases List.eq_nil_or_concat after with rfl | ⟨rest, last, rfl⟩
  · obtain ⟨rfl, hother⟩ := List.append_inj' heq rfl
    cases hother
    exact hitem
  · rw [List.concat_eq_append, ← List.cons_append, ← List.append_assoc] at heq
    obtain ⟨hrest, -⟩ := List.append_inj' heq rfl
    exact h before other rest hrest

/-- Items that are admissible one after the other may be added. -/
theorem Chronicle.append {items : List α} (h : Chronicle P history)
    (hitems : ∀ before item after, items = before ++ item :: after → P (history ++ before) item) :
    Chronicle P (history ++ items) := by
  induction items using List.reverseRecOn with
  | nil =>
    rw [List.append_nil]
    exact h
  | append_singleton items item ih =>
    rw [← List.append_assoc]
    refine (ih fun before other after heq => ?_).snoc (hitems items item [] rfl)
    exact hitems before other (after ++ [item]) (by rw [heq]; simp)

/-- An item with the past that admitted it. -/
theorem Chronicle.after (h : Chronicle P history) {item : α} (hitem : item ∈ history) :
    ∃ before, before ⊆ history ∧ P before item := by
  obtain ⟨before, after, heq⟩ := List.append_of_mem hitem
  refine ⟨before, ?_, h before item after heq⟩
  intro x hx
  rw [heq]
  exact List.mem_append_left _ hx

end Chronicle

/-! ## Prefixes of a list without repetitions -/

theorem not_mem_take {xs : List α} {x : α} {n : Nat} (hxs : xs.Nodup) (hx : xs[n]? = some x) :
    x ∉ xs.take n := by
  intro hmem
  obtain ⟨hn, rfl⟩ := List.getElem?_eq_some_iff.mp hx
  obtain ⟨m, hm, heq⟩ := List.mem_take_iff_getElem.mp hmem
  have := (List.Nodup.getElem_inj_iff hxs).mp heq
  omega

/-- In a sorted list, what is smaller than the item at `n` comes before it. -/
theorem mem_take_of_lt {xs : List Nat} {x y n : Nat} (hxs : xs.Pairwise (· < ·))
    (hx : xs[n]? = some x) (hy : y ∈ xs) (hlt : y < x) : y ∈ xs.take n := by
  obtain ⟨hn, rfl⟩ := List.getElem?_eq_some_iff.mp hx
  obtain ⟨m, hm, rfl⟩ := List.getElem_of_mem hy
  have hmn : m < n := by
    by_contra hle
    rcases Nat.lt_or_eq_of_le (Nat.le_of_not_lt hle) with h | rfl
    · have := (List.pairwise_iff_getElem.mp hxs) n m hn hm h
      omega
    · exact Nat.lt_irrefl _ hlt
  exact List.mem_take_iff_getElem.mpr ⟨m, by omega, rfl⟩

/-! ## A component with its history -/

/-- A state and what it has shown so far; no step reads the history. -/
structure Recorded (S O : Type*) where
  state : S
  history : List O

section Recorded

variable {S L O : Type*} {f : S → L → Option (S × List O)}

def Recorded.step (f : S → L → Option (S × List O)) (r : Recorded S O) (l : L) :
    Option (Recorded S O) :=
  (f r.state l).map fun next => { state := next.1, history := r.history ++ next.2 }

theorem Recorded.step_cases {r r' : Recorded S O} {l : L} (h : Recorded.step f r l = some r') :
    ∃ state items, f r.state l = some (state, items) ∧
      r' = { state, history := r.history ++ items } := by
  obtain ⟨next, hnext, rfl⟩ := Option.map_eq_some_iff.mp h
  exact ⟨next.1, next.2, hnext, rfl⟩

end Recorded

end EphemeralAgent.Lib
