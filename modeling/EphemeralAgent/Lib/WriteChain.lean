import Mathlib.Data.List.Basic

/-!
# A chain of writes

`writes = writes.then(() => write(x))`: each write is called when the one before it has resolved,
and none is called after one that has thrown.

* `WriteChain` — what is written, and what is still to be written
* `Chained` — **what is written is what was chained first, and all of it once nothing is pending,
  unless a write has thrown**
-/

namespace EphemeralAgent.Lib

/-- A chain of writes; the first of `pending` is in flight. -/
structure WriteChain (α : Type*) where
  written : List α := []
  pending : List α := []
  /-- A write has thrown. -/
  broken : Bool := false

namespace WriteChain

variable {α : Type*}

/-- A write is chained to the others. -/
def chain (w : WriteChain α) (x : α) : WriteChain α :=
  if w.broken then w else { w with pending := w.pending ++ [x] }

/-- The write in flight resolves or throws. -/
def settle (w : WriteChain α) (ok : Bool) : Option (WriteChain α) :=
  match w.pending with
  | [] => none
  | x :: rest =>
    if ok then some { w with written := w.written ++ [x], pending := rest }
    else some { w with pending := [], broken := true }

end WriteChain

section Chained

variable {α : Type*} {w v : WriteChain α} {all : List α}

/-- What a chain is, by what has been chained. -/
structure Chained (all : List α) (w : WriteChain α) : Prop where
  kept : w.broken = false → w.written ++ w.pending = all
  cut : w.broken = true → w.pending = [] ∧ ∃ lost rest, all = w.written ++ lost :: rest

theorem chained_nil : Chained ([] : List α) {} where
  kept _ := rfl
  cut h := absurd h Bool.false_ne_true

theorem Chained.chain (h : Chained all w) (x : α) : Chained (all ++ [x]) (w.chain x) := by
  unfold WriteChain.chain
  by_cases hbroken : w.broken = true
  · rw [if_pos hbroken]
    obtain ⟨hpending, lost, rest, heq⟩ := h.cut hbroken
    refine ⟨fun hkept => ?_, fun _ => ⟨hpending, lost, rest ++ [x], by simp [heq]⟩⟩
    rw [hbroken] at hkept
    cases hkept
  · rw [if_neg hbroken]
    refine ⟨fun _ => ?_, fun hcut => absurd hcut hbroken⟩
    show w.written ++ (w.pending ++ [x]) = all ++ [x]
    rw [← List.append_assoc, h.kept (Bool.not_eq_true _ ▸ hbroken)]

theorem Chained.settle {ok : Bool} (h : Chained all w) (hsettle : w.settle ok = some v) :
    Chained all v := by
  unfold WriteChain.settle at hsettle
  split at hsettle
  · cases hsettle
  · next x rest hpending =>
    -- a chain that is broken has nothing in flight
    have hwhole : w.broken = false := by
      by_contra hbroken
      rw [(h.cut (Bool.not_eq_false _ ▸ hbroken)).1] at hpending
      cases hpending
    have hall := h.kept hwhole
    rw [hpending] at hall
    cases ok with
    | true =>
      cases hsettle
      refine ⟨fun _ => ?_, fun hcut => ?_⟩
      · simp [← hall]
      · rw [show w.broken = true from hcut] at hwhole
        cases hwhole
    | false =>
      cases hsettle
      exact ⟨fun hkept => absurd hkept (by simp), fun _ => ⟨rfl, x, rest, hall.symm⟩⟩

/-- What is written was chained first. -/
theorem Chained.first (h : Chained all w) : w.written <+: all := by
  cases hbroken : w.broken with
  | false => exact ⟨w.pending, h.kept hbroken⟩
  | true =>
    obtain ⟨-, lost, rest, heq⟩ := h.cut hbroken
    exact ⟨lost :: rest, heq.symm⟩

/-- A chain with nothing in flight has written all, unless a write has thrown. -/
theorem Chained.written_iff (h : Chained all w) (hpending : w.pending = []) :
    w.written = all ↔ w.broken = false := by
  constructor
  · intro hall
    by_contra hbroken
    obtain ⟨-, lost, rest, heq⟩ := h.cut (Bool.not_eq_false _ ▸ hbroken)
    rw [← hall] at heq
    exact absurd (congrArg List.length heq) (by simp)
  · intro hwhole
    have hall := h.kept hwhole
    rwa [hpending, List.append_nil] at hall

end Chained

end EphemeralAgent.Lib
