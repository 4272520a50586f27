import Mathlib.Data.List.Basic

/-!
# A list up to the first item of a kind

What a stream that closes behind such an item delivers.

* `upTo` — the items up to the first one of the kind, and with it
* `upTo_append` — nothing comes behind that one
* `upTo_last`, `upTo_ends` — it is the last item, and the only one of the kind
-/

namespace EphemeralAgent.Lib

variable {α : Type*} (p : α → Bool)

/-- The items up to the first that meets `p`. -/
def upTo : List α → List α
  | [] => []
  | x :: xs => if p x then [x] else x :: upTo xs

variable {p}

theorem upTo_append (xs ys : List α) :
    upTo p (xs ++ ys) = upTo p xs ++ if xs.any p then [] else upTo p ys := by
  induction xs with
  | nil => rfl
  | cons x xs ih =>
    rw [List.cons_append, upTo, upTo, List.any_cons]
    by_cases hx : p x = true
    · simp [hx]
    · rw [if_neg hx, if_neg hx, ih]
      simp [hx]

theorem upTo_isPrefix : ∀ xs : List α, upTo p xs <+: xs
  | [] => List.prefix_refl []
  | x :: xs => by
    unfold upTo
    split
    · exact List.prefix_append [x] xs
    · exact (List.prefix_cons_inj x).mpr (upTo_isPrefix xs)

/-- Only the last item can be of the kind. -/
theorem upTo_last : ∀ {xs before : List α} {x : α}, before ++ [x] <+: upTo p xs → p x = true →
    upTo p xs = before ++ [x]
  | [], before, x, h, _ => by
    obtain ⟨rest, heq⟩ := h
    exact absurd heq (by simp [upTo])
  | y :: ys, before, x, h, hx => by
    unfold upTo at h ⊢
    by_cases hy : p y = true
    · rw [if_pos hy] at h ⊢
      exact (h.eq_of_length_le (by simp)).symm
    · rw [if_neg hy] at h ⊢
      cases before with
      | nil =>
        -- the first item would be the last one
        obtain ⟨tail, heq⟩ := h
        rw [List.nil_append, List.singleton_append, List.cons.injEq] at heq
        rw [heq.1] at hx
        exact absurd hx hy
      | cons z before =>
        obtain ⟨rfl, hrest⟩ := List.cons_prefix_cons.mp h
        rw [upTo_last hrest hx]
        rfl

/-- When there is an item of the kind, the list ends with it. -/
theorem upTo_ends : ∀ {xs : List α}, xs.any p = true →
    ∃ before x, upTo p xs = before ++ [x] ∧ p x = true
  | x :: xs, h => by
    unfold upTo
    by_cases hx : p x = true
    · exact ⟨[], x, if_pos hx, hx⟩
    · rw [List.any_cons, Bool.or_eq_true] at h
      obtain ⟨before, last, heq, hlast⟩ := upTo_ends (h.resolve_left hx)
      rw [if_neg hx, heq]
      exact ⟨x :: before, last, rfl, hlast⟩

/-- What stands before the last of some first items is not of the kind. -/
theorem not_of_mem_dropLast {xs ys : List α} {x : α} (h : ys <+: upTo p xs)
    (hx : x ∈ ys.dropLast) : p x = false := by
  by_contra hne
  rw [Bool.not_eq_false] at hne
  obtain ⟨before, after, heq⟩ := List.append_of_mem hx
  have hlong : before ++ [x] <+: upTo p xs := by
    refine List.IsPrefix.trans ⟨after, ?_⟩ ((List.dropLast_prefix _).trans h)
    rw [heq, List.append_assoc]
    rfl
  have hall := upTo_last hlong hne
  have hlength := h.length_le
  rw [hall, List.length_append, List.length_singleton] at hlength
  have hdrop := congrArg List.length heq
  rw [List.length_dropLast, List.length_append, List.length_cons] at hdrop
  omega

end EphemeralAgent.Lib
