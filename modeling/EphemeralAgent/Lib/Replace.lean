import Mathlib.Data.List.Basic

/-!
# Replacing one character of a string

`String.replace` with a pattern of one character, on the characters of the string.

* `toList_replace` — every occurrence, and nothing else, is replaced
-/

namespace EphemeralAgent.Lib

open String.Slice String.Slice.Pattern String.Slice.Pattern.Model

variable {pat new : String} {c : Char} {s : String.Slice}

/-- The part of a slice between two positions. -/
theorem slice_of_splits {p q : s.Pos} {t₁ t t₂ : String} (hp : p.Splits t₁ (t ++ t₂))
    (hq : q.Splits (t₁ ++ t) t₂) : (s.slice! p q).copy = t := by
  obtain ⟨h, heq⟩ := copy_slice_eq_iff_splits.mpr ⟨t₁, t₂, hp, hq⟩
  have hslice : s.slice p q h = s.slice! p q := slice_eq_slice!
  rw [← hslice, heq]

/-- A part in which no match starts does not hold the character. -/
theorem notMem_of_rejected (hpat : pat.toList = [c]) {p q : s.Pos} {t₁ t t₂ : String}
    (hp : p.Splits t₁ (t ++ t₂)) (hq : q.Splits (t₁ ++ t) t₂)
    (hrej : ∀ pos, p ≤ pos → pos < q → ¬ MatchesAt pat pos) : c ∉ t.toList := by
  intro hmem
  obtain ⟨a, b, hab⟩ := List.append_of_mem hmem
  have ht : t = String.ofList a ++ (pat ++ String.ofList b) := by
    apply String.toList_inj.mp
    simp [hab, hpat]
  have hcopy : s.copy = (t₁ ++ String.ofList a) ++ (pat ++ (String.ofList b ++ t₂)) := by
    rw [hp.eq_append, ht]
    simp only [String.append_assoc]
  -- the position in front of the character is one where the pattern matches
  have hsplit := Pos.splits_ofEqAppend hcopy
  refine hrej _ ?_ ?_ (ForwardStringSearcher.matchesAt_iff_splits.mpr ⟨_, _, hsplit⟩)
  · refine (hp.le_iff_exists_eq_append hsplit).mpr ⟨String.ofList a, rfl, ?_⟩
    rw [ht]
    simp only [String.append_assoc]
  · refine (hsplit.lt_iff_exists_eq_append hq).mpr ⟨pat ++ String.ofList b, ?_, ?_, ?_⟩
    · intro h
      have hnil := congrArg String.toList h
      simp [hpat] at hnil
    · rw [ht]
      simp only [String.append_assoc]
    · simp only [String.append_assoc]

/-- What a search puts together, from the position it starts at. -/
theorem foldl_search (hpat : pat.toList = [c]) {pos : s.Pos} {steps : List (SearchStep s)}
    (h : IsValidSearchFrom pat pos steps) :
    ∀ {t₁ t₂ : String}, pos.Splits t₁ t₂ → ∀ acc : String,
      (steps.foldl (fun
        | sofar, .matched .. => sofar ++ String.Slice.copy (String.ToSlice.toSlice new)
        | sofar, .rejected start stop => sofar ++ (s.slice! start stop).copy) acc).toList =
      acc.toList ++ t₂.toList.flatMap fun d => if d = c then new.toList else [d] := by
  induction h with
  | endPos =>
    intro t₁ t₂ hpos acc
    have hend : t₂ = "" := hpos.eq_endPos_iff.mp rfl
    simp [hend]
  | matched hmatch valid ih =>
    intro t₁ t₂ hpos acc
    obtain ⟨u₁, u₂, h₁, h₂⟩ := ForwardStringSearcher.isLongestMatchAt_iff_splits.mp hmatch
    rw [hpos.eq_right h₁, List.foldl_cons, ih h₂]
    have hnew : (String.ToSlice.toSlice new).copy = new := String.copy_toSlice
    simp [hpat, hnew]
  | @mismatched l startPos endPos hlt hrej valid ih =>
    intro t₁ t₂ hpos acc
    have hend := endPos.splits
    obtain ⟨t, _, hleft, hright⟩ := (hpos.lt_iff_exists_eq_append hend).mp hlt
    rw [List.foldl_cons, ih hend, hright]
    rw [hright] at hpos
    rw [hleft] at hend
    have hslice := slice_of_splits hpos hend
    have hfree := notMem_of_rejected hpat hpos hend hrej
    have hkept : (t.toList.flatMap fun d => if d = c then new.toList else [d]) = t.toList := by
      conv_rhs => rw [← List.flatMap_singleton' t.toList]
      apply List.flatMap_congr
      intro d hd
      rw [if_neg]
      rintro rfl
      exact hfree hd
    simp [hslice, hkept]

/-- **Replacing a character replaces every occurrence of it, and nothing else.** -/
theorem toList_replace (hpat : pat.toList = [c]) (s new : String) :
    (s.replace pat new).toList = s.toList.flatMap fun d => if d = c then new.toList else [d] := by
  have hne : pat ≠ "" := by
    rintro rfl
    cases hpat
  have hvalid := (ForwardStringSearcher.lawfulToForwardSearcherModel hne).isValidSearchFrom_toList
    s.toSlice
  have hfold := @foldl_search pat new c s.toSlice hpat _ _ hvalid _ _ (splits_startPos _) ""
  rw [Std.Iter.foldl_toList] at hfold
  refine hfold.trans ?_
  rw [String.copy_toSlice]
  rfl

end EphemeralAgent.Lib
