import Mathlib.Algebra.GroupWithZero.Nat
import Mathlib.Data.List.Forall2
import Mathlib.Data.List.Induction
import Mathlib.Data.List.Nodup

/-!
# Updating lists in place

A store keeps its records in a list: it looks one up with a test and changes the first hit, or the
record at a position.

* `find?_rel`, `all_iff_of_forall₂`, … — lookups in lists that correspond record by record
* `find?_append_last`, `updateFirst_append_last` — the only record that can be meant is the last
* `mem_eraseIdx_iff`, `mem_set_iff` — removing and replacing a record when keys are distinct
* `sum_map_modify_lt` — a measure of the records drops when one of them drops
-/

namespace EphemeralAgent.Lib

variable {α β : Type*}

/-! ## The first hit -/

/-- Change the first element that satisfies `p`. -/
def updateFirst (p : α → Bool) (f : α → α) : List α → List α
  | [] => []
  | a :: rest => if p a then f a :: rest else a :: updateFirst p f rest

theorem updateFirst_append_last {p : α → Bool} {f : α → α} {xs : List α} {x : α}
    (hxs : ∀ a ∈ xs, p a = false) (hx : p x = true) :
    updateFirst p f (xs ++ [x]) = xs ++ [f x] := by
  induction xs with
  | nil => simp [updateFirst, hx]
  | cons a rest ih =>
    have ha : p a = false := hxs a List.mem_cons_self
    rw [List.cons_append, updateFirst, if_neg (by simp [ha])]
    rw [ih fun b hb => hxs b (List.mem_cons_of_mem a hb)]
    rfl

/-- What has been changed is still the first hit, if it is a hit. -/
theorem find?_updateFirst {p : α → Bool} {f : α → α} {xs : List α} {x : α}
    (h : xs.find? p = some x) (hf : p (f x) = true) :
    (updateFirst p f xs).find? p = some (f x) := by
  induction xs with
  | nil => cases h
  | cons a rest ih =>
    unfold updateFirst
    by_cases ha : p a = true
    · rw [List.find?_cons_of_pos ha, Option.some.injEq] at h
      rw [if_pos ha, h, List.find?_cons_of_pos hf]
    · rw [List.find?_cons_of_neg ha] at h
      rw [if_neg ha, List.find?_cons_of_neg ha]
      exact ih h

/-- A hit that is not among the other records is the last one, and none of the others is hit. -/
theorem find?_append_last {p : α → Bool} {xs : List α} {x y : α}
    (h : (xs ++ [x]).find? p = some y) (hy : y ∉ xs) :
    y = x ∧ p x = true ∧ ∀ a ∈ xs, p a = false := by
  rw [List.find?_append] at h
  cases hxs : xs.find? p with
  | some z =>
    rw [hxs, Option.some_or, Option.some.injEq] at h
    exact absurd (h ▸ List.mem_of_find?_eq_some hxs) hy
  | none =>
    rw [hxs, Option.none_or] at h
    have hx : p x = true := by
      by_contra hx
      simp [hx] at h
    refine ⟨?_, hx, fun a ha => ?_⟩
    · simpa [hx] using h.symm
    · simpa using List.find?_eq_none.mp hxs a ha

theorem updateFirst_of_find? {p : α → Bool} {f : α → α} {xs : List α} {x y : α}
    (h : (xs ++ [x]).find? p = some y) (hy : y ∉ xs) :
    updateFirst p f (xs ++ [x]) = xs ++ [f x] :=
  have ⟨_, hx, hxs⟩ := find?_append_last h hy
  updateFirst_append_last hxs hx

/-- The last hit is the first one from the back. -/
theorem find?_reverse_of_last {p : α → Bool} {xs : List α} {i : Nat} {x : α}
    (hx : xs[i]? = some x) (hp : p x = true)
    (hlater : ∀ j y, i < j → xs[j]? = some y → p y = false) : xs.reverse.find? p = some x := by
  induction xs using List.reverseRecOn with
  | nil => cases hx
  | append_singleton xs y ih =>
    rw [List.reverse_append, List.reverse_singleton, List.singleton_append]
    rcases Nat.lt_trichotomy i xs.length with hlt | heq | hgt
    · have hy : p y = false := hlater xs.length y hlt (by simp)
      rw [List.find?_cons_of_neg (by simp [hy])]
      rw [List.getElem?_append_left hlt] at hx
      refine ih hx fun j z hj hz => hlater j z hj ?_
      rw [List.getElem?_append_left (List.getElem?_eq_some_iff.mp hz).1]
      exact hz
    · subst heq
      rw [List.getElem?_append_right (Nat.le_refl _), Nat.sub_self, List.getElem?_cons_zero,
        Option.some.injEq] at hx
      subst hx
      exact List.find?_cons_of_pos hp
    · rw [List.getElem?_eq_none (by simp; omega)] at hx
      cases hx

/-- A record is found under its own key when no two records share one. -/
theorem find?_of_nodup [DecidableEq β] {key : α → β} {xs : List α} {x : α}
    (hxs : (xs.map key).Nodup) (hx : x ∈ xs) : (xs.find? fun y => key y == key x) = some x := by
  induction xs with
  | nil => cases hx
  | cons a rest ih =>
    rw [List.map_cons, List.nodup_cons] at hxs
    rcases List.mem_cons.mp hx with rfl | hmem
    · rw [List.find?_cons_of_pos (by simp)]
    · have hne : key a ≠ key x := fun heq => hxs.1 (heq ▸ List.mem_map_of_mem hmem)
      rw [List.find?_cons_of_neg (by simpa using hne)]
      exact ih hxs.2 hmem

/-- When no two records share a key, an update changes every record with the key of the one it
finds. -/
theorem eq_of_mem_updateFirst [DecidableEq β] {key : α → β} {p : α → Bool} {f : α → α} {xs : List α}
    {x y : α} (hxs : (xs.map key).Nodup) (hx : xs.find? p = some x) (hf : key (f x) = key x)
    (hy : y ∈ updateFirst p f xs) (hkey : key y = key x) : y = f x := by
  induction xs with
  | nil => cases hx
  | cons a rest ih =>
    rw [List.map_cons, List.nodup_cons] at hxs
    rw [List.find?_cons] at hx
    unfold updateFirst at hy
    cases ha : p a with
    | true =>
      rw [ha] at hx hy
      obtain rfl := Option.some.inj hx
      rcases List.mem_cons.mp hy with rfl | hy
      · rfl
      · exact absurd (hkey ▸ List.mem_map_of_mem hy) hxs.1
    | false =>
      rw [ha] at hx hy
      rcases List.mem_cons.mp hy with rfl | hy
      · exact absurd (hkey ▸ List.mem_map_of_mem (List.mem_of_find?_eq_some hx)) hxs.1
      · exact ih hxs.2 hx hy

theorem modify_append_last (f : α → α) (xs : List α) (x : α) :
    (xs ++ [x]).modify xs.length f = xs ++ [f x] := by
  induction xs with
  | nil => rfl
  | cons a rest ih => rw [List.cons_append, List.length_cons, List.modify_succ_cons, ih]; rfl

/-! ## Lists that correspond -/

/-- An update of a hit, record by record. -/
theorem updateFirst_forall₂ {R : α → α → Prop} {p : α → Bool} {f : α → α} (hrefl : ∀ a, R a a)
    {xs : List α} {x : α} (hx : xs.find? p = some x) (hf : R x (f x)) :
    List.Forall₂ R xs (updateFirst p f xs) := by
  induction xs with
  | nil => cases hx
  | cons a rest ih =>
    unfold updateFirst
    by_cases ha : p a = true
    · rw [List.find?_cons_of_pos ha, Option.some.injEq] at hx
      subst hx
      rw [if_pos ha]
      exact .cons hf (List.forall₂_same.mpr fun b _ => hrefl b)
    · rw [List.find?_cons_of_neg ha] at hx
      rw [if_neg ha]
      exact .cons (hrefl a) (ih hx)

/-- A change at a position, record by record. -/
theorem modify_forall₂ {R : α → α → Prop} {f : α → α} (hrefl : ∀ a, R a a) {xs : List α}
    {k : Nat} {x : α} (hx : xs[k]? = some x) (hf : R x (f x)) :
    List.Forall₂ R xs (xs.modify k f) := by
  induction xs generalizing k with
  | nil => cases hx
  | cons a rest ih =>
    cases k with
    | zero =>
      rw [List.getElem?_cons_zero, Option.some.injEq] at hx
      subst hx
      rw [List.modify_zero_cons]
      exact .cons hf (List.forall₂_same.mpr fun b _ => hrefl b)
    | succ k =>
      rw [List.getElem?_cons_succ] at hx
      rw [List.modify_succ_cons]
      exact .cons (hrefl a) (ih hx)

theorem forall₂_trans {R : α → α → Prop} (htrans : ∀ a b c, R a b → R b c → R a c) :
    ∀ {xs ys zs : List α}, List.Forall₂ R xs ys → List.Forall₂ R ys zs → List.Forall₂ R xs zs
  | _, _, _, .nil, .nil => .nil
  | _, _, _, .cons h t, .cons h' t' => .cons (htrans _ _ _ h h') (forall₂_trans htrans t t')

/-- Corresponding tests hit corresponding records. -/
theorem find?_rel {R : α → β → Prop} {p : α → Bool} {q : β → Bool}
    (hpq : ∀ a b, R a b → p a = q b) {xs : List α} {ys : List β} (h : List.Forall₂ R xs ys) :
    Option.Rel R (xs.find? p) (ys.find? q) := by
  induction h with
  | nil => exact .none
  | cons hab _ ih =>
    rw [List.find?_cons, List.find?_cons, ← hpq _ _ hab]
    split
    · exact .some hab
    · exact ih

theorem forall₂_append_last {R : α → β → Prop} {xs : List α} {x : α} {zs : List β}
    (h : List.Forall₂ R (xs ++ [x]) zs) :
    ∃ ys y, zs = ys ++ [y] ∧ List.Forall₂ R xs ys ∧ R x y := by
  induction xs generalizing zs with
  | nil =>
    obtain _ | ⟨hx, ht⟩ := h
    obtain _ | _ := ht
    exact ⟨[], _, rfl, .nil, hx⟩
  | cons a rest ih =>
    obtain _ | ⟨ha, ht⟩ := h
    obtain ⟨ys, y, rfl, hys, hy⟩ := ih ht
    exact ⟨_ :: ys, y, rfl, .cons ha hys, hy⟩

theorem exists_of_forall₂_right {R : α → β → Prop} {xs : List α} {ys : List β}
    (h : List.Forall₂ R xs ys) {b : β} (hb : b ∈ ys) : ∃ a ∈ xs, R a b := by
  induction h with
  | nil => cases hb
  | cons hab _ ih =>
    rcases List.mem_cons.mp hb with rfl | hb
    · exact ⟨_, List.mem_cons_self, hab⟩
    · obtain ⟨a, ha, hR⟩ := ih hb
      exact ⟨a, List.mem_cons_of_mem _ ha, hR⟩

/-- Another correspondence, of records that are in the lists. -/
theorem forall₂_imp_mem {R S : α → β → Prop} {xs : List α} {ys : List β}
    (hRS : ∀ a b, a ∈ xs → b ∈ ys → R a b → S a b) (h : List.Forall₂ R xs ys) :
    List.Forall₂ S xs ys := by
  induction h with
  | nil => exact .nil
  | cons hab _ ih =>
    refine .cons (hRS _ _ List.mem_cons_self List.mem_cons_self hab) (ih fun a b ha hb => ?_)
    exact hRS a b (List.mem_cons_of_mem _ ha) (List.mem_cons_of_mem _ hb)

/-- A key that corresponding records share. -/
theorem map_eq_of_forall₂ {γ : Type*} {R : α → β → Prop} {f : α → γ} {g : β → γ}
    (hfg : ∀ a b, R a b → g b = f a) {xs : List α} {ys : List β} (h : List.Forall₂ R xs ys) :
    ys.map g = xs.map f := by
  induction h with
  | nil => rfl
  | cons hab _ ih => rw [List.map_cons, List.map_cons, hfg _ _ hab, ih]

/-- A change at a position of the second list keeps the correspondence, if it does so there. -/
theorem forall₂_modify {R : α → β → Prop} {f : β → β} {xs : List α} {ys : List β}
    (h : List.Forall₂ R xs ys) {k : Nat} {y : β} (hy : ys[k]? = some y)
    (hf : ∀ x, R x y → R x (f y)) : List.Forall₂ R xs (ys.modify k f) := by
  induction h generalizing k with
  | nil => cases hy
  | cons hxy hrest ih =>
    cases k with
    | zero =>
      rw [List.getElem?_cons_zero, Option.some.injEq] at hy
      subst hy
      rw [List.modify_zero_cons]
      exact .cons (hf _ hxy) hrest
    | succ k =>
      rw [List.getElem?_cons_succ] at hy
      rw [List.modify_succ_cons]
      exact .cons hxy (ih hy)

/-! ## Lists that grow -/

/-- Every record is still at its place, related to what it was; more may have followed. -/
def Grows (R : α → α → Prop) (xs ys : List α) : Prop :=
  ∃ zs more, ys = zs ++ more ∧ List.Forall₂ R xs zs

section Grows

variable {R : α → α → Prop} {xs ys zs : List α}

theorem grows_of_forall₂ (h : List.Forall₂ R xs ys) : Grows R xs ys :=
  ⟨ys, [], (List.append_nil ys).symm, h⟩

theorem Grows.refl (hrefl : ∀ a, R a a) (xs : List α) : Grows R xs xs :=
  grows_of_forall₂ (List.forall₂_same.mpr fun a _ => hrefl a)

theorem Grows.append (h : Grows R xs ys) (more : List α) : Grows R xs (ys ++ more) := by
  obtain ⟨zs, rest, rfl, hzs⟩ := h
  exact ⟨zs, rest ++ more, List.append_assoc .., hzs⟩

theorem Grows.trans (htrans : ∀ a b c, R a b → R b c → R a c) (h₁ : Grows R xs ys)
    (h₂ : Grows R ys zs) : Grows R xs zs := by
  obtain ⟨ys', rest, rfl, hys⟩ := h₁
  obtain ⟨zs', more, rfl, hzs⟩ := h₂
  -- what the first records have become comes first
  have hsplit := List.forall₂_take_append _ _ _ hzs.flip
  refine ⟨zs'.take ys'.length, zs'.drop ys'.length ++ more, ?_, ?_⟩
  · rw [← List.append_assoc, List.take_append_drop]
  · exact forall₂_trans htrans hys hsplit.flip

end Grows

/-- The records are numbered from one. -/
def Numbered (number : α → Nat) (xs : List α) : Prop :=
  xs.map number = List.range' 1 xs.length

theorem numbered_append_singleton {number : α → Nat} {xs : List α} {x : α} :
    Numbered number (xs ++ [x]) ↔ Numbered number xs ∧ number x = xs.length + 1 := by
  unfold Numbered
  rw [List.map_append, List.map_singleton, List.length_append, List.length_singleton,
    List.range'_1_concat, Nat.add_comm 1]
  constructor
  · intro h
    obtain ⟨hxs, hx⟩ := List.append_inj h (by simp)
    exact ⟨hxs, List.singleton_inj.mp hx⟩
  · rintro ⟨hxs, hx⟩
    rw [hxs, hx]

/-! ## Records with distinct keys -/

theorem eq_of_key_eq {key : α → β} {xs : List α} (hxs : (xs.map key).Nodup) {x y : α}
    (hx : x ∈ xs) (hy : y ∈ xs) (h : key x = key y) : x = y :=
  List.inj_on_of_nodup_map hxs hx hy h

/-- Removing a record removes what has its key. -/
theorem mem_eraseIdx_iff {key : α → β} {xs : List α} (hxs : (xs.map key).Nodup) {k : Nat}
    {x y : α} (hx : xs[k]? = some x) : y ∈ xs.eraseIdx k ↔ y ∈ xs ∧ key y ≠ key x := by
  rw [List.mem_eraseIdx_iff_getElem?]
  constructor
  · rintro ⟨i, hne, hi⟩
    refine ⟨List.mem_of_getElem? hi, fun heq => hne ?_⟩
    obtain ⟨hlt, -⟩ := List.getElem?_eq_some_iff.mp hi
    refine (List.getElem?_inj (by simpa using hlt) hxs).mp ?_
    rw [List.getElem?_map, List.getElem?_map, hi, hx, Option.map_some, Option.map_some, heq]
  · rintro ⟨hy, hne⟩
    obtain ⟨i, hi⟩ := List.mem_iff_getElem?.mp hy
    refine ⟨i, ?_, hi⟩
    rintro rfl
    rw [hx, Option.some.injEq] at hi
    exact hne (hi ▸ rfl)

/-- A record is replaced by one with its key. -/
theorem map_set_of_key {key : α → β} {xs : List α} {k : Nat} {x y : α} (hx : xs[k]? = some x)
    (hy : key y = key x) : (xs.set k y).map key = xs.map key := by
  rw [List.map_set]
  apply List.ext_getElem?
  intro i
  rw [List.getElem?_set]
  split
  · next heq =>
    subst heq
    rw [List.getElem?_map, hx, hy]
    simp [(List.getElem?_eq_some_iff.mp hx).1]
  · rfl

theorem mem_set_iff {key : α → β} {xs : List α} (hxs : (xs.map key).Nodup) {k : Nat}
    {x y z : α} (hx : xs[k]? = some x) :
    z ∈ xs.set k y ↔ z = y ∨ z ∈ xs ∧ key z ≠ key x := by
  have hlt := (List.getElem?_eq_some_iff.mp hx).1
  constructor
  · intro hz
    obtain ⟨i, hi⟩ := List.mem_iff_getElem?.mp hz
    rw [List.getElem?_set] at hi
    split at hi
    · next heq =>
      subst heq
      exact Or.inl (by simpa [hlt] using hi.symm)
    · next hne =>
      exact Or.inr ((mem_eraseIdx_iff hxs hx).mp
        (List.mem_eraseIdx_iff_getElem?.mpr ⟨i, fun h => hne h.symm, hi⟩))
  · rintro (rfl | hz)
    · exact List.mem_set hlt z
    · obtain ⟨i, hne, hi⟩ := List.mem_eraseIdx_iff_getElem?.mp ((mem_eraseIdx_iff hxs hx).mpr hz)
      refine List.mem_iff_getElem?.mpr ⟨i, ?_⟩
      rw [List.getElem?_set, if_neg fun h => hne h.symm]
      exact hi

/-- What holds of every record after one is replaced, when the replacement differs from it by `Q`
alone. -/
theorem forall_mem_set_iff {P : α → Prop} {Q : Prop} {xs : List α} {k : Nat} {x y : α}
    (hx : xs[k]? = some x) (hy : P y ↔ P x ∧ Q) :
    (∀ z ∈ xs.set k y, P z) ↔ (∀ z ∈ xs, P z) ∧ Q := by
  constructor
  · intro h
    obtain ⟨hPx, hQ⟩ := hy.mp (h y (List.mem_set (List.getElem?_eq_some_iff.mp hx).1 y))
    refine ⟨fun z hz => ?_, hQ⟩
    obtain ⟨i, hi⟩ := List.mem_iff_getElem?.mp hz
    by_cases hki : k = i
    · subst hki
      obtain rfl := Option.some.inj (hx.symm.trans hi)
      exact hPx
    · refine h z (List.mem_iff_getElem?.mpr ⟨i, ?_⟩)
      rw [List.getElem?_set_ne hki]
      exact hi
  · rintro ⟨h, hQ⟩ z hz
    rcases List.mem_or_eq_of_mem_set hz with hz | rfl
    · exact h z hz
    · exact hy.mpr ⟨h x (List.mem_of_getElem? hx), hQ⟩

/-! ## Measures -/

theorem exists_of_forall₂_left {R : α → β → Prop} {xs : List α} {ys : List β}
    (h : List.Forall₂ R xs ys) {a : α} (ha : a ∈ xs) : ∃ b ∈ ys, R a b := by
  obtain ⟨b, hb, hab⟩ := exists_of_forall₂_right h.flip ha
  exact ⟨b, hb, hab⟩

theorem countP_le_of_forall₂ {R : α → β → Prop} {p : α → Bool} {q : β → Bool}
    (hpq : ∀ a b, R a b → q b = true → p a = true) {xs : List α} {ys : List β}
    (h : List.Forall₂ R xs ys) : ys.countP q ≤ xs.countP p := by
  induction h with
  | nil => exact Nat.le_refl 0
  | @cons a b _ _ hab _ ih =>
    rw [List.countP_cons, List.countP_cons]
    by_cases hb : q b = true
    · rw [if_pos hb, if_pos (hpq a b hab hb)]
      omega
    · rw [if_neg hb]
      omega

theorem sum_map_modify_lt {g : α → Nat} {f : α → α} {xs : List α} {k : Nat} {x : α}
    (hx : xs[k]? = some x) (hlt : g (f x) < g x) :
    ((xs.modify k f).map g).sum < (xs.map g).sum := by
  induction xs generalizing k with
  | nil => cases hx
  | cons a rest ih =>
    cases k with
    | zero =>
      rw [List.getElem?_cons_zero, Option.some.injEq] at hx
      subst hx
      rw [List.modify_zero_cons, List.map_cons, List.map_cons, List.sum_cons, List.sum_cons]
      omega
    | succ k =>
      rw [List.getElem?_cons_succ] at hx
      have := ih hx
      rw [List.modify_succ_cons, List.map_cons, List.map_cons, List.sum_cons, List.sum_cons]
      omega

theorem countP_updateFirst_lt {p q : α → Bool} {f : α → α} {xs : List α} {x : α}
    (hx : xs.find? q = some x) (hp : p x = true) (hf : p (f x) = false) :
    (updateFirst q f xs).countP p < xs.countP p := by
  induction xs with
  | nil => cases hx
  | cons a rest ih =>
    unfold updateFirst
    by_cases ha : q a = true
    · rw [List.find?_cons_of_pos ha, Option.some.injEq] at hx
      subst hx
      rw [if_pos ha, List.countP_cons_of_pos hp, List.countP_cons_of_neg (by simp [hf])]
      exact Nat.lt_succ_self _
    · rw [List.find?_cons_of_neg ha] at hx
      have := ih hx
      rw [if_neg ha, List.countP_cons, List.countP_cons]
      omega

theorem countP_modify_lt {p : α → Bool} {f : α → α} {xs : List α} {k : Nat} {x : α}
    (hx : xs[k]? = some x) (hp : p x = true) (hf : p (f x) = false) :
    (xs.modify k f).countP p < xs.countP p := by
  induction xs generalizing k with
  | nil => cases hx
  | cons a rest ih =>
    cases k with
    | zero =>
      rw [List.getElem?_cons_zero, Option.some.injEq] at hx
      subst hx
      rw [List.modify_zero_cons, List.countP_cons_of_pos hp, List.countP_cons_of_neg (by simp [hf])]
      exact Nat.lt_succ_self _
    | succ k =>
      rw [List.getElem?_cons_succ] at hx
      have := ih hx
      rw [List.modify_succ_cons, List.countP_cons, List.countP_cons]
      omega

end EphemeralAgent.Lib
