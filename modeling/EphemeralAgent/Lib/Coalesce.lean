import Mathlib.Data.List.Basic
import Mathlib.Data.List.Induction

/-!
# Coalescing a list by key

Items may have a key.  Of the items with one key only the last is kept, and it stands where the first
of them stood; an item without a key is always kept.

* `slots`, `latest`, `coalesce` — the places, what stands in them, and both
* `coalesce_append`, `coalesce_replace` — one more item takes a place of its own, or that of its key
* `filter_unkeyed_coalesce`, `filter_key_coalesce` — what is kept of the items without a key, and of
  those with one
-/

namespace EphemeralAgent.Lib

variable {α κ : Type*} [DecidableEq κ] (key : α → Option κ)

/-- Both items have a key, and it is the same. -/
def sameKey (x y : α) : Bool :=
  (key x).isSome && key x == key y

/-- The items that have no key, or are the first with theirs. -/
def slots (xs : List α) : List α :=
  xs.foldl (fun seen x => if seen.any (sameKey key x) then seen else seen ++ [x]) []

/-- The last item with the key of this one. -/
def latest (xs : List α) (x : α) : α :=
  (xs.filter (sameKey key x)).getLast?.getD x

/-- The last item of each key, in the place of the first. -/
def coalesce (xs : List α) : List α :=
  (slots key xs).map (latest key xs)

variable {key}

theorem sameKey_iff {x y : α} : sameKey key x y = true ↔ (key x).isSome ∧ key x = key y := by
  rw [sameKey, Bool.and_eq_true, beq_iff_eq]

theorem sameKey_comm (x y : α) : sameKey key x y = sameKey key y x := by
  rw [Bool.eq_iff_iff, sameKey_iff, sameKey_iff]
  constructor
  · rintro ⟨hsome, heq⟩
    exact ⟨heq ▸ hsome, heq.symm⟩
  · rintro ⟨hsome, heq⟩
    exact ⟨heq ▸ hsome, heq.symm⟩

/-! ## The places -/

theorem slots_snoc (xs : List α) (x : α) :
    slots key (xs ++ [x]) =
      if (slots key xs).any (sameKey key x) then slots key xs else slots key xs ++ [x] := by
  rw [slots, List.foldl_append]
  rfl

theorem slots_subset (xs : List α) : slots key xs ⊆ xs := by
  induction xs using List.reverseRecOn with
  | nil => exact List.Subset.refl _
  | append_singleton xs x ih =>
    rw [slots_snoc]
    split
    · exact fun y hy => List.mem_append_left _ (ih hy)
    · intro y hy
      rcases List.mem_append.mp hy with hy | hy
      · exact List.mem_append_left _ (ih hy)
      · exact List.mem_append_right _ hy

/-- A key has a place as soon as there is an item with it. -/
theorem any_slots (xs : List α) (x : α) :
    (slots key xs).any (sameKey key x) = xs.any (sameKey key x) := by
  induction xs using List.reverseRecOn with
  | nil => rfl
  | append_singleton xs y ih =>
    rw [slots_snoc, List.any_append]
    split
    · next hany =>
      -- `y` has a place already: if `x` has the key of `y`, it has that place
      cases hxy : sameKey key x y with
      | false => simp [ih, hxy]
      | true =>
        obtain ⟨z, hz, hyz⟩ := List.any_eq_true.mp hany
        have hxz : sameKey key x z = true := by
          rw [sameKey_iff] at hxy hyz ⊢
          exact ⟨hxy.1, hxy.2.trans hyz.2⟩
        have hx : (slots key xs).any (sameKey key x) = true := List.any_eq_true.mpr ⟨z, hz, hxz⟩
        rw [hx, ← ih, hx]
        rfl
    · rw [List.any_append, ih]

/-- No two places have one key. -/
theorem pairwise_slots (xs : List α) :
    (slots key xs).Pairwise fun x y => sameKey key x y = false := by
  induction xs using List.reverseRecOn with
  | nil => exact List.Pairwise.nil
  | append_singleton xs x ih =>
    rw [slots_snoc]
    split
    · exact ih
    · next hany =>
      rw [List.pairwise_append]
      refine ⟨ih, List.pairwise_singleton _ _, fun y hy z hz => ?_⟩
      rw [List.mem_singleton.mp hz, sameKey_comm]
      rw [Bool.not_eq_true, List.any_eq_false] at hany
      exact Bool.eq_false_iff.mpr (hany y hy)

/-! ## What stands in a place -/

theorem key_latest (xs : List α) (x : α) : key (latest key xs x) = key x := by
  unfold latest
  cases hlast : (xs.filter (sameKey key x)).getLast? with
  | none => rfl
  | some y =>
    have hy := (List.mem_filter.mp (List.mem_of_getLast? hlast)).2
    exact (sameKey_iff.mp hy).2.symm

theorem latest_mem {xs : List α} {x : α} (hx : x ∈ xs) : latest key xs x ∈ xs := by
  unfold latest
  cases hlast : (xs.filter (sameKey key x)).getLast? with
  | none => exact hx
  | some y => exact (List.mem_filter.mp (List.mem_of_getLast? hlast)).1

/-- One more item changes what stands in the place of its key, and nothing else. -/
theorem latest_snoc (xs : List α) (x y : α) :
    latest key (xs ++ [x]) y = if sameKey key y x then x else latest key xs y := by
  unfold latest
  rw [List.filter_append]
  by_cases hxy : sameKey key y x = true
  · rw [if_pos hxy, List.filter_cons_of_pos hxy, List.filter_nil, List.getLast?_append]
    rfl
  · rw [if_neg hxy, List.filter_cons_of_neg hxy, List.filter_nil, List.append_nil]

theorem map_key_coalesce (xs : List α) : (coalesce key xs).map key = (slots key xs).map key := by
  rw [coalesce, List.map_map]
  exact List.map_congr_left fun x _ => key_latest xs x

theorem coalesce_subset (xs : List α) : coalesce key xs ⊆ xs := by
  intro y hy
  obtain ⟨x, hx, rfl⟩ := List.mem_map.mp hy
  exact latest_mem (slots_subset xs hx)

theorem any_coalesce (xs : List α) (x : α) :
    (coalesce key xs).any (sameKey key x) = xs.any (sameKey key x) := by
  rw [← any_slots xs x, coalesce, List.any_map]
  refine congrArg (fun p => (slots key xs).any p) (funext fun y => ?_)
  simp only [Function.comp_apply, sameKey, key_latest]

/-- No two items that are kept have one key. -/
theorem pairwise_coalesce (xs : List α) :
    (coalesce key xs).Pairwise fun x y => sameKey key x y = false := by
  rw [coalesce, List.pairwise_map]
  have hslots : (slots key xs).Pairwise fun x y => sameKey key x y = false := pairwise_slots xs
  refine hslots.imp fun {x y} hxy => ?_
  simpa only [sameKey, key_latest] using hxy

theorem nodup_keys_coalesce (xs : List α) : ((coalesce key xs).filterMap key).Nodup := by
  rw [List.Nodup, List.pairwise_filterMap]
  refine (pairwise_coalesce xs).imp fun {x y} hxy k hk l hl heq => ?_
  subst heq
  have hsame : sameKey key x y = true :=
    sameKey_iff.mpr ⟨by rw [hk]; rfl, by rw [hk, hl]⟩
  rw [hsame] at hxy
  cases hxy

/-! ## One more item -/

/-- **An item without a key, or with a new one, is added.** -/
theorem coalesce_append {xs : List α} {x : α} (h : xs.any (sameKey key x) = false) :
    coalesce key (xs ++ [x]) = coalesce key xs ++ [x] := by
  have hslots : slots key (xs ++ [x]) = slots key xs ++ [x] := by
    rw [slots_snoc, any_slots, h, if_neg nofun]
  rw [coalesce, hslots, List.map_append]
  refine congrArg₂ (· ++ ·) (List.map_congr_left fun y hy => ?_) ?_
  · have hxy : sameKey key y x = false := by
      rw [sameKey_comm]
      exact Bool.eq_false_iff.mpr (List.any_eq_false.mp h y (slots_subset xs hy))
    rw [latest_snoc, hxy, if_neg nofun]
  · have hnone : xs.filter (sameKey key x) = [] :=
      List.filter_eq_nil_iff.mpr (List.any_eq_false.mp h)
    rw [List.map_singleton, latest_snoc]
    split
    · rfl
    · rw [latest, hnone]
      rfl

/-- An item with the key of another takes its place. -/
theorem coalesce_map {xs : List α} {x : α} (h : xs.any (sameKey key x) = true) :
    coalesce key (xs ++ [x]) =
      (coalesce key xs).map fun y => if sameKey key x y then x else y := by
  have hslots : slots key (xs ++ [x]) = slots key xs := by
    rw [slots_snoc, any_slots, h, if_pos rfl]
  rw [coalesce, hslots, coalesce, List.map_map]
  refine List.map_congr_left fun y _ => ?_
  have hsame : sameKey key x (latest key xs y) = sameKey key y x := by
    rw [sameKey_comm y x]
    simp only [sameKey, key_latest]
  rw [latest_snoc, Function.comp_apply, hsame]

/-- A change of the only hit is a change at its position. -/
theorem map_ite_eq_set {xs : List α} {p : α → Bool} {i : Nat} (x : α)
    (hi : xs.findIdx? p = some i) (hp : xs.Pairwise fun y z => ¬ (p y = true ∧ p z = true)) :
    (xs.map fun y => if p y then x else y) = xs.set i x := by
  obtain ⟨hlt, hhit, -⟩ := List.findIdx?_eq_some_iff_getElem.mp hi
  apply List.ext_getElem
  · rw [List.length_map, List.length_set]
  · intro j hj hj'
    rw [List.getElem_map, List.getElem_set]
    rw [List.length_map] at hj
    by_cases hij : i = j
    · subst hij
      rw [if_pos rfl, if_pos hhit]
    · rw [if_neg hij, if_neg]
      intro hhit'
      rcases Nat.lt_or_gt_of_ne hij with hlt' | hgt
      · exact List.pairwise_iff_getElem.mp hp i j hlt hj hlt' ⟨hhit, hhit'⟩
      · exact List.pairwise_iff_getElem.mp hp j i hj hlt hgt ⟨hhit', hhit⟩

/-- **An item whose key has a place is put there.** -/
theorem coalesce_replace {xs : List α} {x : α} {i : Nat}
    (hi : (coalesce key xs).findIdx? (sameKey key x) = some i) :
    coalesce key (xs ++ [x]) = (coalesce key xs).set i x := by
  have hany : xs.any (sameKey key x) = true := by
    obtain ⟨hlt, hhit, -⟩ := List.findIdx?_eq_some_iff_getElem.mp hi
    rw [← any_coalesce]
    exact List.any_eq_true.mpr ⟨_, List.getElem_mem hlt, hhit⟩
  rw [coalesce_map hany]
  refine map_ite_eq_set x hi ((pairwise_coalesce xs).imp fun {y z} hyz hboth => ?_)
  have hsame : sameKey key y z = true := by
    rw [sameKey_iff] at hboth ⊢
    rw [sameKey_iff] at hboth
    exact ⟨hboth.1.2 ▸ hboth.1.1, hboth.1.2.symm.trans hboth.2.2⟩
  rw [hsame] at hyz
  cases hyz

/-! ## What is kept -/

theorem filter_map_of_fixed {p : α → Bool} {f : α → α} {xs : List α}
    (h : ∀ x ∈ xs, f x = x ∨ p x = false ∧ p (f x) = false) :
    (xs.map f).filter p = xs.filter p := by
  induction xs with
  | nil => rfl
  | cons x rest ih =>
    rw [List.map_cons, List.filter_cons, List.filter_cons,
      ih fun y hy => h y (List.mem_cons_of_mem _ hy)]
    rcases h x List.mem_cons_self with heq | ⟨hx, hfx⟩
    · rw [heq]
    · rw [hx, hfx, if_neg nofun, if_neg nofun]

/-- **Every item without a key is kept, in order.** -/
theorem filter_unkeyed_coalesce (xs : List α) :
    (coalesce key xs).filter (fun x => (key x).isNone) = xs.filter fun x => (key x).isNone := by
  induction xs using List.reverseRecOn with
  | nil => rfl
  | append_singleton xs x ih =>
    cases hany : xs.any (sameKey key x) with
    | false => rw [coalesce_append hany, List.filter_append, List.filter_append, ih]
    | true =>
      obtain ⟨y, -, hxy⟩ := List.any_eq_true.mp hany
      have hx : (key x).isNone = false := by
        rw [← Option.not_isSome, (sameKey_iff.mp hxy).1]
        rfl
      rw [coalesce_map hany, List.filter_append, List.filter_cons_of_neg (by rw [hx]; exact nofun),
        List.filter_nil, List.append_nil, ← ih]
      refine filter_map_of_fixed fun z _ => ?_
      by_cases hxz : sameKey key x z = true
      · rw [if_pos hxz]
        refine Or.inr ⟨?_, hx⟩
        rw [← (sameKey_iff.mp hxz).2]
        exact hx
      · rw [if_neg hxz]
        exact Or.inl rfl

/-- **Of the items with a key the last is kept, once.** -/
theorem filter_key_coalesce (xs : List α) (k : κ) :
    (coalesce key xs).filter (fun x => key x == some k) =
      (xs.filter fun x => key x == some k).getLast?.toList := by
  induction xs using List.reverseRecOn with
  | nil => rfl
  | append_singleton xs x ih =>
    by_cases hk : key x = some k
    · have hpos : (key x == some k) = true := beq_iff_eq.mpr hk
      have hsame : sameKey key x = fun y => key y == some k := by
        funext y
        rw [sameKey, hk, Option.isSome_some, Bool.true_and]
        exact Bool.beq_comm
      have hone : [x].filter (fun y => key y == some k) = [x] := by simp [hk]
      rw [List.filter_append xs, hone, List.getLast?_append, List.getLast?_singleton,
        Option.some_or, Option.toList_some]
      cases hany : xs.any (sameKey key x) with
      | false =>
        have hnone : xs.filter (fun y => key y == some k) = [] := by
          rw [← hsame]
          exact List.filter_eq_nil_iff.mpr (List.any_eq_false.mp hany)
        rw [coalesce_append hany, List.filter_append, hone, ih, hnone]
        rfl
      | true =>
        obtain ⟨y, hy, hxy⟩ := List.any_eq_true.mp hany
        rw [hsame] at hxy
        obtain ⟨last, hlast⟩ : ∃ last, (xs.filter fun y => key y == some k).getLast? = some last := by
          rw [← Option.isSome_iff_exists, List.getLast?_isSome]
          exact List.ne_nil_of_mem (List.mem_filter.mpr ⟨hy, hxy⟩)
        rw [hlast, Option.toList_some] at ih
        -- the one item that is kept of this key becomes `x`
        have hfilter : ∀ zs : List α,
            (zs.map fun z => if sameKey key x z then x else z).filter (fun z => key z == some k) =
              (zs.filter fun z => key z == some k).map fun _ => x := by
          intro zs
          rw [hsame]
          induction zs with
          | nil => rfl
          | cons z rest ih =>
            rw [List.map_cons, List.filter_cons, List.filter_cons, ih]
            by_cases hz : (key z == some k) = true
            · rw [if_pos hz, if_pos hz, if_pos hpos, List.map_cons]
            · rw [if_neg hz, if_neg hz, if_neg hz]
        rw [coalesce_map hany, hfilter, ih]
        rfl
    · have hneg : ¬ (key x == some k) = true := fun h => hk (beq_iff_eq.mp h)
      have hnone : [x].filter (fun y => key y == some k) = [] := by simp [hk]
      rw [List.filter_append xs, hnone, List.append_nil, ← ih]
      cases hany : xs.any (sameKey key x) with
      | false => rw [coalesce_append hany, List.filter_append, hnone, List.append_nil]
      | true =>
        rw [coalesce_map hany]
        refine filter_map_of_fixed fun z _ => ?_
        by_cases hxz : sameKey key x z = true
        · rw [if_pos hxz, ← (sameKey_iff.mp hxz).2]
          exact Or.inr ⟨Bool.eq_false_iff.mpr hneg, Bool.eq_false_iff.mpr hneg⟩
        · rw [if_neg hxz]
          exact Or.inl rfl

end EphemeralAgent.Lib
