import EphemeralAgent.Agents.Advisory

/-!
# Pass matching

The submissions that `AdvisorPassRegistry` takes for one another.  An object of the language has one
value under each key, so its entries have one order only once they are sorted, and the canonical
text of a value tells it from every other value up to the order of the keys.

* `DistinctKeys` — no object in a value has a key twice
* `codeUnits_injective` — a string is known by its code units
* `canonicalJson_eq` — equal up to the order of keys, equal in the canonical text
* `Call`, `replay` — a history of recorded passes
-/

namespace EphemeralAgent.Agents

open Json

/-! ## The order of keys -/

/-- The code units of one character. -/
def charUnits (c : Char) : List Nat :=
  if c.toNat < 0x10000 then [c.toNat]
  else [0xd800 + (c.toNat - 0x10000) / 0x400, 0xdc00 + (c.toNat - 0x10000) % 0x400]

theorem codeUnits_eq (s : String) : codeUnits s = s.toList.flatMap charUnits := rfl

/-- A character is no surrogate. -/
theorem toNat_lt_or (c : Char) : c.toNat < 0xd800 ∨ 0xdfff < c.toNat ∧ c.toNat < 0x110000 :=
  c.valid

/-- The units of a character can be read back from the front of a text. -/
theorem charUnits_inj {c d : Char} {r r' : List Nat}
    (h : charUnits c ++ r = charUnits d ++ r') : c = d ∧ r = r' := by
  have hc := toNat_lt_or c
  have hd := toNat_lt_or d
  unfold charUnits at h
  split at h <;> split at h
  · simp only [List.cons_append, List.nil_append, List.cons.injEq] at h
    exact ⟨Char.toNat_inj.mp h.1, h.2⟩
  · -- a high surrogate is no character of one unit
    simp only [List.cons_append, List.nil_append, List.cons.injEq] at h
    omega
  · simp only [List.cons_append, List.nil_append, List.cons.injEq] at h
    omega
  · simp only [List.cons_append, List.nil_append, List.cons.injEq] at h
    obtain ⟨hhigh, hlow, hrest⟩ := h
    refine ⟨Char.toNat_inj.mp ?_, hrest⟩
    omega

theorem charUnits_ne_nil (c : Char) : charUnits c ≠ [] := by
  unfold charUnits
  split <;> simp

theorem flatMap_charUnits_inj : ∀ {xs ys : List Char},
    xs.flatMap charUnits = ys.flatMap charUnits → xs = ys
  | [], [], _ => rfl
  | [], d :: ys, h => by
    rw [List.flatMap_cons, List.flatMap_nil] at h
    exact absurd (List.append_eq_nil_iff.mp h.symm).1 (charUnits_ne_nil d)
  | c :: xs, [], h => by
    rw [List.flatMap_cons, List.flatMap_nil] at h
    exact absurd (List.append_eq_nil_iff.mp h).1 (charUnits_ne_nil c)
  | c :: xs, d :: ys, h => by
    rw [List.flatMap_cons, List.flatMap_cons] at h
    obtain ⟨rfl, hrest⟩ := charUnits_inj h
    rw [flatMap_charUnits_inj hrest]

/-- **A string is known by its code units.** -/
theorem codeUnits_injective {a b : String} (h : codeUnits a = codeUnits b) : a = b := by
  rw [codeUnits_eq, codeUnits_eq] at h
  exact String.toList_injective (flatMap_charUnits_inj h)

instance : Std.Total entryLe :=
  ⟨fun a b => List.le_total (codeUnits a.1) (codeUnits b.1)⟩

instance : IsTrans (String × Json) entryLe :=
  ⟨fun _ _ _ hab hbc => List.le_trans hab hbc⟩

theorem entryLe_antisymm {a b : String × Json} (hab : entryLe a b) (hba : entryLe b a) :
    a.1 = b.1 :=
  codeUnits_injective (List.le_antisymm hab hba)

/-- Entries with distinct keys have one sorted order. -/
theorem insertionSort_eq_of_perm {xs ys : List (String × Json)}
    (hnodup : (xs.map Prod.fst).Nodup) (hperm : xs.Perm ys) :
    xs.insertionSort entryLe = ys.insertionSort entryLe := by
  have hsorted : (xs.insertionSort entryLe).Perm (ys.insertionSort entryLe) :=
    (List.perm_insertionSort entryLe xs).trans
      (hperm.trans (List.perm_insertionSort entryLe ys).symm)
  refine List.Perm.eq_of_pairwise ?_ (List.pairwise_insertionSort entryLe xs)
    (List.pairwise_insertionSort entryLe ys) hsorted
  intro a b ha hb hab hba
  have hax : a ∈ xs := (List.mem_insertionSort entryLe).mp ha
  have hbx : b ∈ xs := hperm.symm.subset ((List.mem_insertionSort entryLe).mp hb)
  exact List.inj_on_of_nodup_map hnodup hax hbx (entryLe_antisymm hab hba)

/-! ## Equal values have one text -/

/-- No object in a value has a key twice. -/
inductive DistinctKeys : Json → Prop
  | null : DistinctKeys .null
  | bool (value : Bool) : DistinctKeys (.bool value)
  | num (value : Rat) : DistinctKeys (.num value)
  | str (value : String) : DistinctKeys (.str value)
  | arr {items : List Json} (hitems : ∀ item ∈ items, DistinctKeys item) :
      DistinctKeys (.arr items)
  | obj {fields : List (String × Json)} (hkeys : (fields.map Prod.fst).Nodup)
      (hvalues : ∀ field ∈ fields, DistinctKeys field.2) : DistinctKeys (.obj fields)

theorem sortFields_keys (fields : List (String × Json)) :
    (sortFields fields).map Prod.fst = fields.map Prod.fst := by
  rw [sortFields_eq, List.map_map]
  rfl

/-- **Equal up to the order of keys, and equal once the keys are sorted.** -/
theorem sortKeys_eq_of_same : ∀ (a b : Json), DistinctKeys a → DistinctKeys b → SameValue a b →
    sortKeys a = sortKeys b
  | .null, _, _, _, .null => rfl
  | .bool _, _, _, _, .bool _ => rfl
  | .num _, _, _, _, .num _ => rfl
  | .str _, _, _, _, .str _ => rfl
  | .arr xs, .arr ys, .arr hx, .arr hy, .arr hsame => by
    rw [sortKeys, sortKeys, sortItems_eq, sortItems_eq]
    congr 1
    rw [List.forall₂_iff_get] at hsame
    apply List.ext_get
    · simpa using hsame.1
    · intro i hi hi'
      have hix : i < xs.length := by simpa using hi
      have hiy : i < ys.length := by simpa using hi'
      have hlt : sizeOf xs[i] < 1 + sizeOf xs := by
        have hsize := List.sizeOf_lt_of_mem (List.getElem_mem hix)
        omega
      have ih := sortKeys_eq_of_same xs[i] ys[i] (hx _ (List.getElem_mem hix))
        (hy _ (List.getElem_mem hiy)) (hsame.2 i hix hiy)
      simpa using ih
  | .obj xs, .obj zs, .obj hxkeys hx, .obj hzkeys hz, @SameValue.obj _ ys _ hperm hkeys hvalues => by
    rw [sortKeys, sortKeys]
    -- the entries with their values sorted are the same entries in another order
    have hlength : ys.length = zs.length := by
      have hlen := congrArg List.length hkeys
      simpa using hlen
    have hentries : sortFields ys = sortFields zs := by
      rw [sortFields_eq, sortFields_eq]
      rw [List.forall₂_map_left_iff, List.forall₂_map_right_iff, List.forall₂_iff_get] at hvalues
      apply List.ext_get
      · simpa using hlength
      · intro i hi hi'
        have hiy : i < ys.length := by simpa using hi
        have hiz : i < zs.length := by simpa using hi'
        have hmem : ys[i] ∈ xs := hperm.symm.subset (List.getElem_mem hiy)
        have hlt : sizeOf ys[i].2 < 1 + sizeOf xs := by
          have hsize := List.sizeOf_lt_of_mem hmem
          have hpair : sizeOf ys[i] = 1 + sizeOf ys[i].1 + sizeOf ys[i].2 := rfl
          omega
        have ih := sortKeys_eq_of_same ys[i].2 zs[i].2 (hx _ hmem)
          (hz _ (List.getElem_mem hiz)) (hvalues.2 i hiy hiz)
        have hkey : ys[i].1 = zs[i].1 := by
          have hget := congrArg (fun keys => keys[i]?) hkeys
          simpa [hiy, hiz] using hget
        simp [ih, hkey]
    have hsorted : (sortFields xs).Perm (sortFields zs) := by
      rw [← hentries, sortFields_eq, sortFields_eq]
      exact hperm.map _
    rw [insertionSort_eq_of_perm (by rwa [sortFields_keys]) hsorted]
termination_by a => sizeOf a

/-- **Equal up to the order of keys, and equal in the canonical text.** -/
theorem canonicalJson_eq {n : NumberText} {a b : Json} (ha : DistinctKeys a) (hb : DistinctKeys b)
    (hsame : SameValue a b) : canonicalJson n a = canonicalJson n b := by
  unfold canonicalJson
  rw [sortKeys_eq_of_same a b ha hb hsame]

/-- A value of the language: an object has its keys once. -/
def JsonValue := { value : Json // DistinctKeys value }

/-- The canonical text of a value is its own, up to the order of keys. -/
theorem canonicalJson_eq_iff_same (n : NumberText) (a b : JsonValue) :
    canonicalJson n a.1 = canonicalJson n b.1 ↔ SameValue a.1 b.1 :=
  ⟨same_of_canonicalJson, canonicalJson_eq a.2 b.2⟩

/-! ## Histories of passes -/

/-- The submission as a value, when its payload is one. -/
theorem distinctKeys_toJson {submission : AdvisorSubmission}
    (h : DistinctKeys (.obj submission.payload)) : DistinctKeys submission.toJson := by
  refine .obj (by simp) ?_
  intro field hfield
  simp only [List.mem_cons, List.not_mem_nil, or_false] at hfield
  rcases hfield with rfl | rfl
  · exact .str _
  · exact h

/-- One call of `recordPass`. -/
structure Call where
  runId : AgentRunId
  submission : { submission : AdvisorSubmission // DistinctKeys (.obj submission.payload) }

/-- The registry after a history of calls. -/
def replay (n : NumberText) (calls : List Call) : AdvisorPassRegistry :=
  calls.foldl (fun r call => r.recordPass n call.runId call.submission.1) .empty

theorem replay_concat (n : NumberText) (calls : List Call) (call : Call) :
    replay n (calls ++ [call]) = (replay n calls).recordPass n call.runId call.submission.1 := by
  simp [replay]

/-- The texts of a run are those of its recorded submissions. -/
theorem mem_replay (n : NumberText) (id : AgentRunId) (key : List Char) (calls : List Call) :
    key ∈ (replay n calls).passes id ↔
      ∃ call ∈ calls, call.runId = id ∧ key = canonicalJson n call.submission.1.toJson := by
  induction calls using List.reverseRecOn with
  | nil => simp [replay, AdvisorPassRegistry.empty]
  | append_singleton calls call ih =>
    rw [replay_concat, AdvisorPassRegistry.mem_recordPass, ih]
    constructor
    · rintro (⟨old, hold, hid, hkey⟩ | ⟨hid, hkey⟩)
      · exact ⟨old, by simp [hold], hid, hkey⟩
      · exact ⟨call, by simp, hid.symm, hkey⟩
    · rintro ⟨old, hold, hid, hkey⟩
      rw [List.mem_append, List.mem_singleton] at hold
      rcases hold with hold | rfl
      · exact Or.inl ⟨old, hold, hid, hkey⟩
      · exact Or.inr ⟨hid.symm, hkey⟩

/-- **Pass matching is exact.** -/
theorem pass_matching_exact (n : NumberText) :
    (∀ a b : JsonValue, canonicalJson n a.1 = canonicalJson n b.1 ↔ SameValue a.1 b.1) ∧
    ∀ (calls : List Call) (runId : AgentRunId)
      (s : { submission : AdvisorSubmission // DistinctKeys (.obj submission.payload) }),
      (replay n calls).hasPass n runId s.1 = true ↔
        ∃ call ∈ calls, call.runId = runId ∧
          SameValue call.submission.1.toJson s.1.toJson := by
  refine ⟨canonicalJson_eq_iff_same n, fun calls runId s => ?_⟩
  unfold AdvisorPassRegistry.hasPass
  rw [List.contains_iff_mem, mem_replay]
  refine exists_congr fun call => and_congr_right fun _ => and_congr_right fun _ => ?_
  have hiff := canonicalJson_eq_iff_same n ⟨_, distinctKeys_toJson call.submission.2⟩
    ⟨_, distinctKeys_toJson s.2⟩
  rw [← hiff]
  exact eq_comm

end EphemeralAgent.Agents
