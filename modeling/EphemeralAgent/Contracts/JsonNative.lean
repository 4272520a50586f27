import EphemeralAgent.Contracts.JsonRoundTrip

/-!
# What was parsed

Every value that `JSON.parse` gives is a value of the language, with numbers that have been read.

* `native_fromFields` — an object read field by field has each key once, its indices first
* `native_of_parse` — **what `JSON.parse` gives is a value of the language**
-/

namespace EphemeralAgent.Json

open Agents

/-! ## Objects -/

instance : Std.Total indexLe := ⟨fun _ _ => Nat.le_total _ _⟩

instance : IsTrans (String × Json) indexLe := ⟨fun _ _ _ hab hbc => Nat.le_trans hab hbc⟩

/-- An object of entries is the object of its own entries. -/
theorem fromEntries_fromEntries (entries : List (String × Json)) :
    fromEntries (fromEntries entries) = fromEntries entries := by
  let isIndex : String × Json → Bool := fun entry => (arrayIndex? entry.1).isSome
  let indices := (entries.filter isIndex).insertionSort indexLe
  let others := entries.filter fun entry => !isIndex entry
  have hindices : ∀ entry ∈ indices, isIndex entry = true := by
    intro entry hentry
    exact (List.mem_filter.mp ((List.perm_insertionSort indexLe _).mem_iff.mp hentry)).2
  have hothers : ∀ entry ∈ others, isIndex entry = false := by
    intro entry hentry
    have hnot := (List.mem_filter.mp hentry).2
    simpa using hnot
  have hfirst : (indices ++ others).filter isIndex = indices := by
    rw [List.filter_append, List.filter_eq_self.mpr hindices,
      List.filter_eq_nil_iff.mpr fun entry hentry => by simp [hothers entry hentry], List.append_nil]
  have hsecond : (indices ++ others).filter (fun entry => !isIndex entry) = others := by
    rw [List.filter_append,
      List.filter_eq_nil_iff.mpr fun entry hentry => by simp [hindices entry hentry],
      List.filter_eq_self.mpr fun entry hentry => by simp [hothers entry hentry], List.nil_append]
  have hsorted : indices.insertionSort indexLe = indices :=
    (List.pairwise_insertionSort indexLe _).insertionSort_eq
  show ((indices ++ others).filter isIndex).insertionSort indexLe ++
    (indices ++ others).filter (fun entry => !isIndex entry) = indices ++ others
  rw [hfirst, hsecond, hsorted]

theorem nativeFieldsOf_iff {P : Rat → Prop} {fields : List (String × Json)} :
    NativeFieldsOf P fields ↔ ∀ field ∈ fields, NativeOf P field.2 := by
  induction fields with
  | nil => simp [NativeFieldsOf]
  | cons field rest ih =>
    rw [NativeFieldsOf, ih]
    simp

theorem keys_setField (object : JsonObject) (key : String) (value : Json) :
    (setField object key value).map Prod.fst =
      if key ∈ object.map Prod.fst then object.map Prod.fst else object.map Prod.fst ++ [key] := by
  have hthere : object.any (fun field => field.1 == key) = true ↔ key ∈ object.map Prod.fst := by
    simp [List.any_eq_true, List.mem_map]
  unfold setField
  by_cases hkey : key ∈ object.map Prod.fst
  · rw [if_pos (hthere.mpr hkey), if_pos hkey, List.map_map]
    refine List.map_congr_left fun field _ => ?_
    show (if field.1 = key then (key, value) else field).1 = field.1
    split
    · next heq => exact heq.symm
    · rfl
  · rw [if_neg (fun hany => hkey (hthere.mp hany)), if_neg hkey]
    simp

theorem mem_setField {object : JsonObject} {key : String} {value : Json} {field : String × Json}
    (h : field ∈ setField object key value) : field ∈ object ∨ field = (key, value) := by
  unfold setField at h
  split at h
  · obtain ⟨old, hold, heq⟩ := List.mem_map.mp h
    split at heq
    · exact .inr heq.symm
    · exact .inl (heq ▸ hold)
  · rcases List.mem_append.mp h with hold | hnew
    · exact .inl hold
    · exact .inr (List.mem_singleton.mp hnew)

/-- Setting fields keeps each key once, and sets only values that are there. -/
theorem foldl_setField_native {P : Rat → Prop} : ∀ (fields object : JsonObject),
    (object.map Prod.fst).Nodup → (∀ field ∈ object, NativeOf P field.2) →
    (∀ field ∈ fields, NativeOf P field.2) →
      ((fields.foldl (fun object field => setField object field.1 field.2) object).map Prod.fst).Nodup ∧
        ∀ field ∈ fields.foldl (fun object field => setField object field.1 field.2) object,
          NativeOf P field.2
  | [], object, hkeys, hobject, _ => ⟨hkeys, hobject⟩
  | (key, value) :: rest, object, hkeys, hobject, hfields => by
    refine foldl_setField_native rest (setField object key value) ?_ ?_
      fun field hfield => hfields field (List.mem_cons_of_mem _ hfield)
    · rw [keys_setField]
      split
      · exact hkeys
      · next hnew =>
        refine List.nodup_append.mpr ⟨hkeys, List.nodup_singleton key, ?_⟩
        rintro a ha b hb rfl
        exact hnew (List.mem_singleton.mp hb ▸ ha)
    · intro field hfield
      rcases mem_setField hfield with hold | rfl
      · exact hobject field hold
      · exact hfields _ List.mem_cons_self

/-- **An object read field by field is one of the language.** -/
theorem native_fromFields {P : Rat → Prop} {fields : List (String × Json)}
    (h : NativeFieldsOf P fields) : NativeOf P (.obj (fromFields fields)) := by
  obtain ⟨hkeys, hvalues⟩ := foldl_setField_native fields [] List.nodup_nil nofun
    (nativeFieldsOf_iff.mp h)
  have hperm := fromEntries_perm
    (fields.foldl (fun object field => setField object field.1 field.2) [])
  rw [NativeOf]
  refine ⟨(hperm.map Prod.fst).nodup_iff.mpr hkeys, fromEntries_fromEntries _, ?_⟩
  exact nativeFieldsOf_iff.mpr fun field hfield => hvalues field (hperm.mem_iff.mp hfield)

/-! ## Values -/

section Read

variable {P : Rat → Prop} {read : List Char → Option Rat}

theorem native_readNumber (hread : ∀ {cs q}, read cs = some q → P q) {cs rest : List Char} {a : Json}
    (h : readNumber read cs = some (a, rest)) : NativeOf P a := by
  obtain ⟨q, hq, heq⟩ := Option.map_eq_some_iff.mp h
  cases heq
  exact hread hq

mutual

theorem native_parseValue (hread : ∀ {cs q}, read cs = some q → P q) : ∀ {fuel : Nat}
    {cs rest : List Char} {a : Json}, parseValue read fuel cs = some (a, rest) → NativeOf P a
  | 0, _, _, _, h => by
    rw [parseValue] at h
    cases h
  | fuel + 1, cs, rest, a, h => by
    rw [parseValue] at h
    split at h
    · cases h
    · next c text _ =>
      split at h
      · obtain ⟨_, -, heq⟩ := Option.map_eq_some_iff.mp h
        cases heq
        trivial
      · obtain ⟨_, -, heq⟩ := Option.map_eq_some_iff.mp h
        cases heq
        trivial
      · obtain ⟨_, -, heq⟩ := Option.map_eq_some_iff.mp h
        cases heq
        trivial
      · exact native_readNumber hread h
      · obtain ⟨_, -, heq⟩ := Option.map_eq_some_iff.mp h
        cases heq
        trivial
      · split at h
        · cases h
          trivial
        · obtain ⟨⟨items, tail⟩, hitems, heq⟩ := Option.map_eq_some_iff.mp h
          cases heq
          exact native_parseItems hread hitems
      · split at h
        · cases h
        · next d text _ =>
          split at h
          · cases h
            exact ⟨List.nodup_nil, rfl, trivial⟩
          · obtain ⟨⟨fields, tail⟩, hfields, heq⟩ := Option.map_eq_some_iff.mp h
            cases heq
            exact native_fromFields (native_parseFields hread hfields)
      · cases h

theorem native_parseItems (hread : ∀ {cs q}, read cs = some q → P q) : ∀ {fuel : Nat}
    {cs rest : List Char} {items : List Json}, parseItems read fuel cs = some (items, rest) →
      NativeItemsOf P items
  | 0, _, _, _, h => by
    rw [parseItems] at h
    cases h
  | fuel + 1, cs, rest, items, h => by
    rw [parseItems] at h
    obtain ⟨⟨item, text⟩, hitem, h⟩ := Option.bind_eq_some_iff.mp h
    simp only at h
    split at h
    · obtain ⟨⟨more, tail⟩, hmore, heq⟩ := Option.bind_eq_some_iff.mp h
      cases heq
      exact ⟨native_parseValue hread hitem, native_parseItems hread hmore⟩
    · cases h
      exact ⟨native_parseValue hread hitem, trivial⟩
    · cases h

theorem native_parseFields (hread : ∀ {cs q}, read cs = some q → P q) : ∀ {fuel : Nat}
    {cs rest : List Char} {fields : List (String × Json)}, parseFields read fuel cs =
      some (fields, rest) → NativeFieldsOf P fields
  | 0, _, _, _, h => by
    rw [parseFields] at h
    cases h
  | fuel + 1, cs, rest, fields, h => by
    rw [parseFields] at h
    split at h
    · cases h
    · next c text _ =>
      split at h
      · obtain ⟨⟨key, text⟩, -, h⟩ := Option.bind_eq_some_iff.mp h
        simp only at h
        split at h
        · obtain ⟨⟨value, text⟩, hvalue, h⟩ := Option.bind_eq_some_iff.mp h
          simp only at h
          split at h
          · cases h
          · split at h
            · obtain ⟨⟨more, tail⟩, hmore, heq⟩ := Option.bind_eq_some_iff.mp h
              cases heq
              exact ⟨native_parseValue hread hvalue, native_parseFields hread hmore⟩
            · split at h
              · cases h
                exact ⟨native_parseValue hread hvalue, trivial⟩
              · cases h
        · cases h
      · cases h

end

/-- **What `JSON.parse` gives is a value of the language.** -/
theorem native_of_parse (hread : ∀ {cs q}, read cs = some q → P q) {text : List Char} {a : Json}
    (h : parse read text = some a) : NativeOf P a := by
  obtain ⟨⟨value, rest⟩, hvalue, h⟩ := Option.bind_eq_some_iff.mp h
  simp only at h
  split at h
  · cases h
    exact native_parseValue hread hvalue
  · cases h

end Read

end EphemeralAgent.Json
