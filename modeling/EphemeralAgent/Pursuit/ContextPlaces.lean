import EphemeralAgent.Pursuit.Tickets

/-!
# Places in a pursuit's context

The tree of a pursuit has files of the pursuit, of its legs, of their attempts and of the work
items of those.  Ids of legs and attempts have no "/" in them; those of work items may.

* `Place` — where a file or a directory stands, and its path
* `Place.path_inj` — two places have one path only when the id of a work item imitates a file
-/

namespace EphemeralAgent.Pursuit

open EphemeralAgent.Lib EphemeralAgent.Workflow

/-! ## Places -/

/-- A place in the directory of a work item. -/
inductive ItemPlace where
  | directory
  | file (name : String)
  deriving DecidableEq

/-- A place in the directory of an attempt. -/
inductive AttemptPlace where
  | directory
  | file (name : String)
  | item (id : String) (place : ItemPlace)
  deriving DecidableEq

/-- A place in the directory of a leg. -/
inductive LegPlace where
  | directory
  | superseded
  | file (name : String)
  | attempt (old : Bool) (id : String) (place : AttemptPlace)
  deriving DecidableEq

/-- A place in the directory of a pursuit. -/
inductive Place where
  | directory
  | file (name : String)
  | leg (id : String) (place : LegPlace)
  deriving DecidableEq

/-- What follows the path of the work item. -/
def ItemPlace.suffix : ItemPlace → List Char
  | .directory => []
  | .file name => '/' :: name.toList

/-- What follows the path of the attempt. -/
def AttemptPlace.suffix : AttemptPlace → List Char
  | .directory => []
  | .file name => '/' :: name.toList
  | .item id place => '/' :: (("work_item_" ++ id).toList ++ place.suffix)

/-- What follows the path of the leg. -/
def LegPlace.suffix : LegPlace → List Char
  | .directory => []
  | .superseded => '/' :: "superseded".toList
  | .file name => '/' :: name.toList
  | .attempt old id place =>
    (if old then '/' :: "superseded".toList else []) ++
      '/' :: (("attempt_" ++ id).toList ++ place.suffix)

/-- The key of the place in the maps of the context. -/
def Place.path : Place → List Char
  | .directory => []
  | .file name => name.toList
  | .leg id place => ("leg_" ++ id).toList ++ place.suffix

/-! ## Proper names -/

def ItemPlace.Proper : ItemPlace → Prop
  | .directory => True
  | .file name => '/' ∉ name.toList

def AttemptPlace.Proper : AttemptPlace → Prop
  | .directory => True
  | .file name => '/' ∉ name.toList ∧ name.toList.head? ≠ some 'w'
  | .item _ place => place.Proper

def LegPlace.Proper : LegPlace → Prop
  | .directory => True
  | .superseded => True
  | .file name =>
    '/' ∉ name.toList ∧ name.toList.head? ≠ some 's' ∧ name.toList.head? ≠ some 'a'
  | .attempt _ id place => '/' ∉ id.toList ∧ place.Proper

/-- Names of files have no separator and begin like no directory; neither has the id of a leg or
of an attempt. -/
def Place.Proper : Place → Prop
  | .directory => True
  | .file name => '/' ∉ name.toList ∧ name.toList.head? ≠ some 'l' ∧ name ≠ ""
  | .leg id place => '/' ∉ id.toList ∧ place.Proper

/-! ## Segments -/

/-- The text is empty or begins with a separator. -/
def Segmented (text : List Char) : Prop :=
  text = [] ∨ ∃ rest, text = '/' :: rest

theorem AttemptPlace.segmented (place : AttemptPlace) : Segmented place.suffix := by
  cases place with
  | directory => exact .inl rfl
  | file name => exact .inr ⟨_, rfl⟩
  | item id place => exact .inr ⟨_, rfl⟩

theorem LegPlace.segmented (place : LegPlace) : Segmented place.suffix := by
  cases place with
  | directory => exact .inl rfl
  | superseded => exact .inr ⟨_, rfl⟩
  | file name => exact .inr ⟨_, rfl⟩
  | attempt old id place => cases old <;> exact .inr ⟨_, rfl⟩

/-- What stands before the first separator is determined. -/
theorem segment_inj {a b s t : List Char} (ha : '/' ∉ a) (hb : '/' ∉ b) (hs : Segmented s)
    (ht : Segmented t) (h : a ++ s = b ++ t) : a = b ∧ s = t := by
  rcases hs with rfl | ⟨s, rfl⟩ <;> rcases ht with rfl | ⟨t, rfl⟩
  · rw [List.append_nil, List.append_nil] at h
    exact ⟨h, rfl⟩
  · rw [List.append_nil] at h
    exact absurd (by simp [h]) ha
  · rw [List.append_nil] at h
    exact absurd (by simp [← h]) hb
  · obtain ⟨rfl, rfl⟩ := append_separator_inj ha hb h
    exact ⟨rfl, rfl⟩

/-- What stands after the last separator is determined. -/
theorem last_segment_inj {a b s t : List Char} (hs : '/' ∉ s) (ht : '/' ∉ t)
    (h : a ++ '/' :: s = b ++ '/' :: t) : a = b ∧ s = t := by
  have hreverse := congrArg List.reverse h
  simp only [List.reverse_append, List.reverse_cons, List.append_assoc,
    List.singleton_append] at hreverse
  obtain ⟨hs', ha'⟩ := append_separator_inj (by simpa using hs) (by simpa using ht) hreverse
  exact ⟨List.reverse_inj.mp ha', List.reverse_inj.mp hs'⟩

theorem append_right_inj {a id id' : String} (h : a ++ id = a ++ id') : id = id' := by
  have hlist := congrArg String.toList h
  rw [String.toList_append, String.toList_append] at hlist
  exact String.toList_inj.mp (List.append_cancel_left hlist)

/-! ## Places with one path -/

/-- The directory of one work item and the file of another, whose path the id of the first
imitates. -/
inductive AttemptPlace.Imitates : AttemptPlace → AttemptPlace → Prop
  | intro {id other name : String} (h : id.toList = other.toList ++ '/' :: name.toList) :
      Imitates (.item id .directory) (.item other (.file name))

/-- The same in one attempt. -/
inductive LegPlace.Imitates : LegPlace → LegPlace → Prop
  | intro {id : String} {old : Bool} {place other : AttemptPlace} (h : place.Imitates other) :
      Imitates (.attempt old id place) (.attempt old id other)

/-- The same in one leg. -/
inductive Place.Imitates : Place → Place → Prop
  | intro {id : String} {place other : LegPlace} (h : place.Imitates other) :
      Imitates (.leg id place) (.leg id other)

theorem AttemptPlace.suffix_inj {p q : AttemptPlace} (hp : p.Proper) (hq : q.Proper)
    (h : p.suffix = q.suffix) : p = q ∨ p.Imitates q ∨ q.Imitates p := by
  have hname : ∀ {name : String} {id : String} {place : ItemPlace},
      name.toList.head? ≠ some 'w' →
        '/' :: name.toList ≠ '/' :: (("work_item_" ++ id).toList ++ place.suffix) := by
    intro name id place hhead heq
    rw [(List.cons.inj heq).2] at hhead
    exact hhead (by simp)
  cases p with
  | directory =>
    cases q with
    | directory => exact .inl rfl
    | file name => cases h
    | item id place => cases h
  | file name =>
    cases q with
    | directory => cases h
    | file name' =>
      obtain rfl := String.toList_inj.mp (List.cons.inj h).2
      exact .inl rfl
    | item id place => exact absurd h (hname hp.2)
  | item id place =>
    cases q with
    | directory => cases h
    | file name => exact absurd h.symm (hname hq.2)
    | item id' place' =>
      have hids : id.toList ++ place.suffix = id'.toList ++ place'.suffix := by
        have hsame := (List.cons.inj h).2
        rw [String.toList_append, String.toList_append, List.append_assoc, List.append_assoc] at hsame
        exact List.append_cancel_left hsame
      -- ids may contain separators, so it is the last one that tells an id from a name
      cases place with
      | directory =>
        cases place' with
        | directory =>
          obtain rfl := String.toList_inj.mp (by simpa [ItemPlace.suffix] using hids)
          exact .inl rfl
        | file name =>
          exact .inr (.inl (.intro (by simpa [ItemPlace.suffix] using hids)))
      | file name =>
        cases place' with
        | directory =>
          exact .inr (.inr (.intro (by simpa [ItemPlace.suffix] using hids.symm)))
        | file name' =>
          obtain ⟨hid, hsame⟩ := last_segment_inj hp hq hids
          obtain rfl := String.toList_inj.mp hid
          obtain rfl := String.toList_inj.mp hsame
          exact .inl rfl

/-- The first segment of the suffix. -/
def LegPlace.first : LegPlace → String
  | .directory => ""
  | .superseded => "superseded"
  | .file name => name
  | .attempt old id _ => if old then "superseded" else "attempt_" ++ id

/-- What follows the first segment. -/
def LegPlace.rest : LegPlace → List Char
  | .directory | .superseded | .file _ => []
  | .attempt old id place =>
    if old then '/' :: (("attempt_" ++ id).toList ++ place.suffix) else place.suffix

theorem LegPlace.suffix_eq {p : LegPlace} (h : p ≠ .directory) :
    p.suffix = '/' :: (p.first.toList ++ p.rest) := by
  cases p with
  | directory => exact absurd rfl h
  | superseded => simp [suffix, first, rest]
  | file name => simp [suffix, first, rest]
  | attempt old id place => cases old <;> simp [suffix, first, rest]

theorem slash_notMem_append {a id : String} (ha : '/' ∉ a.toList) (hid : '/' ∉ id.toList) :
    '/' ∉ (a ++ id).toList := by
  rw [String.toList_append, List.mem_append, not_or]
  exact ⟨ha, hid⟩

theorem LegPlace.Proper.split {p : LegPlace} (hp : p.Proper) :
    '/' ∉ p.first.toList ∧ Segmented p.rest := by
  cases p with
  | directory => exact ⟨by decide, .inl rfl⟩
  | superseded => exact ⟨by decide, .inl rfl⟩
  | file name => exact ⟨hp.1, .inl rfl⟩
  | attempt old id place =>
    cases old with
    | false => exact ⟨slash_notMem_append (by decide) hp.1, place.segmented⟩
    | true =>
      have hplain : '/' ∉ "superseded".toList := by decide
      exact ⟨hplain, .inr ⟨_, rfl⟩⟩

theorem attempt_ne_superseded (id : String) : "attempt_" ++ id ≠ "superseded" := by
  intro h
  have hhead := congrArg (fun text : String => text.toList.head?) h
  simp at hhead

/-- Attempts with one path, side by side. -/
theorem LegPlace.attempt_inj {id id' : String} {a b : AttemptPlace} (old : Bool)
    (hp : a.Proper) (hq : b.Proper) (hid : "attempt_" ++ id = "attempt_" ++ id')
    (hrest : a.suffix = b.suffix) :
    LegPlace.attempt old id a = .attempt old id' b ∨
      (LegPlace.attempt old id a).Imitates (.attempt old id' b) ∨
        (LegPlace.attempt old id' b).Imitates (.attempt old id a) := by
  obtain rfl := append_right_inj hid
  rcases AttemptPlace.suffix_inj hp hq hrest with rfl | h | h
  · exact .inl rfl
  · exact .inr (.inl ⟨h⟩)
  · exact .inr (.inr ⟨h⟩)

theorem LegPlace.suffix_inj {p q : LegPlace} (hp : p.Proper) (hq : q.Proper)
    (h : p.suffix = q.suffix) : p = q ∨ p.Imitates q ∨ q.Imitates p := by
  by_cases hpd : p = .directory
  · subst hpd
    by_cases hqd : q = .directory
    · exact .inl hqd.symm
    · rw [LegPlace.suffix_eq hqd] at h
      cases h
  by_cases hqd : q = .directory
  · subst hqd
    rw [LegPlace.suffix_eq hpd] at h
    cases h
  rw [LegPlace.suffix_eq hpd, LegPlace.suffix_eq hqd] at h
  obtain ⟨hsame, hrest⟩ := segment_inj hp.split.1 hq.split.1 hp.split.2 hq.split.2
    (List.cons.inj h).2
  -- the first segments and the rests agree
  have hfirst : p.first = q.first := String.toList_inj.mp hsame
  cases p with
  | directory => exact absurd rfl hpd
  | superseded =>
    cases q with
    | directory => exact absurd rfl hqd
    | superseded => exact .inl rfl
    | file name =>
      obtain rfl : "superseded" = name := hfirst
      exact absurd (by decide) hq.2.1
    | attempt old id place =>
      cases old with
      | false => exact absurd hfirst.symm (attempt_ne_superseded id)
      | true => cases hrest
  | file name =>
    cases q with
    | directory => exact absurd rfl hqd
    | superseded =>
      obtain rfl : name = "superseded" := hfirst
      exact absurd (by decide) hp.2.1
    | file name' =>
      obtain rfl : name = name' := hfirst
      exact .inl rfl
    | attempt old id place =>
      cases old with
      | false =>
        obtain rfl : name = "attempt_" ++ id := hfirst
        exact absurd (by simp) hp.2.2
      | true => cases hrest
  | attempt old id place =>
    cases q with
    | directory => exact absurd rfl hqd
    | superseded =>
      cases old with
      | false => exact absurd hfirst (attempt_ne_superseded id)
      | true => cases hrest
    | file name =>
      cases old with
      | false =>
        obtain rfl : "attempt_" ++ id = name := hfirst
        exact absurd (by simp) hq.2.2
      | true => cases hrest
    | attempt old' id' place' =>
      cases old with
      | false =>
        cases old' with
        | false => exact LegPlace.attempt_inj false hp.2 hq.2 hfirst hrest
        | true => exact absurd hfirst (attempt_ne_superseded id)
      | true =>
        cases old' with
        | false => exact absurd hfirst.symm (attempt_ne_superseded id')
        | true =>
          obtain ⟨hid, hsuffix⟩ := segment_inj (slash_notMem_append (by decide) hp.1)
            (slash_notMem_append (by decide) hq.1) place.segmented place'.segmented
            (List.cons.inj hrest).2
          exact LegPlace.attempt_inj true hp.2 hq.2 (String.toList_inj.mp hid) hsuffix

/-- **Two places have one path only when an id imitates a file.** -/
theorem Place.path_inj {p q : Place} (hp : p.Proper) (hq : q.Proper) (h : p.path = q.path) :
    p = q ∨ p.Imitates q ∨ q.Imitates p := by
  have hname : ∀ {name id : String} {place : LegPlace}, name.toList.head? ≠ some 'l' →
      name.toList ≠ ("leg_" ++ id).toList ++ place.suffix := by
    intro name id place hhead heq
    rw [heq] at hhead
    exact hhead (by simp)
  have hempty : ∀ {name : String}, name ≠ "" → name.toList ≠ [] := by
    intro name hne heq
    exact hne (String.toList_inj.mp heq)
  have hleg : ∀ {id : String} {place : LegPlace},
      (Place.leg id place).path ≠ Place.directory.path := by
    intro id place heq
    have hlength := congrArg List.length heq
    simp [Place.path] at hlength
  cases p with
  | directory =>
    cases q with
    | directory => exact .inl rfl
    | file name => exact absurd h.symm (hempty hq.2.2)
    | leg id place => exact absurd h.symm hleg
  | file name =>
    cases q with
    | directory => exact absurd h (hempty hp.2.2)
    | file name' =>
      obtain rfl := String.toList_inj.mp h
      exact .inl rfl
    | leg id place => exact absurd h (hname hp.2.1)
  | leg id place =>
    cases q with
    | directory => exact absurd h hleg
    | file name => exact absurd h.symm (hname hq.2.1)
    | leg id' place' =>
      obtain ⟨hid, hsuffix⟩ := segment_inj (slash_notMem_append (by decide) hp.1)
        (slash_notMem_append (by decide) hq.1) place.segmented place'.segmented h
      obtain rfl := append_right_inj (String.toList_inj.mp hid)
      rcases LegPlace.suffix_inj hp.2 hq.2 hsuffix with rfl | h | h
      · exact .inl rfl
      · exact .inr (.inl ⟨h⟩)
      · exact .inr (.inr ⟨h⟩)

/-! ## Files and directories -/

def ItemPlace.IsFile : ItemPlace → Prop
  | .directory => False
  | .file _ => True

def AttemptPlace.IsFile : AttemptPlace → Prop
  | .directory => False
  | .file _ => True
  | .item _ place => place.IsFile

def LegPlace.IsFile : LegPlace → Prop
  | .directory | .superseded => False
  | .file _ => True
  | .attempt _ _ place => place.IsFile

def Place.IsFile : Place → Prop
  | .directory => False
  | .file _ => True
  | .leg _ place => place.IsFile

/-- Only a directory imitates, and only a file is imitated. -/
theorem Place.Imitates.isFile {p q : Place} (h : p.Imitates q) : ¬ p.IsFile ∧ q.IsFile := by
  obtain ⟨⟨⟨-⟩⟩⟩ := h
  exact ⟨id, trivial⟩

end EphemeralAgent.Pursuit
