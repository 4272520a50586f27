import Mathlib.Data.List.Basic
import Mathlib.Logic.Function.Basic

/-!
# Interleaved sessions

A stream carries many sessions at once.  A session is opened under a key with a header, is fed
items under that key, and is closed; the key may then be used again.

* `sessions` — the reference: each session by itself, from its opening on
* `Table.next`, `closings` — the table of the open sessions, and what each close takes out of it
* `Table.Kept` — a program's own map of the open sessions, kept event by event
* `closings_sessions` — **the table hands out every closed session, in the order of the closes**
-/

namespace EphemeralAgent.Lib

variable {K H X : Type*}

/-- What an event of the stream is to its sessions. -/
inductive SessionEvent (K H X : Type*) where
  | opens (key : K) (header : H)
  | feeds (key : K) (item : X)
  | closes (key : K)
  | other

/-- A session by itself; `left` is the number of events from its close on, and 0 without a close. -/
structure Session (H X : Type*) where
  header : H
  fed : List X
  left : Nat

section Reference

variable [DecidableEq K]

namespace SessionEvent

def isClose (key : K) : SessionEvent K H X → Bool
  | .closes k => k = key
  | _ => false

def isOpen (key : K) : SessionEvent K H X → Bool
  | .opens k _ => k = key
  | _ => false

def openKey : SessionEvent K H X → Option K
  | .opens k _ => some k
  | _ => none

/-- What the event feeds to this key. -/
def feed (key : K) : SessionEvent K H X → Option X
  | .feeds k item => if k = key then some item else none
  | _ => none

end SessionEvent

/-- The events up to the close of this key. -/
def untilClose (key : K) (events : List (SessionEvent K H X)) : List (SessionEvent K H X) :=
  events.takeWhile fun event => !event.isClose key

def fedTo (key : K) (events : List (SessionEvent K H X)) : List X :=
  (untilClose key events).filterMap (·.feed key)

def leftAt (key : K) (events : List (SessionEvent K H X)) : Nat :=
  (events.dropWhile fun event => !event.isClose key).length

/-- The sessions of a stream, each by itself, in the order in which they are opened. -/
def sessions : List (SessionEvent K H X) → List (Session H X)
  | [] => []
  | .opens key header :: rest =>
    { header, fed := fedTo key rest, left := leftAt key rest } :: sessions rest
  | _ :: rest => sessions rest

/-- The session under this key is not opened again before it is closed. -/
def Unopened (key : K) (events : List (SessionEvent K H X)) : Prop :=
  ∀ event ∈ untilClose key events, event.isOpen key = false

/-- No opening uses a key that is open. -/
def NoReuse : List (SessionEvent K H X) → Prop
  | [] => True
  | .opens key _ :: rest => Unopened key rest ∧ NoReuse rest
  | _ :: rest => NoReuse rest

end Reference

/-- These sessions in the order of their closes. -/
def InCloseOrder (xs ordered : List (Session H X)) : Prop :=
  ordered.Perm xs ∧ ordered.Pairwise fun x y => y.left < x.left

/-! ## The table of the open sessions -/

/-- The open sessions, with what they have been fed so far. -/
abbrev Table (K H X : Type*) := K → Option (H × List X)

section Table

variable [DecidableEq K]

/-- One event. -/
def Table.next (t : Table K H X) : SessionEvent K H X → Table K H X
  | .opens key header => Function.update t key (some (header, []))
  | .feeds key item => Function.update t key ((t key).map fun x => (x.1, x.2 ++ [item]))
  | .closes key => Function.update t key none
  | .other => t

/-- The session that the event closes. -/
def Table.closed (t : Table K H X) : SessionEvent K H X → Option (H × List X)
  | .closes key => t key
  | _ => none

/-- What the closes of a stream hand out, in order. -/
def closings : Table K H X → List (SessionEvent K H X) → List (H × List X)
  | _, [] => []
  | t, event :: rest => (t.closed event).toList ++ closings (t.next event) rest

/-! ### What a program keeps of the table -/

/-- The map keeps of each open session what `f` makes of it. -/
def Table.Kept {A : Type*} (t : Table K H X) (f : H × List X → A) (m : K → Option A) : Prop :=
  ∀ key, m key = (t key).map f

section Kept

variable {A : Type*} {t : Table K H X} {f : H × List X → A} {m : K → Option A}

theorem Table.Kept.opens (h : t.Kept f m) (key : K) (header : H) :
    (t.next (.opens key header)).Kept f (Function.update m key (some (f (header, [])))) := by
  intro k
  rw [Table.next]
  by_cases hk : k = key
  · subst hk
    rw [Function.update_self, Function.update_self, Option.map_some]
  · rw [Function.update_of_ne hk, Function.update_of_ne hk, h k]

theorem Table.Kept.feeds (h : t.Kept f m) (key : K) {item : X} {add : A → A}
    (hadd : ∀ x, f (x.1, x.2 ++ [item]) = add (f x)) :
    (t.next (.feeds key item)).Kept f (Function.update m key ((m key).map add)) := by
  intro k
  rw [Table.next]
  by_cases hk : k = key
  · subst hk
    simp only [Function.update_self, h k, Option.map_map, Function.comp_def, hadd]
  · rw [Function.update_of_ne hk, Function.update_of_ne hk, h k]

theorem Table.Kept.closes (h : t.Kept f m) (key : K) :
    (t.next (.closes key)).Kept f (Function.update m key none) := by
  intro k
  rw [Table.next]
  by_cases hk : k = key
  · subst hk
    rw [Function.update_self, Function.update_self, Option.map_none]
  · rw [Function.update_of_ne hk, Function.update_of_ne hk, h k]

/-- Every open session has a header of this kind. -/
def Table.Headed (t : Table K H X) (P : H → Prop) : Prop :=
  ∀ key x, t key = some x → P x.1

theorem Table.Headed.next {P : H → Prop} (h : t.Headed P) {event : SessionEvent K H X}
    (hopens : ∀ key header, event = .opens key header → P header) : (t.next event).Headed P := by
  intro k x hx
  cases event with
  | opens key header =>
    rw [Table.next] at hx
    by_cases hk : k = key
    · subst hk
      rw [Function.update_self] at hx
      cases hx
      exact hopens k header rfl
    · rw [Function.update_of_ne hk] at hx
      exact h k x hx
  | feeds key item =>
    rw [Table.next] at hx
    by_cases hk : k = key
    · subst hk
      rw [Function.update_self] at hx
      obtain ⟨y, hy, rfl⟩ := Option.map_eq_some_iff.mp hx
      exact h k y hy
    · rw [Function.update_of_ne hk] at hx
      exact h k x hx
  | closes key =>
    rw [Table.next] at hx
    by_cases hk : k = key
    · subst hk
      rw [Function.update_self] at hx
      cases hx
    · rw [Function.update_of_ne hk] at hx
      exact h k x hx
  | other => exact h k x hx

end Kept

end Table

/-! ## The reference, event by event -/

section Events

variable [DecidableEq K] {key : K} {event : SessionEvent K H X} {rest : List (SessionEvent K H X)}

/-- An event that is nothing to this key. -/
theorem fedTo_cons (hclose : event.isClose key = false) :
    fedTo key (event :: rest) = (event.feed key).toList ++ fedTo key rest := by
  unfold fedTo untilClose
  rw [List.takeWhile_cons_of_pos (by simp [hclose]), List.filterMap_cons]
  cases event.feed key <;> rfl

theorem leftAt_cons (hclose : event.isClose key = false) :
    leftAt key (event :: rest) = leftAt key rest := by
  unfold leftAt
  rw [List.dropWhile_cons_of_pos (by simp [hclose])]

/-- The close of this key. -/
theorem fedTo_close (rest : List (SessionEvent K H X)) : fedTo key (.closes key :: rest) = [] := by
  unfold fedTo untilClose
  rw [List.takeWhile_cons_of_neg (by simp [SessionEvent.isClose])]
  rfl

theorem leftAt_close (rest : List (SessionEvent K H X)) :
    leftAt key (.closes key :: rest) = rest.length + 1 := by
  unfold leftAt
  rw [List.dropWhile_cons_of_neg (by simp [SessionEvent.isClose])]
  rfl

theorem leftAt_le (key : K) (events : List (SessionEvent K H X)) :
    leftAt key events ≤ events.length :=
  (List.dropWhile_sublist _).length_le

theorem Unopened.tail (h : Unopened key (event :: rest)) (hclose : event.isClose key = false) :
    event.isOpen key = false ∧ Unopened key rest := by
  unfold Unopened untilClose at h
  rw [List.takeWhile_cons_of_pos (by simp [hclose])] at h
  exact ⟨h _ List.mem_cons_self, fun later hlater => h later (List.mem_cons_of_mem _ hlater)⟩

theorem left_le {events : List (SessionEvent K H X)} :
    ∀ x ∈ sessions events, x.left ≤ events.length := by
  induction events with
  | nil => nofun
  | cons event rest ih =>
    have hrest : ∀ x ∈ sessions rest, x.left ≤ (event :: rest).length := by
      intro x hx
      have := ih x hx
      simp only [List.length_cons]
      omega
    intro x hx
    cases event with
    | opens key header =>
      rcases List.mem_cons.mp hx with rfl | hx
      · have := leftAt_le key rest
        simp only [List.length_cons]
        omega
      · exact hrest x hx
    | _ => exact hrest x hx

theorem isOpen_iff : event.isOpen key = true ↔ event.openKey = some key := by
  cases event <;> simp [SessionEvent.isOpen, SessionEvent.openKey]

/-- Sessions under distinct keys. -/
theorem noReuse_of_nodup {events : List (SessionEvent K H X)}
    (h : (events.filterMap SessionEvent.openKey).Nodup) : NoReuse events := by
  induction events with
  | nil => trivial
  | cons event rest ih =>
    cases event with
    | opens key header =>
      obtain ⟨hnot, hrest⟩ := List.nodup_cons.mp h
      refine ⟨fun later hlater => ?_, ih hrest⟩
      refine Bool.eq_false_iff.mpr fun hopen => hnot ?_
      exact List.mem_filterMap.mpr
        ⟨later, (List.takeWhile_sublist _).subset hlater, isOpen_iff.mp hopen⟩
    | _ => exact ih h

end Events

/-! ## The table hands out the sessions -/

section Closings

variable [DecidableEq K]

/-- The session under this key, as the rest of the stream completes it. -/
def Table.session (t : Table K H X) (events : List (SessionEvent K H X)) (key : K) :
    Option (Session H X) :=
  (t key).map fun x =>
    { header := x.1, fed := x.2 ++ fedTo key events, left := leftAt key events }

/-- The keys that are open. -/
structure Holds (t : Table K H X) (opened : List K) (events : List (SessionEvent K H X)) :
    Prop where
  nodup : opened.Nodup
  isSome : ∀ key, (t key).isSome = true ↔ key ∈ opened
  unopened : ∀ key ∈ opened, Unopened key events

variable {t : Table K H X} {opened : List K} {event : SessionEvent K H X}
  {rest : List (SessionEvent K H X)}

theorem Table.session_left_le {key : K} {events : List (SessionEvent K H X)} {x : Session H X}
    (h : t.session events key = some x) : x.left ≤ events.length := by
  obtain ⟨y, -, rfl⟩ := Option.map_eq_some_iff.mp h
  exact leftAt_le key events

/-- The sessions of the table and those to come, that are closed. -/
def toClose (t : Table K H X) (opened : List K) (events : List (SessionEvent K H X)) :
    List (Session H X) :=
  (opened.filterMap (t.session events) ++ sessions events).filter fun x => 0 < x.left

theorem toClose_left_le {events : List (SessionEvent K H X)} :
    ∀ x ∈ toClose t opened events, x.left ≤ events.length := by
  intro x hx
  rcases List.mem_append.mp (List.mem_of_mem_filter hx) with hx | hx
  · obtain ⟨key, -, hkey⟩ := List.mem_filterMap.mp hx
    exact Table.session_left_le hkey
  · exact left_le x hx

/-- **An opening.** -/
theorem Holds.opens {key : K} {header : H} (h : Holds t opened (.opens key header :: rest))
    (hfresh : Unopened key rest) :
    Holds (t.next (.opens key header)) (key :: opened) rest ∧
      (toClose (t.next (.opens key header)) (key :: opened) rest).Perm
        (toClose t opened (.opens key header :: rest)) := by
  have hnot : key ∉ opened := by
    intro hmem
    have hopen := (Unopened.tail (h.unopened key hmem) rfl).1
    simp [SessionEvent.isOpen] at hopen
  refine ⟨⟨List.nodup_cons.mpr ⟨hnot, h.nodup⟩, fun k => ?_, fun k hk => ?_⟩, ?_⟩
  · rw [Table.next, List.mem_cons]
    by_cases hk : k = key
    · subst hk
      simp
    · rw [Function.update_of_ne hk, h.isSome]
      simp [hk]
  · rcases List.mem_cons.mp hk with rfl | hk
    · exact hfresh
    · exact (Unopened.tail (h.unopened k hk) rfl).2
  · have hold : opened.filterMap ((t.next (.opens key header)).session rest) =
        opened.filterMap (t.session (.opens key header :: rest)) := by
      refine List.filterMap_congr fun k hk => ?_
      have hne : k ≠ key := fun heq => hnot (heq ▸ hk)
      unfold Table.session
      rw [Table.next, Function.update_of_ne hne, fedTo_cons rfl, leftAt_cons rfl]
      rfl
    have hnew : (t.next (.opens key header)).session rest key =
        some { header, fed := fedTo key rest, left := leftAt key rest } := by
      simp [Table.session, Table.next]
    refine List.Perm.filter _ ?_
    rw [List.filterMap_cons_some hnew, hold]
    exact List.perm_middle.symm

/-- **An item.** -/
theorem Holds.feeds {key : K} {item : X} (h : Holds t opened (.feeds key item :: rest)) :
    Holds (t.next (.feeds key item)) opened rest ∧
      toClose (t.next (.feeds key item)) opened rest =
        toClose t opened (.feeds key item :: rest) := by
  refine ⟨⟨h.nodup, fun k => ?_, fun k hk => (Unopened.tail (h.unopened k hk) rfl).2⟩, ?_⟩
  · rw [← h.isSome, Table.next]
    by_cases hk : k = key
    · subst hk
      simp
    · rw [Function.update_of_ne hk]
  · have hsame : (t.next (.feeds key item)).session rest =
        t.session (.feeds key item :: rest) := by
      funext k
      unfold Table.session
      rw [fedTo_cons rfl, leftAt_cons rfl, Table.next]
      by_cases hk : k = key
      · subst hk
        cases t k <;> simp [SessionEvent.feed]
      · have hne : key ≠ k := fun heq => hk heq.symm
        simp [Function.update_of_ne hk, SessionEvent.feed, hne]
    unfold toClose
    rw [hsame]
    rfl

/-- **A close.** -/
theorem Holds.closes {key : K} (h : Holds t opened (.closes key :: rest)) :
    Holds (t.next (.closes key)) (opened.erase key) rest ∧
      (toClose t opened (.closes key :: rest)).Perm
        (((t key).map fun x => { header := x.1, fed := x.2, left := rest.length + 1 }).toList ++
          toClose (t.next (.closes key)) (opened.erase key) rest) := by
  have hother : ∀ k, k ≠ key →
      (t.next (.closes key)).session rest k = t.session (.closes key :: rest) k := by
    intro k hk
    have hclose : SessionEvent.isClose k (.closes key : SessionEvent K H X) = false :=
      decide_eq_false fun heq => hk heq.symm
    unfold Table.session
    rw [Table.next, Function.update_of_ne hk, fedTo_cons hclose, leftAt_cons hclose]
    rfl
  -- the other sessions are as far along as before
  have hkept : (opened.erase key).filterMap ((t.next (.closes key)).session rest) =
      (opened.erase key).filterMap (t.session (.closes key :: rest)) := by
    refine List.filterMap_congr fun k hk => hother k ?_
    rintro rfl
    exact h.nodup.not_mem_erase hk
  refine ⟨⟨h.nodup.erase key, fun k => ?_, fun k hk => ?_⟩, ?_⟩
  · rw [h.nodup.mem_erase_iff, ← h.isSome, Table.next]
    by_cases hk : k = key
    · subst hk
      simp
    · rw [Function.update_of_ne hk]
      simp [hk]
  · have hclose : SessionEvent.isClose k (.closes key : SessionEvent K H X) = false := by
      refine decide_eq_false fun heq => ?_
      subst heq
      exact h.nodup.not_mem_erase hk
    exact (Unopened.tail (h.unopened k (List.mem_of_mem_erase hk)) hclose).2
  · unfold toClose
    rw [hkept]
    cases hkey : t key with
    | none =>
      have hnot : key ∉ opened := by
        rw [← h.isSome, hkey]
        nofun
      rw [List.erase_of_not_mem hnot]
      exact List.Perm.refl _
    | some x =>
      have hmem : key ∈ opened := by
        rw [← h.isSome, hkey]
        rfl
      have hclosed : t.session (.closes key :: rest) key =
          some { header := x.1, fed := x.2, left := rest.length + 1 } := by
        rw [Table.session, hkey, fedTo_close, leftAt_close, Option.map_some, List.append_nil]
      have hperm := (List.perm_cons_erase hmem).filterMap (t.session (.closes key :: rest))
      rw [List.filterMap_cons_some hclosed] at hperm
      have hfiltered := (hperm.append_right (sessions rest)).filter fun x => 0 < x.left
      rw [List.cons_append, List.filter_cons_of_pos (by simp)] at hfiltered
      exact hfiltered

/-- **Any other event.** -/
theorem Holds.other (h : Holds t opened (.other :: rest)) :
    Holds t opened rest ∧ toClose t opened rest = toClose t opened (.other :: rest) := by
  refine ⟨⟨h.nodup, h.isSome, fun k hk => (Unopened.tail (h.unopened k hk) rfl).2⟩, ?_⟩
  have hsame : t.session rest = t.session (.other :: rest) := by
    funext k
    unfold Table.session
    rw [fedTo_cons rfl, leftAt_cons rfl]
    rfl
  unfold toClose
  rw [hsame]
  rfl

/-- What closes now closes before the rest. -/
theorem InCloseOrder.cons {xs ordered : List (Session H X)} (h : InCloseOrder xs ordered)
    (x : Session H X) (hlast : ∀ y ∈ xs, y.left < x.left) : InCloseOrder (x :: xs) (x :: ordered) :=
  ⟨h.1.cons x, List.pairwise_cons.mpr ⟨fun y hy => hlast y (h.1.mem_iff.mp hy), h.2⟩⟩

theorem closings_toClose {events : List (SessionEvent K H X)} :
    ∀ {t : Table K H X} {opened : List K}, Holds t opened events → NoReuse events →
      ∃ ordered, InCloseOrder (toClose t opened events) ordered ∧
        closings t events = ordered.map fun x => (x.header, x.fed) := by
  induction events with
  | nil =>
    intro t opened h hreuse
    have hempty : toClose t opened [] = [] := by
      refine List.filter_eq_nil_iff.mpr fun x hx => ?_
      have hle : x.left ≤ 0 := by
        rcases List.mem_append.mp hx with hx | hx
        · obtain ⟨key, -, hkey⟩ := List.mem_filterMap.mp hx
          exact Table.session_left_le hkey
        · cases hx
      simpa using hle
    rw [hempty]
    exact ⟨[], ⟨List.Perm.refl _, List.Pairwise.nil⟩, rfl⟩
  | cons event rest ih =>
    intro t opened h hreuse
    cases event with
    | opens key header =>
      obtain ⟨hfresh, hreuse⟩ := hreuse
      obtain ⟨hnext, hperm⟩ := h.opens hfresh
      obtain ⟨ordered, ⟨hordered, hpairwise⟩, hclosings⟩ := ih hnext hreuse
      exact ⟨ordered, ⟨hordered.trans hperm, hpairwise⟩, hclosings⟩
    | feeds key item =>
      obtain ⟨hnext, hsame⟩ := h.feeds
      rw [← hsame]
      exact ih hnext hreuse
    | closes key =>
      obtain ⟨hnext, hperm⟩ := h.closes
      obtain ⟨ordered, horder, hclosings⟩ := ih hnext hreuse
      cases hkey : t key with
      | none =>
        rw [hkey] at hperm
        refine ⟨ordered, ⟨horder.1.trans hperm.symm, horder.2⟩, ?_⟩
        rw [closings, Table.closed, hkey]
        exact hclosings
      | some x =>
        rw [hkey] at hperm
        -- the session that closes here has the most events left, so it comes first
        have hcons := horder.cons { header := x.1, fed := x.2, left := rest.length + 1 }
          fun y hy => Nat.lt_succ_of_le (toClose_left_le y hy)
        refine ⟨_ :: ordered, ⟨hcons.1.trans hperm.symm, hcons.2⟩, ?_⟩
        rw [closings, Table.closed, hkey, hclosings]
        rfl
    | other =>
      obtain ⟨hnext, hsame⟩ := h.other
      rw [← hsame]
      exact ih hnext hreuse

/-- **The table hands out every session that is closed, in the order of the closes.** -/
theorem closings_sessions {events : List (SessionEvent K H X)} (hreuse : NoReuse events) :
    ∃ ordered, InCloseOrder ((sessions events).filter fun x => 0 < x.left) ordered ∧
      closings (fun _ => none) events = ordered.map fun x => (x.header, x.fed) :=
  closings_toClose ⟨List.nodup_nil, by simp, nofun⟩ hreuse

end Closings

end EphemeralAgent.Lib
