import Mathlib.Data.List.Flatten
import EphemeralAgent.Pursuit.Context
import EphemeralAgent.Pursuit.ContextPlaces
import EphemeralAgent.Pursuit.Validation

/-!
# The paths of a pursuit's context

The files of a pursuit never overwrite each other, and neither do its directories; but the
directory of a work item can have the path of a file of another one.

* `placedFiles`, `placedDirectories` — every entry that a state defines, at its place
* `fileWrites_eq`, `directoryWrites_eq` — the source writes just these
* `context_paths_unambiguous_iff` — all rows have paths of their own exactly when no id imitates a file
-/

namespace EphemeralAgent.Pursuit

open EphemeralAgent.Lib EphemeralAgent.Workflow

/-! ## Where the entries of a state stand -/

section Placed

variable (running : RunningMetadata)

/-- The files of one owner. -/
def placed {P : Type} (place : String → P) (owner : ContextOwner) (files : List FieldFile) :
    List (P × ContextFile) :=
  files.map fun file => (place file.name, ⟨owner, file.content⟩)

/-- The same entries at places one level up. -/
def within {P Q E : Type} (f : P → Q) (entries : List (P × E)) : List (Q × E) :=
  entries.map fun entry => (f entry.1, entry.2)

/-- The files of the attempt's own fields. -/
def attemptOwnFiles (attempt : Attempt) : List FieldFile :=
  attemptFieldFiles attempt ++
    if attempt.isConsistentWithLegGoal then [] else supersededDeclarationFiles attempt

def placedItemFiles (item : WorkItem) : List (ItemPlace × ContextFile) :=
  placed .file (itemRef running item) (workItemFieldFiles item)

def placedAttemptFiles (attempt : Attempt) : List (AttemptPlace × ContextFile) :=
  placed .file (attemptRef running attempt) (attemptOwnFiles attempt) ++
    attempt.workItems.flatMap fun item => within (.item item.id) (placedItemFiles running item)

def placedLegFiles (leg : Leg) : List (LegPlace × ContextFile) :=
  placed .file (legRef leg) (legFieldFiles leg) ++
    leg.attempts.flatMap fun attempt =>
      within (.attempt (!attempt.isConsistentWithLegGoal) attempt.id)
        (placedAttemptFiles running attempt)

/-- The files of the pursuit's own fields. -/
def pursuitFieldFiles (state : PursuitState) : List FieldFile :=
  ⟨"goal.md", state.ext.pursuit.goal⟩ ::
    if isPursuitEntityTerminal state.ext.pursuit.status then
      [⟨"outcome.md", composePursuitOutcome state⟩]
    else []

def placedFiles (state : PursuitState) : List (Place × ContextFile) :=
  placed .file (pursuitRef state) (pursuitFieldFiles state) ++
    state.ext.legs.flatMap fun leg => within (.leg leg.id) (placedLegFiles running leg)

def placedAttemptDirectories (attempt : Attempt) : List (AttemptPlace × ContextDirectory) :=
  (.directory, ⟨attemptRef running attempt, !attempt.isConsistentWithLegGoal⟩) ::
    attempt.workItems.map fun item =>
      (.item item.id .directory,
        ⟨itemRef running item, !attempt.isConsistentWithLegGoal⟩)

def placedLegDirectories (leg : Leg) : List (LegPlace × ContextDirectory) :=
  (.directory, ⟨legRef leg, false⟩) ::
    leg.attempts.flatMap fun attempt =>
      (if !attempt.isConsistentWithLegGoal then [(.superseded, ⟨legRef leg, true⟩)] else []) ++
        within (.attempt (!attempt.isConsistentWithLegGoal) attempt.id)
          (placedAttemptDirectories running attempt)

def placedDirectories (state : PursuitState) : List (Place × ContextDirectory) :=
  (.directory, ⟨pursuitRef state, false⟩) ::
    state.ext.legs.flatMap fun leg => within (.leg leg.id) (placedLegDirectories running leg)

/-- Entries under the paths of their places. -/
def keyed {E : Type} (entries : List (Place × E)) : List (String × E) :=
  entries.map fun entry => (String.ofList entry.1.path, entry.2)

end Placed

section Keyed

variable {running : RunningMetadata}

/-- A place in a leg. -/
theorem path_leg (leg : Leg) (place : LegPlace) :
    String.ofList (Place.leg leg.id place).path =
      legDirName leg.id ++ String.ofList place.suffix := by
  apply String.toList_inj.mp
  unfold legDirName
  simp [Place.path]

/-- A place in an attempt. -/
theorem path_attempt (leg : Leg) (attempt : Attempt) (place : AttemptPlace) :
    String.ofList (Place.leg leg.id
      (.attempt (!attempt.isConsistentWithLegGoal) attempt.id place)).path =
        attemptDirPath leg attempt ++ String.ofList place.suffix := by
  apply String.toList_inj.mp
  unfold attemptDirPath legDirName
  cases attempt.isConsistentWithLegGoal <;> simp [Place.path, LegPlace.suffix]

theorem keyed_append {E : Type} (xs ys : List (Place × E)) :
    keyed (xs ++ ys) = keyed xs ++ keyed ys :=
  List.map_append

theorem keyed_flatMap {A E : Type} (xs : List A) (f : A → List (Place × E)) :
    keyed (xs.flatMap f) = xs.flatMap fun x => keyed (f x) :=
  List.map_flatMap

theorem within_append {P Q E : Type} (f : P → Q) (xs ys : List (P × E)) :
    within f (xs ++ ys) = within f xs ++ within f ys :=
  List.map_append

theorem within_flatMap {A P Q E : Type} (f : P → Q) (xs : List A) (g : A → List (P × E)) :
    within f (xs.flatMap g) = xs.flatMap fun x => within f (g x) :=
  List.map_flatMap

theorem keyed_legFiles (leg : Leg) (owner : ContextOwner) (files : List FieldFile) :
    keyed (within (.leg leg.id) (placed .file owner files)) =
      filesIn (legDirName leg.id) owner files := by
  simp only [keyed, within, placed, filesIn, List.map_map]
  refine List.map_congr_left fun file _ => Prod.ext ?_ rfl
  refine (path_leg leg (.file file.name)).trans ?_
  apply String.toList_inj.mp
  simp [LegPlace.suffix]

theorem keyed_attemptFiles (leg : Leg) (attempt : Attempt) (owner : ContextOwner)
    (files : List FieldFile) :
    keyed (within (.leg leg.id) (within
      (.attempt (!attempt.isConsistentWithLegGoal) attempt.id) (placed .file owner files))) =
        filesIn (attemptDirPath leg attempt) owner files := by
  simp only [keyed, within, placed, filesIn, List.map_map]
  refine List.map_congr_left fun file _ => Prod.ext ?_ rfl
  refine (path_attempt leg attempt (.file file.name)).trans ?_
  apply String.toList_inj.mp
  simp [AttemptPlace.suffix]

theorem keyed_itemFiles (leg : Leg) (attempt : Attempt) (item : WorkItem) (owner : ContextOwner)
    (files : List FieldFile) :
    keyed (within (.leg leg.id) (within
      (.attempt (!attempt.isConsistentWithLegGoal) attempt.id)
      (within (.item item.id) (placed .file owner files)))) =
        filesIn (itemDir leg attempt item) owner files := by
  simp only [keyed, within, placed, filesIn, List.map_map]
  refine List.map_congr_left fun file _ => Prod.ext ?_ rfl
  refine (path_attempt leg attempt (.item item.id (.file file.name))).trans ?_
  apply String.toList_inj.mp
  simp [AttemptPlace.suffix, ItemPlace.suffix, itemDir]

/-- The source writes every file under the path of its place. -/
theorem fileWrites_eq (state : PursuitState) :
    fileWrites state running = keyed (placedFiles running state) := by
  unfold fileWrites placedFiles
  rw [keyed_append, keyed_flatMap]
  congr 1
  · unfold pursuitFieldFiles
    split <;> simp [keyed, placed, Place.path]
  · refine List.flatMap_congr fun leg _ => ?_
    unfold legFiles placedLegFiles
    rw [within_append, keyed_append, keyed_legFiles, within_flatMap, keyed_flatMap]
    congr 1
    refine List.flatMap_congr fun attempt _ => ?_
    unfold attemptFiles placedAttemptFiles
    rw [within_append, within_append, keyed_append, keyed_attemptFiles, within_flatMap,
      within_flatMap, keyed_flatMap]
    refine congrArg₂ (· ++ ·) ?_ ?_
    · unfold attemptOwnFiles
      split
      · rw [List.append_nil, List.append_nil]
      · exact List.map_append.symm
    · exact List.flatMap_congr fun item _ => (keyed_itemFiles ..).symm

/-- The source writes every directory under the path of its place. -/
theorem directoryWrites_eq (state : PursuitState) :
    directoryWrites state running = keyed (placedDirectories running state) := by
  have hitem : ∀ (leg : Leg) (attempt : Attempt) (item : WorkItem),
      String.ofList (Place.leg leg.id (.attempt (!attempt.isConsistentWithLegGoal) attempt.id
        (.item item.id .directory))).path = itemDir leg attempt item := by
    intro leg attempt item
    refine (path_attempt leg attempt (.item item.id .directory)).trans ?_
    apply String.toList_inj.mp
    simp [AttemptPlace.suffix, ItemPlace.suffix, itemDir]
  have hattempt : ∀ (leg : Leg) (attempt : Attempt),
      String.ofList (Place.leg leg.id (.attempt (!attempt.isConsistentWithLegGoal) attempt.id
        .directory)).path = attemptDirPath leg attempt := by
    intro leg attempt
    refine (path_attempt leg attempt .directory).trans ?_
    apply String.toList_inj.mp
    simp [AttemptPlace.suffix]
  have hleg : ∀ leg : Leg, String.ofList (Place.leg leg.id .directory).path =
      legDirName leg.id := by
    intro leg
    refine (path_leg leg .directory).trans ?_
    apply String.toList_inj.mp
    simp [LegPlace.suffix]
  have hsuperseded : ∀ leg : Leg, String.ofList (Place.leg leg.id .superseded).path =
      legDirName leg.id ++ "/superseded" := by
    intro leg
    refine (path_leg leg .superseded).trans ?_
    apply String.toList_inj.mp
    simp [LegPlace.suffix]
  unfold directoryWrites placedDirectories
  show _ = (_, _) :: keyed _
  rw [keyed_flatMap]
  congr 1
  refine List.flatMap_congr fun leg _ => ?_
  unfold legDirectories placedLegDirectories
  show _ = (_, _) :: keyed (within _ _)
  rw [within_flatMap, keyed_flatMap]
  congr 1
  · exact Prod.ext (hleg leg).symm rfl
  · refine List.flatMap_congr fun attempt _ => ?_
    unfold attemptDirectories placedAttemptDirectories
    rw [within_append, keyed_append]
    refine congrArg₂ (· ++ ·) ?_ ?_
    · split
      · exact congrArg (fun path => [(path, _)]) (hsuperseded leg).symm
      · rfl
    · simp only [within, keyed, List.map_cons, List.map_map]
      refine congrArg₂ List.cons (Prod.ext (hattempt leg attempt).symm rfl) ?_
      exact List.map_congr_left fun item _ => Prod.ext (hitem leg attempt item).symm rfl

end Keyed

/-! ## Names of files -/

theorem fieldFile_names (name : String) (content : Option String) :
    ((fieldFile name content).map (·.name)).Sublist [name] := by
  cases content with
  | none => exact List.nil_sublist _
  | some content => exact List.Sublist.refl _

theorem pursuitFieldFiles_names (state : PursuitState) :
    ((pursuitFieldFiles state).map (·.name)).Sublist ["goal.md", "outcome.md"] := by
  unfold pursuitFieldFiles
  split
  · exact List.Sublist.refl _
  · simp

theorem legFieldFiles_names (leg : Leg) :
    ((legFieldFiles leg).map (·.name)).Sublist ["leg_goal.md", "next_leg_goal.md", "outcome.md"] := by
  unfold legFieldFiles
  rw [List.cons_append, List.map_cons, List.map_append]
  refine List.Sublist.cons_cons _ (List.Sublist.append (fieldFile_names _ _) ?_)
  split
  · exact List.Sublist.refl _
  · exact List.nil_sublist _

theorem attemptOwnFiles_names (attempt : Attempt) :
    ((attemptOwnFiles attempt).map (·.name)).Sublist
      ["plan_summary.md", "failure_reasons.md", "outcome.md", "leg_goal.md",
        "next_leg_goal.md"] := by
  have hreasons : ((if attempt.status = .failed ∧ attempt.failureReasons.length > 0 then
      [FieldFile.mk "failure_reasons.md" (String.intercalate "\n"
        (attempt.failureReasons.map fun reason => "- " ++ formatAttemptFailureReason reason))]
      else []).map (·.name)).Sublist ["failure_reasons.md"] := by
    split
    · exact List.Sublist.refl _
    · exact List.nil_sublist _
  have houtcome : ((if attempt.status = .success ∨ attempt.status = .failed then
      [FieldFile.mk "outcome.md" (composeAttemptOutcome attempt)]
      else []).map (·.name)).Sublist ["outcome.md"] := by
    split
    · exact List.Sublist.refl _
    · exact List.nil_sublist _
  have hdeclared : ((if attempt.isConsistentWithLegGoal then []
      else supersededDeclarationFiles attempt).map (·.name)).Sublist
        ["leg_goal.md", "next_leg_goal.md"] := by
    split
    · exact List.nil_sublist _
    · unfold supersededDeclarationFiles
      rw [List.map_append]
      exact (fieldFile_names _ _).append (fieldFile_names _ _)
  unfold attemptOwnFiles attemptFieldFiles
  rw [List.map_append, List.map_append, List.map_append]
  exact (((fieldFile_names _ _).append hreasons).append houtcome).append hdeclared

theorem workItemFieldFiles_names (item : WorkItem) :
    ((workItemFieldFiles item).map (·.name)).Sublist
      ["title.md", "spec.md", "summary.md", "outcome.md"] := by
  have hfixed : ([FieldFile.mk "title.md" item.title, ⟨"spec.md", item.spec⟩].map
      (·.name)).Sublist ["title.md", "spec.md"] := List.Sublist.refl _
  unfold workItemFieldFiles
  rw [List.map_append, List.map_append]
  exact (hfixed.append (fieldFile_names _ _)).append (fieldFile_names _ _)

/-! ## States with plain ids -/

/-- Its items have ids of their own; they may contain anything. -/
structure Attempt.Addressed (attempt : Attempt) : Prop where
  plain : '/' ∉ attempt.id.toList
  items : (attempt.workItems.map (·.id)).Nodup

structure Leg.Addressed (leg : Leg) : Prop where
  plain : '/' ∉ leg.id.toList
  nodup : (leg.attempts.map (·.id)).Nodup
  attempts : ∀ attempt ∈ leg.attempts, attempt.Addressed

/-- Legs and attempts have ids of their own, without separators. -/
structure Addressed (state : PursuitState) : Prop where
  nodup : (state.ext.legs.map (·.id)).Nodup
  legs : ∀ leg ∈ state.ext.legs, leg.Addressed

section Levels

variable {X P Q E : Type}

theorem places_within (f : P → Q) (entries : List (P × E)) :
    (within f entries).map (·.1) = (entries.map (·.1)).map f := by
  simp [within, Function.comp_def]

theorem places_placed (place : String → P) (owner : ContextOwner) (files : List FieldFile) :
    (placed place owner files).map (·.1) = (files.map (·.name)).map place := by
  simp [placed, Function.comp_def]

/-- Records with keys of their own contribute different elements. -/
theorem nodup_flatMap_of_key {xs : List X} {key : X → String} {f : X → List P}
    (hxs : (xs.map key).Nodup) (hf : ∀ x ∈ xs, (f x).Nodup)
    (hkey : ∀ x ∈ xs, ∀ y ∈ xs, ∀ p ∈ f x, p ∈ f y → key x = key y) : (xs.flatMap f).Nodup := by
  refine List.nodup_flatMap.mpr ⟨hf, ?_⟩
  have hpairs : xs.Pairwise fun x y => key x ≠ key y := List.pairwise_map.mp hxs
  refine hpairs.imp_of_mem fun hx hy hne => ?_
  intro p hp hp'
  exact hne (hkey _ hx _ hy p hp hp')

/-- Own places, and places one level down. -/
theorem nodup_level {own : List P} {xs : List X} {key : X → String} {f : X → Q → P}
    {places : X → List Q} (hown : own.Nodup) (hxs : (xs.map key).Nodup)
    (hplaces : ∀ x ∈ xs, (places x).Nodup)
    (hf : ∀ x y p q, f x p = f y q → key x = key y ∧ p = q)
    (hnew : ∀ x p, f x p ∉ own) :
    (own ++ xs.flatMap fun x => (places x).map (f x)).Nodup := by
  refine List.Nodup.append hown (nodup_flatMap_of_key hxs (fun x hx => ?_) ?_) ?_
  · exact (hplaces x hx).map fun p q heq => (hf x x p q heq).2
  · intro x _ y _ p hp hp'
    obtain ⟨q, -, rfl⟩ := List.mem_map.mp hp
    obtain ⟨q', -, heq⟩ := List.mem_map.mp hp'
    exact (hf y x q' q heq).1.symm
  · intro p hp hmem
    obtain ⟨x, -, hx⟩ := List.mem_flatMap.mp hmem
    obtain ⟨q, -, rfl⟩ := List.mem_map.mp hx
    exact hnew x q hp

end Levels

/-! ## Every file has a place of its own -/

section Files

variable {running : RunningMetadata}

theorem map_placed_append {A P Q : Type} {own : List (P × ContextFile)} {xs : List A}
    {f : A → Q → P} {g : A → List (Q × ContextFile)} :
    (own ++ xs.flatMap fun x => within (f x) (g x)).map (·.1) =
      own.map (·.1) ++ xs.flatMap fun x => ((g x).map (·.1)).map (f x) := by
  rw [List.map_append, List.map_flatMap]
  refine congrArg (own.map (·.1) ++ ·) (List.flatMap_congr fun x _ => ?_)
  exact places_within (f x) (g x)

theorem nodup_placedItemFiles (item : WorkItem) :
    ((placedItemFiles running item).map (·.1)).Nodup := by
  unfold placedItemFiles
  rw [places_placed]
  refine List.Nodup.map (fun _ _ h => ItemPlace.file.inj h) ?_
  exact List.Nodup.sublist (workItemFieldFiles_names item) (by decide)

theorem nodup_placedAttemptFiles {attempt : Attempt} (h : attempt.Addressed) :
    ((placedAttemptFiles running attempt).map (·.1)).Nodup := by
  unfold placedAttemptFiles
  rw [map_placed_append, places_placed]
  refine nodup_level ?_ h.items (fun item _ => nodup_placedItemFiles item)
    (fun i j p q heq => AttemptPlace.item.inj heq) fun item p hmem => ?_
  · refine List.Nodup.map (fun _ _ h => AttemptPlace.file.inj h) ?_
    exact List.Nodup.sublist (attemptOwnFiles_names attempt) (by decide)
  · obtain ⟨name, -, heq⟩ := List.mem_map.mp hmem
    cases heq

theorem nodup_placedLegFiles {leg : Leg} (h : leg.Addressed) :
    ((placedLegFiles running leg).map (·.1)).Nodup := by
  unfold placedLegFiles
  rw [map_placed_append, places_placed]
  refine nodup_level ?_ h.nodup (fun attempt hattempt =>
    nodup_placedAttemptFiles (h.attempts attempt hattempt)) (fun a b p q heq => ?_)
    fun attempt p hmem => ?_
  · refine List.Nodup.map (fun _ _ h => LegPlace.file.inj h) ?_
    exact List.Nodup.sublist (legFieldFiles_names leg) (by decide)
  · obtain ⟨-, hid, hplace⟩ := LegPlace.attempt.inj heq
    exact ⟨hid, hplace⟩
  · obtain ⟨name, -, heq⟩ := List.mem_map.mp hmem
    cases heq

theorem nodup_placedFiles {state : PursuitState} (h : Addressed state) :
    ((placedFiles running state).map (·.1)).Nodup := by
  unfold placedFiles
  rw [map_placed_append, places_placed]
  refine nodup_level ?_ h.nodup (fun leg hleg => nodup_placedLegFiles (h.legs leg hleg))
    (fun a b p q heq => Place.leg.inj heq) fun leg p hmem => ?_
  · refine List.Nodup.map (fun _ _ h => Place.file.inj h) ?_
    exact List.Nodup.sublist (pursuitFieldFiles_names state) (by decide)
  · obtain ⟨name, -, heq⟩ := List.mem_map.mp hmem
    cases heq

theorem mem_within {P Q E : Type} {f : P → Q} {entries : List (P × E)} {e : Q × E} :
    e ∈ within f entries ↔ ∃ p, (p, e.2) ∈ entries ∧ e.1 = f p := by
  obtain ⟨q, value⟩ := e
  unfold within
  rw [List.mem_map]
  constructor
  · rintro ⟨⟨p, value'⟩, hmem, heq⟩
    obtain ⟨rfl, rfl⟩ := Prod.mk.inj heq
    exact ⟨p, hmem, rfl⟩
  · rintro ⟨p, hmem, rfl⟩
    exact ⟨(p, value), hmem, rfl⟩

/-- The places of one owner's files. -/
theorem exists_of_mem_placed {P : Type} {place : String → P} {owner : ContextOwner}
    {files : List FieldFile} {e : P × ContextFile} (h : e ∈ placed place owner files) :
    ∃ file ∈ files, e.1 = place file.name := by
  obtain ⟨file, hfile, rfl⟩ := List.mem_map.mp h
  exact ⟨file, hfile, rfl⟩

/-- A file stands at a proper place for a file. -/
theorem proper_placedFiles {state : PursuitState} (h : Addressed state)
    {e : Place × ContextFile} (he : e ∈ placedFiles running state) : e.1.Proper ∧ e.1.IsFile := by
  have hpursuit : ∀ name ∈ ["goal.md", "outcome.md"], (Place.file name).Proper := by
    unfold Place.Proper
    decide
  have hleg : ∀ name ∈ ["leg_goal.md", "next_leg_goal.md", "outcome.md"],
      (LegPlace.file name).Proper := by
    unfold LegPlace.Proper
    decide
  have hattempt : ∀ name ∈ ["plan_summary.md", "failure_reasons.md", "outcome.md", "leg_goal.md",
      "next_leg_goal.md"], (AttemptPlace.file name).Proper := by
    unfold AttemptPlace.Proper
    decide
  have hitem : ∀ name ∈ ["title.md", "spec.md", "summary.md", "outcome.md"],
      (ItemPlace.file name).Proper := by
    unfold ItemPlace.Proper
    decide
  rcases List.mem_append.mp he with he | he
  · obtain ⟨file, hfile, heq⟩ := exists_of_mem_placed he
    rw [heq]
    exact ⟨hpursuit _ ((pursuitFieldFiles_names state).subset (List.mem_map_of_mem hfile)), trivial⟩
  obtain ⟨leg, hmem, he⟩ := List.mem_flatMap.mp he
  have haddressed := h.legs leg hmem
  obtain ⟨p, he, heq⟩ := mem_within.mp he
  rw [heq]
  rcases List.mem_append.mp he with he | he
  · obtain ⟨file, hfile, rfl⟩ := exists_of_mem_placed he
    have hname := hleg _ ((legFieldFiles_names leg).subset (List.mem_map_of_mem hfile))
    exact ⟨⟨haddressed.plain, hname⟩, trivial⟩
  obtain ⟨attempt, hmem, he⟩ := List.mem_flatMap.mp he
  have hplain := (haddressed.attempts attempt hmem).plain
  obtain ⟨q, he, rfl⟩ := mem_within.mp he
  rcases List.mem_append.mp he with he | he
  · obtain ⟨file, hfile, rfl⟩ := exists_of_mem_placed he
    have hname := hattempt _ ((attemptOwnFiles_names attempt).subset (List.mem_map_of_mem hfile))
    exact ⟨⟨haddressed.plain, hplain, hname⟩, trivial⟩
  obtain ⟨item, -, he⟩ := List.mem_flatMap.mp he
  obtain ⟨r, he, rfl⟩ := mem_within.mp he
  obtain ⟨file, hfile, rfl⟩ := exists_of_mem_placed he
  have hname := hitem _ ((workItemFieldFiles_names item).subset (List.mem_map_of_mem hfile))
  exact ⟨⟨haddressed.plain, hplain, hname⟩, trivial⟩

theorem ofList_inj {a b : List Char} (h : String.ofList a = String.ofList b) : a = b := by
  have hlist := congrArg String.toList h
  rwa [String.toList_ofList, String.toList_ofList] at hlist

/-- **No file overwrites another.** -/
theorem nodup_fileWrites {state : PursuitState} (h : Addressed state) :
    ((fileWrites state running).map (·.1)).Nodup := by
  have hkeys : (keyed (placedFiles running state)).map (·.1) =
      ((placedFiles running state).map (·.1)).map fun place => String.ofList place.path := by
    simp [keyed, Function.comp_def]
  rw [fileWrites_eq, hkeys]
  refine List.Nodup.map_on (fun p hp q hq heq => ?_) (nodup_placedFiles h)
  obtain ⟨e, he, rfl⟩ := List.mem_map.mp hp
  obtain ⟨e', he', rfl⟩ := List.mem_map.mp hq
  obtain ⟨hproper, hfile⟩ := proper_placedFiles h he
  obtain ⟨hproper', hfile'⟩ := proper_placedFiles h he'
  rcases Place.path_inj hproper hproper' (ofList_inj heq) with heq | himitates | himitates
  · exact heq
  · exact absurd hfile himitates.isFile.1
  · exact absurd hfile' himitates.isFile.1

end Files

/-! ## Directories -/

section Agreeing

variable {P Q E X : Type} {entries more : List (P × E)}

theorem agreeing_of_nodup (h : (entries.map (·.1)).Nodup) : Agreeing entries :=
  fun _ he _ he' heq => List.inj_on_of_nodup_map h he he' heq

theorem agreeing_cons {entry : P × E} (h : Agreeing entries)
    (hnew : ∀ e ∈ entries, e.1 ≠ entry.1) : Agreeing (entry :: entries) := by
  intro e he e' he' heq
  rcases List.mem_cons.mp he with hfirst | hmem <;>
    rcases List.mem_cons.mp he' with hfirst' | hmem'
  · rw [hfirst, hfirst']
  · exact absurd (hfirst ▸ heq.symm) (hnew e' hmem')
  · exact absurd (hfirst' ▸ heq) (hnew e hmem)
  · exact h e hmem e' hmem' heq

theorem agreeing_within {f : P → Q} (h : Agreeing entries) (hf : Function.Injective f) :
    Agreeing (within f entries) := by
  intro e he e' he' heq
  obtain ⟨p, he, hp⟩ := mem_within.mp he
  obtain ⟨p', he', hp'⟩ := mem_within.mp he'
  rw [hp, hp'] at heq
  have hvalue := (Prod.mk.inj (h _ he _ he' (hf heq))).2
  exact Prod.ext (by rw [hp, hp', hf heq]) hvalue

/-- Entries of records with keys of their own, which meet within one record only. -/
theorem agreeing_flatMap {xs : List X} {key : X → String} {f : X → List (P × E)}
    (hxs : (xs.map key).Nodup) (hf : ∀ x ∈ xs, Agreeing (f x))
    (hkey : ∀ x y, ∀ e ∈ f x, ∀ e' ∈ f y, e.1 = e'.1 → key x = key y ∨ e = e') :
    Agreeing (xs.flatMap f) := by
  intro e he e' he' heq
  obtain ⟨x, hx, he⟩ := List.mem_flatMap.mp he
  obtain ⟨y, hy, he'⟩ := List.mem_flatMap.mp he'
  rcases hkey x y e he e' he' heq with hsame | hsame
  · obtain rfl := List.inj_on_of_nodup_map hxs hx hy hsame
    exact hf x hx e he e' he' heq
  · exact hsame

end Agreeing

section Directories

variable {running : RunningMetadata}

theorem agreeing_placedAttemptDirectories {attempt : Attempt} (h : attempt.Addressed) :
    Agreeing (placedAttemptDirectories running attempt) := by
  refine agreeing_of_nodup ?_
  unfold placedAttemptDirectories
  rw [List.map_cons, List.map_map]
  refine List.nodup_cons.mpr ⟨by simp, ?_⟩
  have hitems := h.items.map (f := fun id => AttemptPlace.item id .directory)
    fun _ _ heq => (AttemptPlace.item.inj heq).1
  rwa [List.map_map] at hitems

/-- What the leg writes for one attempt. -/
theorem mem_attempt_cases {leg : Leg} {attempt : Attempt} {e : LegPlace × ContextDirectory}
    (he : e ∈ (if !attempt.isConsistentWithLegGoal then
        [(LegPlace.superseded, ContextDirectory.mk (legRef leg) true)] else []) ++
      within (.attempt (!attempt.isConsistentWithLegGoal) attempt.id)
        (placedAttemptDirectories running attempt)) :
    e = (.superseded, ⟨legRef leg, true⟩) ∨
      ∃ place, (place, e.2) ∈ placedAttemptDirectories running attempt ∧
        e.1 = .attempt (!attempt.isConsistentWithLegGoal) attempt.id place := by
  rcases List.mem_append.mp he with he | he
  · split at he
    · exact .inl (List.mem_singleton.mp he)
    · cases he
  · exact .inr (mem_within.mp he)

theorem agreeing_placedLegDirectories {leg : Leg} (h : leg.Addressed) :
    Agreeing (placedLegDirectories running leg) := by
  unfold placedLegDirectories
  refine agreeing_cons (agreeing_flatMap h.nodup (fun attempt hattempt => ?_) ?_) fun e he heq => ?_
  · intro e he e' he' heq
    have hattemptAgrees : Agreeing (placedAttemptDirectories running attempt) :=
      agreeing_placedAttemptDirectories (h.attempts attempt hattempt)
    have hagree : Agreeing (within (LegPlace.attempt (!attempt.isConsistentWithLegGoal) attempt.id)
        (placedAttemptDirectories running attempt)) :=
      agreeing_within hattemptAgrees fun _ _ heq => (LegPlace.attempt.inj heq).2.2
    rcases mem_attempt_cases he with rfl | ⟨p, hp, hplace⟩ <;>
      rcases mem_attempt_cases he' with rfl | ⟨p', hp', hplace'⟩
    · rfl
    · rw [hplace'] at heq
      cases heq
    · rw [hplace] at heq
      cases heq
    · exact hagree e (mem_within.mpr ⟨p, hp, hplace⟩) e' (mem_within.mpr ⟨p', hp', hplace'⟩) heq
  · -- attempts meet in the directory of the superseded ones, where they write the same
    intro attempt other e he e' he' heq
    rcases mem_attempt_cases he with rfl | ⟨p, -, hplace⟩ <;>
      rcases mem_attempt_cases he' with rfl | ⟨p', -, hplace'⟩
    · exact .inr rfl
    · rw [hplace'] at heq
      cases heq
    · rw [hplace] at heq
      cases heq
    · rw [hplace, hplace'] at heq
      exact .inl (LegPlace.attempt.inj heq).2.1
  · obtain ⟨attempt, -, he⟩ := List.mem_flatMap.mp he
    rcases mem_attempt_cases he with rfl | ⟨p, -, hplace⟩
    · cases heq
    · rw [hplace] at heq
      cases heq

theorem agreeing_placedDirectories {state : PursuitState} (h : Addressed state) :
    Agreeing (placedDirectories running state) := by
  unfold placedDirectories
  refine agreeing_cons (agreeing_flatMap h.nodup (fun leg hleg => ?_) ?_) fun e he heq => ?_
  · exact agreeing_within (agreeing_placedLegDirectories (h.legs leg hleg))
      fun _ _ heq => (Place.leg.inj heq).2
  · intro leg other e he e' he' heq
    obtain ⟨p, -, hplace⟩ := mem_within.mp he
    obtain ⟨p', -, hplace'⟩ := mem_within.mp he'
    rw [hplace, hplace'] at heq
    exact .inl (Place.leg.inj heq).1
  · obtain ⟨leg, -, he⟩ := List.mem_flatMap.mp he
    obtain ⟨p, -, hplace⟩ := mem_within.mp he
    rw [hplace] at heq
    cases heq

/-- A directory stands at a proper place for a directory. -/
theorem proper_placedDirectories {state : PursuitState} (h : Addressed state)
    {e : Place × ContextDirectory} (he : e ∈ placedDirectories running state) :
    e.1.Proper ∧ ¬ e.1.IsFile := by
  rcases List.mem_cons.mp he with rfl | he
  · exact ⟨trivial, id⟩
  obtain ⟨leg, hmem, he⟩ := List.mem_flatMap.mp he
  have haddressed := h.legs leg hmem
  obtain ⟨p, he, heq⟩ := mem_within.mp he
  rw [heq]
  rcases List.mem_cons.mp he with hp | he
  · obtain ⟨rfl, -⟩ := Prod.mk.inj hp
    exact ⟨⟨haddressed.plain, trivial⟩, id⟩
  obtain ⟨attempt, hmem, he⟩ := List.mem_flatMap.mp he
  have hplain := (haddressed.attempts attempt hmem).plain
  rcases mem_attempt_cases he with hp | ⟨q, hq, hplace⟩
  · obtain ⟨rfl, -⟩ := Prod.mk.inj hp
    exact ⟨⟨haddressed.plain, trivial⟩, id⟩
  · obtain rfl : p = _ := hplace
    rcases List.mem_cons.mp hq with hq | hq
    · obtain ⟨rfl, -⟩ := Prod.mk.inj hq
      exact ⟨⟨haddressed.plain, hplain, trivial⟩, id⟩
    · obtain ⟨item, -, hq⟩ := List.mem_map.mp hq
      obtain ⟨rfl, -⟩ := Prod.mk.inj hq
      exact ⟨⟨haddressed.plain, hplain, trivial⟩, id⟩

/-- **No directory overwrites another with something else.** -/
theorem agreeing_directoryWrites {state : PursuitState} (h : Addressed state) :
    Agreeing (directoryWrites state running) := by
  rw [directoryWrites_eq]
  intro e he e' he' heq
  obtain ⟨d, hd, rfl⟩ := List.mem_map.mp he
  obtain ⟨d', hd', rfl⟩ := List.mem_map.mp he'
  obtain ⟨hproper, hfile⟩ := proper_placedDirectories h hd
  obtain ⟨hproper', hfile'⟩ := proper_placedDirectories h hd'
  rcases Place.path_inj hproper hproper' (ofList_inj heq) with hplace | himitates | himitates
  · rw [agreeing_placedDirectories h d hd d' hd' hplace]
  · exact absurd himitates.isFile.2 hfile'
  · exact absurd himitates.isFile.2 hfile

end Directories

/-! ## Rows -/

section Rows

theorem rowPath_directoryRow (root : String) (entry : String × ContextDirectory) :
    rowPath (directoryRow root entry) =
      if entry.1 = "" then root else root ++ "/" ++ entry.1 := by
  unfold rowPath directoryRow
  simp [Json.stringField, Json.field, Json.asString, List.lookup_cons]

theorem rowPath_fileRow (root : String) (entry : String × ContextFile) :
    rowPath (fileRow root entry) = root ++ "/" ++ entry.1 := by
  unfold rowPath fileRow
  simp [Json.stringField, Json.field, Json.asString, List.lookup_cons]

/-- The sort moves rows only. -/
theorem listContextRows_perm (locale : Locale) (context : PursuitContext) :
    (listContextRows locale context).Perm
      (context.directories.map (directoryRow context.rootPath) ++
        context.files.map (fileRow context.rootPath)) :=
  List.mergeSort_perm _ _

theorem slash_append_inj {root a b : String} (h : root ++ "/" ++ a = root ++ "/" ++ b) : a = b :=
  append_right_inj h

theorem root_ne (root path : String) : root ≠ root ++ "/" ++ path := by
  intro h
  have hlength := congrArg String.length h
  rw [String.length_append, String.length_append] at hlength
  have hslash : "/".length = 1 := by decide
  omega

theorem rowPath_directoryRow_inj {root : String} {d d' : String × ContextDirectory}
    (h : rowPath (directoryRow root d) = rowPath (directoryRow root d')) : d.1 = d'.1 := by
  rw [rowPath_directoryRow, rowPath_directoryRow] at h
  by_cases hd : d.1 = "" <;> by_cases hd' : d'.1 = ""
  · rw [hd, hd']
  · rw [if_pos hd, if_neg hd'] at h
    exact absurd h (root_ne root d'.1)
  · rw [if_neg hd, if_pos hd'] at h
    exact absurd h.symm (root_ne root d.1)
  · rw [if_neg hd, if_neg hd'] at h
    exact slash_append_inj h

/-- A directory and a file have one row path only when they have one key. -/
theorem rowPath_eq_iff {root : String} {d : String × ContextDirectory} {f : String × ContextFile}
    (hf : f.1 ≠ "") : rowPath (directoryRow root d) = rowPath (fileRow root f) ↔ d.1 = f.1 := by
  rw [rowPath_directoryRow, rowPath_fileRow]
  by_cases hd : d.1 = ""
  · rw [if_pos hd, hd]
    exact iff_of_false (root_ne root f.1) hf.symm
  · rw [if_neg hd]
    exact ⟨slash_append_inj, fun h => by rw [h]⟩

/-- All rows have paths of their own when no directory has the key of a file. -/
theorem nodup_rowPaths_iff {locale : Locale} {context : PursuitContext}
    (hdirectories : (context.directories.map (·.1)).Nodup)
    (hfiles : (context.files.map (·.1)).Nodup) (hnames : ∀ f ∈ context.files, f.1 ≠ "") :
    ((listContextRows locale context).map rowPath).Nodup ↔
      ∀ d ∈ context.directories, ∀ f ∈ context.files, d.1 ≠ f.1 := by
  rw [((listContextRows_perm locale context).map rowPath).nodup_iff, List.map_append,
    List.map_map, List.map_map, List.nodup_append]
  constructor
  · rintro ⟨-, -, hdisjoint⟩ d hd f hf heq
    exact hdisjoint _ (List.mem_map_of_mem hd) _ (List.mem_map_of_mem hf)
      ((rowPath_eq_iff (hnames f hf)).mpr heq)
  · intro hne
    refine ⟨?_, ?_, ?_⟩
    · refine List.Nodup.map_on (fun d hd d' hd' heq => ?_) hdirectories.of_map
      exact List.inj_on_of_nodup_map hdirectories hd hd' (rowPath_directoryRow_inj heq)
    · refine List.Nodup.map_on (fun f hf f' hf' heq => ?_) hfiles.of_map
      refine List.inj_on_of_nodup_map hfiles hf hf' ?_
      simp only [Function.comp_apply, rowPath_fileRow] at heq
      exact slash_append_inj heq
    · intro path hpath path' hpath' heq
      obtain ⟨d, hd, rfl⟩ := List.mem_map.mp hpath
      obtain ⟨f, hf, rfl⟩ := List.mem_map.mp hpath'
      exact hne d hd f hf ((rowPath_eq_iff (hnames f hf)).mp heq)

end Rows

/-! ## Ids that imitate files -/

/-- No work item has the path of a file of a work item in its attempt for an id. -/
def NoImitation (state : PursuitState) : Prop :=
  ∀ leg ∈ state.ext.legs, ∀ attempt ∈ leg.attempts, ∀ item ∈ attempt.workItems,
    ∀ other ∈ attempt.workItems, ∀ file ∈ workItemFieldFiles other,
      item.id ≠ other.id ++ "/" ++ file.name

section Imitation

variable {running : RunningMetadata} {state : PursuitState}

theorem exists_of_item_directory {legId attemptId itemId : String} {old : Bool}
    {value : ContextDirectory}
    (h : (Place.leg legId (.attempt old attemptId (.item itemId .directory)), value) ∈
      placedDirectories running state) :
    ∃ leg ∈ state.ext.legs, leg.id = legId ∧ ∃ attempt ∈ leg.attempts, attempt.id = attemptId ∧
      ∃ item ∈ attempt.workItems, item.id = itemId := by
  rcases List.mem_cons.mp h with h | h
  · cases h
  obtain ⟨leg, hleg, h⟩ := List.mem_flatMap.mp h
  obtain ⟨p, hp, heq⟩ := mem_within.mp h
  obtain ⟨hlegId, rfl⟩ := Place.leg.inj heq
  rcases List.mem_cons.mp hp with hp | hp
  · cases hp
  obtain ⟨attempt, hattempt, hp⟩ := List.mem_flatMap.mp hp
  rcases mem_attempt_cases hp with hp | ⟨q, hq, heq⟩
  · cases hp
  obtain ⟨-, hattemptId, rfl⟩ := LegPlace.attempt.inj heq
  rcases List.mem_cons.mp hq with hq | hq
  · cases hq
  obtain ⟨item, hitem, heq⟩ := List.mem_map.mp hq
  exact ⟨leg, hleg, hlegId.symm, attempt, hattempt, hattemptId.symm, item, hitem,
    (AttemptPlace.item.inj (Prod.mk.inj heq).1).1⟩

theorem exists_of_item_file {legId attemptId itemId name : String} {old : Bool}
    {value : ContextFile}
    (h : (Place.leg legId (.attempt old attemptId (.item itemId (.file name))), value) ∈
      placedFiles running state) :
    ∃ leg ∈ state.ext.legs, leg.id = legId ∧ ∃ attempt ∈ leg.attempts, attempt.id = attemptId ∧
      ∃ item ∈ attempt.workItems, item.id = itemId ∧
        ∃ file ∈ workItemFieldFiles item, file.name = name := by
  rcases List.mem_append.mp h with h | h
  · obtain ⟨file, -, heq⟩ := exists_of_mem_placed h
    cases heq
  obtain ⟨leg, hleg, h⟩ := List.mem_flatMap.mp h
  obtain ⟨p, hp, heq⟩ := mem_within.mp h
  obtain ⟨hlegId, rfl⟩ := Place.leg.inj heq
  rcases List.mem_append.mp hp with hp | hp
  · obtain ⟨file, -, heq⟩ := exists_of_mem_placed hp
    cases heq
  obtain ⟨attempt, hattempt, hp⟩ := List.mem_flatMap.mp hp
  obtain ⟨q, hq, heq⟩ := mem_within.mp hp
  obtain ⟨-, hattemptId, rfl⟩ := LegPlace.attempt.inj heq
  rcases List.mem_append.mp hq with hq | hq
  · obtain ⟨file, -, heq⟩ := exists_of_mem_placed hq
    cases heq
  obtain ⟨item, hitem, hq⟩ := List.mem_flatMap.mp hq
  obtain ⟨r, hr, heq⟩ := mem_within.mp hq
  obtain ⟨hitemId, rfl⟩ := AttemptPlace.item.inj heq
  obtain ⟨file, hfile, heq⟩ := exists_of_mem_placed hr
  exact ⟨leg, hleg, hlegId.symm, attempt, hattempt, hattemptId.symm, item, hitem, hitemId.symm,
    file, hfile, (ItemPlace.file.inj heq).symm⟩

theorem itemDir_mem (running : RunningMetadata) {leg : Leg} {attempt : Attempt} {item : WorkItem}
    (hleg : leg ∈ state.ext.legs) (hattempt : attempt ∈ leg.attempts)
    (hitem : item ∈ attempt.workItems) :
    ∃ d ∈ directoryWrites state running, d.1 = itemDir leg attempt item := by
  refine ⟨(itemDir leg attempt item,
    ⟨itemRef running item, !attempt.isConsistentWithLegGoal⟩), ?_, rfl⟩
  refine List.mem_cons_of_mem _ (List.mem_flatMap.mpr ⟨leg, hleg, ?_⟩)
  refine List.mem_cons_of_mem _ (List.mem_flatMap.mpr ⟨attempt, hattempt, ?_⟩)
  refine List.mem_append_right _ (List.mem_cons_of_mem _ ?_)
  exact List.mem_map_of_mem hitem

theorem itemFile_mem (running : RunningMetadata) {leg : Leg} {attempt : Attempt}
    {item : WorkItem} {file : FieldFile}
    (hleg : leg ∈ state.ext.legs) (hattempt : attempt ∈ leg.attempts)
    (hitem : item ∈ attempt.workItems) (hfile : file ∈ workItemFieldFiles item) :
    ∃ f ∈ fileWrites state running, f.1 = itemDir leg attempt item ++ "/" ++ file.name := by
  refine ⟨(itemDir leg attempt item ++ "/" ++ file.name, ⟨itemRef running item, file.content⟩),
    ?_, rfl⟩
  refine List.mem_append_right _ (List.mem_flatMap.mpr ⟨leg, hleg, ?_⟩)
  refine List.mem_append_right _ (List.mem_flatMap.mpr ⟨attempt, hattempt, ?_⟩)
  refine List.mem_append_right _ (List.mem_flatMap.mpr ⟨item, hitem, ?_⟩)
  exact List.mem_map_of_mem hfile

/-- **A directory and a file are written under one key only when an id imitates a file.** -/
theorem keys_ne_iff (h : Addressed state) :
    (∀ d ∈ directoryWrites state running, ∀ f ∈ fileWrites state running, d.1 ≠ f.1) ↔
      NoImitation state := by
  constructor
  · intro hne leg hleg attempt hattempt item hitem other hother file hfile heq
    obtain ⟨d, hd, hkey⟩ := itemDir_mem running hleg hattempt hitem
    obtain ⟨f, hf, hkey'⟩ := itemFile_mem running hleg hattempt hother hfile
    refine hne d hd f hf ?_
    rw [hkey, hkey']
    unfold itemDir
    rw [heq]
    simp only [String.append_assoc]
  · intro hnone d hd f hf heq
    rw [directoryWrites_eq] at hd
    rw [fileWrites_eq] at hf
    obtain ⟨⟨p, value⟩, hp, rfl⟩ := List.mem_map.mp hd
    obtain ⟨⟨q, content⟩, hq, rfl⟩ := List.mem_map.mp hf
    obtain ⟨hproper, hdirectory⟩ := proper_placedDirectories h hp
    obtain ⟨hproper', hfile⟩ := proper_placedFiles h hq
    rcases Place.path_inj hproper hproper' (ofList_inj heq) with rfl | himitates | himitates
    · exact hdirectory hfile
    · obtain ⟨⟨⟨hid⟩⟩⟩ := himitates
      obtain ⟨leg, hleg, hlegId, attempt, hattempt, hattemptId, item, hitem, rfl⟩ :=
        exists_of_item_directory hp
      obtain ⟨leg', hleg', hlegId', attempt', hattempt', hattemptId', other, hother, rfl, file,
        hfield, rfl⟩ := exists_of_item_file hq
      -- both are items of one attempt, because ids are distinct
      obtain rfl : leg = leg' :=
        List.inj_on_of_nodup_map h.nodup hleg hleg' (hlegId.trans hlegId'.symm)
      obtain rfl : attempt = attempt' := List.inj_on_of_nodup_map (h.legs leg hleg).nodup
        hattempt hattempt' (hattemptId.trans hattemptId'.symm)
      refine hnone leg hleg attempt hattempt item hitem other hother file hfield ?_
      apply String.toList_inj.mp
      simpa using hid
    · exact hdirectory himitates.isFile.2

end Imitation

/-! ## The context of a state -/

/-- The tree of the state holds every entry that the state defines once, at its place, and every
row of its listing has a path of its own. -/
structure Unambiguous (locale : Locale) (state : PursuitState) (running : RunningMetadata) :
    Prop where
  /-- Every field of every owner has its file, and no file has been overwritten. -/
  files : (buildPursuitContext state running).files = keyed (placedFiles running state)
  fileKeys : ((buildPursuitContext state running).files.map (·.1)).Nodup
  /-- Every owner has its directory. -/
  directories : ∀ d, d ∈ (buildPursuitContext state running).directories ↔
    d ∈ keyed (placedDirectories running state)
  directoryKeys : ((buildPursuitContext state running).directories.map (·.1)).Nodup
  rows : ((listContextRows locale (buildPursuitContext state running)).map rowPath).Nodup

section Context

variable {locale : Locale} {running : RunningMetadata} {state : PursuitState}

theorem Addressed.files_eq (h : Addressed state) :
    (buildPursuitContext state running).files = fileWrites state running :=
  setEntries_of_nodup (nodup_fileWrites h)

theorem Addressed.mem_directories (h : Addressed state) {d : String × ContextDirectory} :
    d ∈ (buildPursuitContext state running).directories ↔ d ∈ directoryWrites state running :=
  mem_setEntries (agreeing_directoryWrites h)

theorem fileKey_ne_empty {f : String × ContextFile} (h : Addressed state)
    (hf : f ∈ fileWrites state running) : f.1 ≠ "" := by
  rw [fileWrites_eq] at hf
  obtain ⟨⟨place, content⟩, hmem, rfl⟩ := List.mem_map.mp hf
  obtain ⟨hproper, hfile⟩ := proper_placedFiles h hmem
  intro heq
  have hpath : place.path = Place.directory.path := ofList_inj heq
  have hroot : Place.directory.Proper := trivial
  rcases Place.path_inj hproper hroot hpath with rfl | himitates | himitates
  · exact hfile
  · exact himitates.isFile.2
  · obtain ⟨⟩ := himitates

/-- With ids of their own, entries collide only where an id imitates a file. -/
theorem Addressed.nodup_rows_iff (h : Addressed state) :
    ((listContextRows locale (buildPursuitContext state running)).map rowPath).Nodup ↔
      NoImitation state := by
  have hnames : ∀ f ∈ (buildPursuitContext state running).files, f.1 ≠ "" := by
    intro f hf
    rw [h.files_eq] at hf
    exact fileKey_ne_empty h hf
  rw [nodup_rowPaths_iff (nodup_keys_setEntries _) (nodup_keys_setEntries _) hnames,
    ← @keys_ne_iff running state h, h.files_eq]
  constructor
  · intro hne d hd
    exact hne d (h.mem_directories.mpr hd)
  · intro hne d hd
    exact hne d (h.mem_directories.mp hd)

/-- Whatever the ids are, no entry overwrites another. -/
theorem Addressed.unambiguous_iff (h : Addressed state) :
    Unambiguous locale state running ↔ NoImitation state := by
  constructor
  · intro hunambiguous
    exact h.nodup_rows_iff.mp hunambiguous.rows
  · intro hnone
    refine ⟨h.files_eq.trans (fileWrites_eq state), nodup_keys_setEntries _, fun d => ?_,
      nodup_keys_setEntries _, h.nodup_rows_iff.mpr hnone⟩
    rw [h.mem_directories, directoryWrites_eq]

end Context

/-! ## Every state of every run -/

/-- What `randomUUID` promises of its spelling, too: there is no slash in it. -/
structure Host.Uuids (host : Host) : Prop extends host.Random where
  slashless : ∀ stamp index, '/' ∉ (host.randomUUID stamp index).toList

section Runs

variable {host : Host} {definition : WorkflowDefinition} {args : JsonObject}
  {toJsonObject : PursuitState → Except String Json} {ls : List Label}
  {s : WorkflowRunInstance PursuitFields} {state : PursuitState}

theorem Minted.slashless (hhost : host.Uuids) {clock : Stamp} {id : String}
    (h : Minted host clock id) : '/' ∉ id.toList := by
  obtain ⟨stamp, -, index, rfl⟩ := h
  exact hhost.slashless stamp index

theorem Leg.Coherent.nodup_ids {leg : Leg} (h : leg.Coherent) {attempt : Attempt}
    (hattempt : attempt ∈ leg.attempts) : (attempt.workItems.map (·.id)).Nodup := by
  have hsublist : attempt.workItems.Sublist leg.workItems := by
    have hone := (List.singleton_sublist.mpr hattempt).flatMap fun a : Attempt => a.workItems
    rwa [List.flatMap_singleton] at hone
  have hdistinct := h.distinct.sublist (hsublist.map _)
  -- all items of the attempt have its version
  have hsame : attempt.workItems.map (·.versionedId) =
      (attempt.workItems.map (·.id)).map fun id => (attempt.legGoalVersion, id) := by
    rw [List.map_map]
    refine List.map_congr_left fun item hitem => ?_
    show (item.legGoalVersion, item.id) = _
    rw [h.versions attempt hattempt item hitem]
    rfl
  rw [hsame] at hdistinct
  exact hdistinct.of_map

theorem addressed_of_state (hhost : host.Uuids)
    (run : Run (step (pursuitRequest host definition args toJsonObject)) Free initial ls s)
    (hstate : s.state = some state) : Addressed state := by
  obtain ⟨-, hcoherent, hdated⟩ := coherent_of_state hhost.toRandom run hstate
  refine ⟨hdated.nodup, fun leg hleg => ?_⟩
  have hlegDated := hdated.legs leg hleg
  refine ⟨hlegDated.id.slashless hhost, hlegDated.nodup, fun attempt hattempt => ⟨?_, ?_⟩⟩
  · exact (hlegDated.attempts _ (List.mem_map_of_mem hattempt)).slashless hhost
  · exact (hcoherent leg hleg).nodup_ids hattempt

end Runs

/-- **The paths of a pursuit's context are unambiguous exactly when no work item has the path of a
file of another one for an id.**  Whatever the ids are, no entry overwrites another. -/
theorem context_paths_unambiguous_iff (host : Host) (hhost : host.Uuids) (locale : Locale)
    (definition : WorkflowDefinition) (args : JsonObject)
    (toJsonObject : PursuitState → Except String Json) {ls : List Label}
    {s : WorkflowRunInstance PursuitFields}
    (run : Run (step (pursuitRequest host definition args toJsonObject)) Free initial ls s)
    {state : PursuitState} (hstate : s.state = some state) (running : RunningMetadata) :
    Unambiguous locale state running ↔ NoImitation state :=
  (addressed_of_state hhost run hstate).unambiguous_iff

theorem spellingHost_uuids : spellingHost.Uuids := by
  refine { spellingHost_random with slashless := fun stamp index => ?_ }
  simp [spellingHost]

/-- Some id of the state has the path of a file of another item. -/
def imitates (state : PursuitState) : Bool :=
  state.ext.legs.any fun leg => leg.attempts.any fun attempt => attempt.workItems.any fun item =>
    attempt.workItems.any fun other => (workItemFieldFiles other).any fun file =>
      item.id = other.id ++ "/" ++ file.name

theorem noImitation_iff {state : PursuitState} :
    NoImitation state ↔ imitates state = false := by
  unfold NoImitation imitates
  simp only [List.any_eq_false, Bool.not_eq_true, decide_eq_false_iff_not, ne_eq]

/-- The planner of a new pursuit has submitted two items with plain ids. -/
theorem context_paths_unambiguous_two :
    ∃ s state, Run (step boundRequest) Free initial
        [.start, .launchResolved .start, .resume .start, .submit 0 twoItems, .dequeue] s ∧
      s.state = some state ∧ (state.ext.legs.flatMap (·.workItems)).length = 2 ∧
      Unambiguous ⟨compare, fun _ c _ => [c.toLower]⟩ state ⟨[], []⟩ := by
  obtain ⟨s, hs, hp⟩ := exists_run (step boundRequest) Free initial
    [.start, .launchResolved .start, .resume .start, .submit 0 twoItems, .dequeue]
    (fun s => s.state.any fun state => !imitates state &&
      (state.ext.legs.flatMap (·.workItems)).length == 2) (by decide +kernel)
  obtain ⟨state, hstate, htests⟩ := (Option.any_eq_true _ _).mp hp
  obtain ⟨hnone, htwo⟩ := Bool.and_eq_true_iff.mp htests
  refine ⟨s, state, hs, hstate, beq_iff_eq.mp htwo, ?_⟩
  have hiff := context_paths_unambiguous_iff spellingHost spellingHost_uuids
    ⟨compare, fun _ c _ => [c.toLower]⟩ boundDefinition _ _ hs hstate ⟨[], []⟩
  exact hiff.mpr (noImitation_iff.mpr (by simpa using hnone))

/-- The outcome of a planner that calls its second item like a file of the first. -/
def imitatingItems : Json :=
  .obj
    [("summary", .str "two items"),
      ("work_items", .arr
        [.obj
          [("id", .str "a"), ("agent_name", .str "worker"), ("title", .str "A"),
            ("spec", .str "do a")],
        .obj
          [("id", .str "a/title.md"), ("agent_name", .str "worker"), ("title", .str "B"),
            ("spec", .str "do b")]])]

/-- The directory of the second item and the title of the first have one path. -/
theorem item_imitates_title :
    ∃ s state, Run (step boundRequest) Free initial
        [.start, .launchResolved .start, .resume .start, .submit 0 imitatingItems, .dequeue] s ∧
      s.state = some state ∧ ∀ locale running, ¬ Unambiguous locale state running := by
  obtain ⟨s, hs, hp⟩ := exists_run (step boundRequest) Free initial
    [.start, .launchResolved .start, .resume .start, .submit 0 imitatingItems, .dequeue]
    (fun s => s.state.any imitates) (by decide +kernel)
  obtain ⟨state, hstate, himitates⟩ := (Option.any_eq_true _ _).mp hp
  refine ⟨s, state, hs, hstate, fun locale running hunambiguous => ?_⟩
  have haddressed := addressed_of_state spellingHost_uuids hs hstate
  have hnone := noImitation_iff.mp (haddressed.unambiguous_iff.mp hunambiguous)
  rw [himitates] at hnone
  cases hnone

end EphemeralAgent.Pursuit
