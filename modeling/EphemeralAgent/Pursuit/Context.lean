import Mathlib.Algebra.GroupWithZero.Nat
import EphemeralAgent.Lib.Entries
import EphemeralAgent.Pursuit.Module

/-!
# The context of a pursuit

`buildPursuitContext` shows a pursuit as a tree of files, `listContextRows` lists it and
`searchContextRows` searches it; `createPursuitContextStore` answers for the runs that it has
handles of, and for those that have left a snapshot.

A text is the list of its characters.  Lengths and positions are counted in UTF-16 code units.
-/

namespace EphemeralAgent.Pursuit

open EphemeralAgent.Lib EphemeralAgent.Workflow

/-- What the script gets from the locale: `localeCompare`, and the characters that
`toLocaleLowerCase` makes of one character, which may turn on the text before it and on the text
behind it. -/
structure Locale where
  compare : String → String → Ordering
  lowerCase : List Char → Char → List Char → List Char

/-- How many code units a character takes. -/
def unitsOf (c : Char) : Nat :=
  if c.toNat < 0x10000 then 1 else 2

/-- `length`. -/
def units (text : List Char) : Nat :=
  (text.map unitsOf).sum

/-! ## Owners and entries -/

inductive OwnerKind where
  | pursuit
  | leg
  | attempt
  | workItem
  deriving DecidableEq, Repr

/-- The kind as the source spells it. -/
def OwnerKind.toString : OwnerKind → String
  | .pursuit => "pursuit"
  | .leg => "leg"
  | .attempt => "attempt"
  | .workItem => "work_item"

structure ContextOwner where
  kind : OwnerKind
  id : String
  status : String
  summaryFirstLine : Option String

structure ContextDirectory where
  owner : ContextOwner
  superseded : Bool

structure ContextFile where
  owner : ContextOwner
  content : String

structure PursuitContext where
  pursuitId : String
  rootPath : String
  latestLegId : Option String
  files : List (String × ContextFile)
  directories : List (String × ContextDirectory)

/-- `firstLine`. -/
def firstLine (text : Option String) : Option String :=
  text.map fun text => String.ofList (text.toList.takeWhile (· ≠ '\n'))

/-! ## Field files -/

/-- A field of an entity as a file of its directory. -/
structure FieldFile where
  name : String
  content : String

/-- A file for a field that is there. -/
def fieldFile (name : String) : Option String → List FieldFile
  | some content => [⟨name, content⟩]
  | none => []

/-- `attemptFieldFiles`. -/
def attemptFieldFiles (attempt : Attempt) : List FieldFile :=
  fieldFile "plan_summary.md" attempt.plan.summary ++
    (if attempt.status = .failed ∧ attempt.failureReasons.length > 0 then
      [⟨"failure_reasons.md", String.intercalate "\n"
        (attempt.failureReasons.map fun reason => "- " ++ formatAttemptFailureReason reason)⟩]
    else []) ++
    if attempt.status = .success ∨ attempt.status = .failed then
      [⟨"outcome.md", composeAttemptOutcome attempt⟩]
    else []

/-- `workItemFieldFiles`. -/
def workItemFieldFiles (item : WorkItem) : List FieldFile :=
  [⟨"title.md", item.title⟩, ⟨"spec.md", item.spec⟩] ++ fieldFile "summary.md" item.summary ++
    fieldFile "outcome.md" item.outcome

/-- `supersededDeclarationFiles`. -/
def supersededDeclarationFiles (attempt : Attempt) : List FieldFile :=
  fieldFile "leg_goal.md" attempt.plan.declaredLegGoal ++
    fieldFile "next_leg_goal.md" attempt.plan.declaredNextLegGoal

/-- The files that `buildPursuitContext` writes for the fields of a leg. -/
def legFieldFiles (leg : Leg) : List FieldFile :=
  ⟨"leg_goal.md", leg.legGoal ++ "\n\nProvenance: " ++ leg.legGoalProvenance⟩ ::
    fieldFile "next_leg_goal.md" leg.nextLegGoal ++
    if isPursuitEntityTerminal leg.status then [⟨"outcome.md", composeLegOutcome leg⟩] else []

/-- `composePursuitOutcome`. -/
def composePursuitOutcome (state : PursuitState) : String :=
  let head :=
    if state.ext.pursuit.status = .cancelled then "# Pursuit outcome\npursuit cancelled"
    else "# Pursuit outcome"
  let sections :=
    (state.ext.legs.filter fun leg => leg.status = .success ∨ leg.status = .failed).map fun leg =>
      "## leg_" ++ leg.id ++ " [" ++ leg.status.toString ++ "]\n" ++ composeLegOutcome leg
  String.intercalate "\n\n" (head :: sections)

/-! ## The tree -/

section Build

variable (state : PursuitState) (running : RunningMetadata)

/-- `pursuitRef`. -/
def pursuitRef : ContextOwner where
  kind := .pursuit
  id := state.ext.pursuit.id
  status := state.ext.pursuit.status.toString
  summaryFirstLine := none

/-- `legRef`. -/
def legRef (leg : Leg) : ContextOwner where
  kind := .leg
  id := leg.id
  status := leg.status.toString
  summaryFirstLine := none

/-- `attemptRef`. -/
def attemptRef (attempt : Attempt) : ContextOwner where
  kind := .attempt
  id := attempt.id
  status :=
    if attempt.status = .running ∧ running.plans.contains attempt.plan.id then
      PursuitEntityRunStatus.running.toString
    else attempt.status.toString
  summaryFirstLine := firstLine attempt.plan.summary

/-- `itemRef`. -/
def itemRef (item : WorkItem) : ContextOwner where
  kind := .workItem
  id := item.id
  status := (effectiveWorkItemStatus item running).toString
  summaryFirstLine := firstLine item.summary

/-- `itemDir`. -/
def itemDir (leg : Leg) (attempt : Attempt) (item : WorkItem) : String :=
  attemptDirPath leg attempt ++ "/work_item_" ++ item.id

/-- The files of one owner in its directory. -/
def filesIn (directory : String) (owner : ContextOwner) (files : List FieldFile) :
    List (String × ContextFile) :=
  files.map fun file => (directory ++ "/" ++ file.name, ⟨owner, file.content⟩)

/-- The calls of `files.set` for one attempt. -/
def attemptFiles (leg : Leg) (attempt : Attempt) : List (String × ContextFile) :=
  let attemptDir := attemptDirPath leg attempt
  filesIn attemptDir (attemptRef running attempt) (attemptFieldFiles attempt) ++
    (if attempt.isConsistentWithLegGoal then []
      else
        filesIn attemptDir (attemptRef running attempt) (supersededDeclarationFiles attempt)) ++
    attempt.workItems.flatMap fun item =>
      filesIn (itemDir leg attempt item) (itemRef running item) (workItemFieldFiles item)

/-- The calls of `directories.set` for one attempt. -/
def attemptDirectories (leg : Leg) (attempt : Attempt) : List (String × ContextDirectory) :=
  let superseded := !attempt.isConsistentWithLegGoal
  (if superseded then [(legDirName leg.id ++ "/superseded", ⟨legRef leg, true⟩)] else []) ++
    (attemptDirPath leg attempt, ⟨attemptRef running attempt, superseded⟩) ::
      attempt.workItems.map fun item =>
        (itemDir leg attempt item, ⟨itemRef running item, superseded⟩)

/-- The calls of `files.set` for one leg. -/
def legFiles (leg : Leg) : List (String × ContextFile) :=
  filesIn (legDirName leg.id) (legRef leg) (legFieldFiles leg) ++
    leg.attempts.flatMap (attemptFiles running leg)

/-- The calls of `directories.set` for one leg. -/
def legDirectories (leg : Leg) : List (String × ContextDirectory) :=
  (legDirName leg.id, ⟨legRef leg, false⟩) :: leg.attempts.flatMap (attemptDirectories running leg)

/-- The calls of `files.set`, in their order. -/
def fileWrites : List (String × ContextFile) :=
  ("goal.md", ⟨pursuitRef state, state.ext.pursuit.goal⟩) ::
    (if isPursuitEntityTerminal state.ext.pursuit.status then
      [("outcome.md", ⟨pursuitRef state, composePursuitOutcome state⟩)]
    else []) ++
    state.ext.legs.flatMap (legFiles running)

/-- The calls of `directories.set`, in their order. -/
def directoryWrites : List (String × ContextDirectory) :=
  ("", ⟨pursuitRef state, false⟩) :: state.ext.legs.flatMap (legDirectories running)

/-- `buildPursuitContext`. -/
def buildPursuitContext : PursuitContext where
  pursuitId := state.ext.pursuit.id
  rootPath := pursuitRootPath state.ext.pursuit.id
  latestLegId := state.ext.legs.getLast?.map (·.id)
  files := setEntries (fileWrites state running)
  directories := setEntries (directoryWrites state running)

end Build

/-! ## Listing -/

/-- The row of a directory. -/
def directoryRow (rootPath : String) (entry : String × ContextDirectory) : JsonObject :=
  [("kind", .str "directory"),
    ("path", .str (if entry.1.length = 0 then rootPath else rootPath ++ "/" ++ entry.1)),
    ("status", .str entry.2.owner.status), ("owner_kind", .str entry.2.owner.kind.toString),
    ("owner_id", .str entry.2.owner.id), ("superseded", .bool entry.2.superseded)]

/-- The row of a file. -/
def fileRow (rootPath : String) (entry : String × ContextFile) : JsonObject :=
  [("kind", .str "file"), ("path", .str (rootPath ++ "/" ++ entry.1)),
    ("status", .str entry.2.owner.status), ("owner_kind", .str entry.2.owner.kind.toString),
    ("owner_id", .str entry.2.owner.id), ("bytes", natural (units entry.2.content.toList))]

/-- `stringField(row, "path")`. -/
def rowPath (row : JsonObject) : String :=
  (Json.stringField row "path").getD ""

/-- `listContextRows`; the sort is stable. -/
def listContextRows (locale : Locale) (context : PursuitContext) : List JsonObject :=
  (context.directories.map (directoryRow context.rootPath) ++
    context.files.map (fileRow context.rootPath)).mergeSort fun left right =>
      locale.compare (rowPath left) (rowPath right) != .gt

/-! ## Searching -/

/-- What lower-casing makes of a text between two others. -/
def lowerCaseIn (locale : Locale) : List Char → List Char → List Char → List Char
  | _, [], _ => []
  | before, c :: rest, after =>
    locale.lowerCase before c (rest ++ after) ++ lowerCaseIn locale (before ++ [c]) rest after

/-- `toLocaleLowerCase`. -/
def toLocaleLowerCase (locale : Locale) (text : List Char) : List Char :=
  lowerCaseIn locale [] text []

/-- `indexOf`; `none` is -1. -/
def indexOf (query : List Char) : List Char → Option Nat
  | [] => if query = [] then some 0 else none
  | c :: rest =>
    if query.isPrefixOf (c :: rest) then some 0
    else (indexOf query rest).map (unitsOf c + ·)

/-- The characters before a position; one that crosses it is left out. -/
def takeUnits : Nat → List Char → List Char
  | _, [] => []
  | position, c :: rest =>
    if unitsOf c ≤ position then c :: takeUnits (position - unitsOf c) rest else []

/-- The characters from a position on; one that crosses it is left out. -/
def dropUnits : Nat → List Char → List Char
  | _, [] => []
  | 0, text => text
  | position, c :: rest => dropUnits (position - unitsOf c) rest

/-- `slice`, without a half of a surrogate pair at either end. -/
def slice (text : List Char) (start stop : Nat) : List Char :=
  dropUnits start (takeUnits stop text)

/-- `CONTEXT_SNIPPET_RADIUS`. -/
def contextSnippetRadius : Nat := 48

/-- The snippet around a match that begins there in the lower-cased content. -/
def snippetAt (content query : List Char) (index : Nat) : List Char :=
  let start := index - contextSnippetRadius
  let stop := min (units content) (index + units query + contextSnippetRadius)
  slice content start stop

/-- The row of a file that the search has found. -/
def resultRow (rootPath : String) (entry : String × ContextFile) (snippet : List Char) :
    JsonObject :=
  [("path", .str (rootPath ++ "/" ++ entry.1)), ("status", .str entry.2.owner.status),
    ("owner_kind", .str entry.2.owner.kind.toString), ("owner_id", .str entry.2.owner.id),
    ("snippet", .str (String.ofList snippet))]

/-- The result for one file, if there is one. -/
def searchFile (locale : Locale) (rootPath query : String) (entry : String × ContextFile) :
    Option JsonObject :=
  (indexOf (toLocaleLowerCase locale query.toList)
    (toLocaleLowerCase locale entry.2.content.toList)).map fun index =>
      resultRow rootPath entry (snippetAt entry.2.content.toList query.toList index)

/-- `searchContextRows`. -/
def searchContextRows (locale : Locale) (context : PursuitContext) (query : String) :
    List JsonObject :=
  context.files.filterMap (searchFile locale context.rootPath query)

/-! ## The store -/

/-- The state in a snapshot of some workflow run: one with the keys `pursuit`, `legs` and
`failures`, or another one. -/
inductive SnapshotState where
  | pursuit (state : PursuitState)
  | other

/-- `WorkflowRunSnapshot`, as far as the store reads it. -/
structure WorkflowRunSnapshot where
  state : SnapshotState
  runtime : RuntimeSnapshot

/-- `pursuitStateFromSnapshot`. -/
def pursuitStateFromSnapshot : SnapshotState → Option PursuitState
  | .pursuit state => some state
  | .other => none

/-- `contextForWorkflowRun`; the handles are what they say at this moment. -/
def contextForWorkflowRun (handles : List (String × WorkflowRunSnapshot))
    (workflowRecordId : String) (readLatestSnapshot : Option (String → Option WorkflowRunSnapshot)) :
    Option PursuitContext :=
  let snapshot :=
    match handles.lookup workflowRecordId with
    | some snapshot => some snapshot
    | none => readLatestSnapshot.bind fun read => read workflowRecordId
  snapshot.bind fun snapshot =>
    (pursuitStateFromSnapshot snapshot.state).map fun state =>
      buildPursuitContext state (runningMetadata snapshot.runtime)

end EphemeralAgent.Pursuit
