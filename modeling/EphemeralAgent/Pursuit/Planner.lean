import EphemeralAgent.Lib.DepthFirst
import EphemeralAgent.Pursuit.State

/-!
# Outcomes of planners and workers

The payload schemas of the two roles, and what a planner may submit: ids that are new in the
leg-goal version, dependencies on its own items or on items of earlier attempts in that version,
and no cycle among its own items.
-/

namespace EphemeralAgent.Pursuit

open EphemeralAgent.Lib EphemeralAgent.Workflow

/-! ## Schemas -/

/-- `PlannerWorkItemSpecSchema`. -/
structure PlannerWorkItemSpec where
  id : NonEmptyString
  agentName : NonEmptyString
  title : NonEmptyString
  spec : NonEmptyString
  dependsOn : List NonEmptyString

/-- `PlannerOutcomePayloadSchema`; there is at least one work item. -/
structure PlannerOutcomePayload where
  summary : NonEmptyString
  legGoal : Option NonEmptyString
  nextLegGoal : Option NonEmptyString
  workItems : List PlannerWorkItemSpec
  nonempty : workItems ≠ []

/-- `WorkerOutcomePayloadSchema`. -/
structure WorkerOutcomePayload where
  summary : NonEmptyString
  isPass : Bool
  outcome : NonEmptyString

def boolean : Json → Option Bool
  | .bool value => some value
  | _ => none

def PlannerWorkItemSpec.parse : Json → Option PlannerWorkItemSpec
  | .obj object => do
    if !onlyKeys object ["id", "agent_name", "title", "spec", "depends_on"] then none
    let id ← requiredField nonEmptyString object "id"
    let agentName ← requiredField nonEmptyString object "agent_name"
    let title ← requiredField nonEmptyString object "title"
    let spec ← requiredField nonEmptyString object "spec"
    let dependsOn ← optionalField nonEmptyStrings object "depends_on"
    return { id, agentName, title, spec, dependsOn := dependsOn.getD [] }
  | _ => none

/-- `z.array(PlannerWorkItemSpecSchema)`. -/
def plannerWorkItemSpecs : Json → Option (List PlannerWorkItemSpec)
  | .arr items => items.mapM PlannerWorkItemSpec.parse
  | _ => none

def PlannerOutcomePayload.parse : Json → Option PlannerOutcomePayload
  | .obj object => do
    if !onlyKeys object ["summary", "leg_goal", "next_leg_goal", "work_items"] then none
    let summary ← requiredField nonEmptyString object "summary"
    let legGoal ← optionalField nonEmptyString object "leg_goal"
    let nextLegGoal ← optionalField nonEmptyString object "next_leg_goal"
    let workItems ← requiredField plannerWorkItemSpecs object "work_items"
    if h : workItems ≠ [] then
      return { summary, legGoal, nextLegGoal, workItems, nonempty := h }
    else none
  | _ => none

def WorkerOutcomePayload.parse : Json → Option WorkerOutcomePayload
  | .obj object => do
    if !onlyKeys object ["summary", "is_pass", "outcome"] then none
    let summary ← requiredField nonEmptyString object "summary"
    let isPass ← requiredField boolean object "is_pass"
    let outcome ← requiredField nonEmptyString object "outcome"
    return { summary, isPass, outcome }
  | _ => none

/-- The field of an object that is left out when it is undefined. -/
def definedField (key : String) (value : Option NonEmptyString) : JsonObject :=
  match value with
  | some text => [(key, .str text.val)]
  | none => []

def PlannerWorkItemSpec.toJson (item : PlannerWorkItemSpec) : Json :=
  .obj
    [("id", .str item.id.val), ("agent_name", .str item.agentName.val),
      ("title", .str item.title.val), ("spec", .str item.spec.val),
      ("depends_on", .arr (item.dependsOn.map fun id => .str id.val))]

/-- The value that the schema returns. -/
def PlannerOutcomePayload.toJson (payload : PlannerOutcomePayload) : Json :=
  .obj ([("summary", .str payload.summary.val)] ++ definedField "leg_goal" payload.legGoal ++
    definedField "next_leg_goal" payload.nextLegGoal ++
    [("work_items", .arr (payload.workItems.map (·.toJson)))])

/-- The value that the schema returns. -/
def WorkerOutcomePayload.toJson (payload : WorkerOutcomePayload) : Json :=
  .obj
    [("summary", .str payload.summary.val), ("is_pass", .bool payload.isPass),
      ("outcome", .str payload.outcome.val)]

/-- `schema.parse`, which throws. -/
def parseOrThrow {α : Type} (host : Host) (parse : Json → Option α) (value : Json) :
    Except String α :=
  match parse value with
  | some a => .ok a
  | none => .error (host.zodMessage value)

/-- What the schemas return, they accept. -/
@[simp] theorem nonEmptyString_str (text : NonEmptyString) :
    nonEmptyString (.str text.val) = some text := by
  simp [nonEmptyString, text.property]

@[simp] theorem WorkerOutcomePayload.parse_toJson (payload : WorkerOutcomePayload) :
    WorkerOutcomePayload.parse payload.toJson = some payload := by
  obtain ⟨summary, isPass, outcome⟩ := payload
  simp [toJson, parse, onlyKeys, requiredField, Json.field, List.lookup_cons, boolean]

/-! ## Submissions -/

/-- The first error of a loop. -/
def firstError {α : Type} (check : α → Option String) : List α → Option String
  | [] => none
  | a :: rest =>
    match check a with
    | some error => some error
    | none => firstError check rest

/-- The first id that occurs twice. -/
def duplicateId : List PlannerWorkItemSpec → List String → Option String
  | [], _ => none
  | item :: rest, seen =>
    if item.id.val ∈ seen then some item.id.val else duplicateId rest (seen ++ [item.id.val])

/-- An existing work item and its attempt. -/
structure ExistingItem where
  attempt : Attempt
  item : WorkItem

/-- `allExisting`. -/
def allExisting (leg : Leg) : List ExistingItem :=
  leg.attempts.flatMap fun attempt => attempt.workItems.map fun item => { attempt, item }

/-- The entry belongs to the leg's current goal. -/
def ExistingItem.inVersion (leg : Leg) (entry : ExistingItem) : Bool :=
  entry.attempt.isConsistentWithLegGoal && entry.item.legGoalVersion == leg.legGoalVersion

/-- What is wrong with one dependency of a submitted item. -/
def dependencyError (leg : Leg) (attempt : Attempt) (payload : PlannerOutcomePayload)
    (currentIds : List String) (item : PlannerWorkItemSpec) (dependency : String) :
    Option String :=
  if dependency ∈ currentIds then none
  else if payload.legGoal.isSome then
    some "replacement leg_goal submissions cannot depend_on prior work items"
  else
    let matching := (allExisting leg).filter fun entry => entry.item.id == dependency
    match matching with
    | [] =>
      some ("work item \"" ++ item.id.val ++ "\" depends_on unknown id \"" ++ dependency ++ "\"")
    | first :: _ =>
      let existing := matching.find? fun entry =>
        decide (entry.attempt.sequence < attempt.sequence) && entry.inVersion leg
      if existing.isSome then none
      else if first.attempt.sequence ≥ attempt.sequence then
        some ("work item \"" ++ item.id.val ++ "\" depends_on future attempt item \"" ++
          dependency ++ "\"")
      else
        some ("work item \"" ++ item.id.val ++
          "\" depends_on superseded leg-goal version item \"" ++ dependency ++ "\"")

/-- The edges of the graph of a submission: dependencies among its own items. -/
def graphNext (payload : PlannerOutcomePayload) (id : String) : List String :=
  match payload.workItems.reverse.find? fun item => item.id.val == id with
  | none => []
  | some item =>
    (item.dependsOn.map (·.val)).filter fun dependency =>
      payload.workItems.any fun other => other.id.val == dependency

/-- `currentGraphCycle`; a path has no more nodes than there are items. -/
def currentGraphCycle (payload : PlannerOutcomePayload) : Option String :=
  match DepthFirst.visitAll (graphNext payload) (payload.workItems.length + 1)
      (payload.workItems.map (·.id.val)) with
  | none => some "work item depends_on contains a dependency cycle"
  | some _ => none

/-- `plannerSubmissionError`. -/
def plannerSubmissionError (state : PursuitState) (leg : Leg) (attempt : Attempt)
    (payload : PlannerOutcomePayload) : Option String :=
  if state.ext.pursuit.legGoalMode = .predefined ∧
      (payload.legGoal.isSome ∨ payload.nextLegGoal.isSome) then
    some "predefined leg goals cannot be refocused or declare next_leg_goal"
  else
    match duplicateId payload.workItems [] with
    | some id => some ("duplicate work item id \"" ++ id ++ "\"")
    | none =>
      let currentIds := payload.workItems.map (·.id.val)
      let existingInVersion := (allExisting leg).filter (·.inVersion leg)
      let duplicate := firstError (fun item : PlannerWorkItemSpec =>
        if existingInVersion.any fun entry => entry.item.id == item.id.val then
          some ("duplicate work item id \"" ++ item.id.val ++
            "\" in current leg goal version")
        else none) payload.workItems
      match (if payload.legGoal.isNone then duplicate else none) with
      | some error => some error
      | none =>
        let dependencies := firstError (fun item : PlannerWorkItemSpec =>
          firstError (dependencyError leg attempt payload currentIds item)
            (item.dependsOn.map (·.val))) payload.workItems
        match dependencies with
        | some error => some error
        | none => currentGraphCycle payload

end EphemeralAgent.Pursuit
