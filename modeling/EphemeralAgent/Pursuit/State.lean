import EphemeralAgent.Lib.Update
import EphemeralAgent.Workflow.Types

/-!
# The state of a pursuit

`.ephai/agentic-workflows/pursuit/workflow.mjs`: a pursuit has legs, a leg has attempts, an
attempt has a plan and the work items of that plan.

`Host` is what the script gets from outside: `randomUUID`, the clock, and the texts of Zod's
errors.
-/

namespace EphemeralAgent.Pursuit

open EphemeralAgent.Workflow

/-- What the script calls and does not define.  The identifiers and the time are those of one
callback call, told apart by an index. -/
structure Host where
  randomUUID : Stamp → Nat → String
  now : Stamp → String
  zodMessage : Json → String

/-! ## Statuses -/

inductive PursuitEntityRunStatus where
  | notStarted
  | running
  | success
  | failed
  | cancelled
  deriving DecidableEq, Repr

inductive WorkItemRunStatus where
  | notStarted
  | running
  | success
  | failed
  | blocked
  | cancelled
  deriving DecidableEq, Repr

/-- The status as the source spells it. -/
def PursuitEntityRunStatus.toString : PursuitEntityRunStatus → String
  | .notStarted => "NotStarted"
  | .running => "Running"
  | .success => "Success"
  | .failed => "Failed"
  | .cancelled => "Cancelled"

/-- The status as the source spells it. -/
def WorkItemRunStatus.toString : WorkItemRunStatus → String
  | .notStarted => "NotStarted"
  | .running => "Running"
  | .success => "Success"
  | .failed => "Failed"
  | .blocked => "Blocked"
  | .cancelled => "Cancelled"

def isPursuitEntityTerminal : PursuitEntityRunStatus → Bool
  | .success | .failed | .cancelled => true
  | _ => false

def isWorkItemTerminal : WorkItemRunStatus → Bool
  | .success | .failed | .blocked | .cancelled => true
  | _ => false

/-! ## Entities -/

inductive AttemptFailureKind where
  | plannerFailed
  | contextCompositionFailed
  | failed
  | blockedByFailedDependency
  deriving DecidableEq, Repr

/-- `AttemptFailureReasonSchema`. -/
structure AttemptFailureReason where
  workItemId : Option String
  kind : AttemptFailureKind
  message : Option String
  summary : Option String
  outcome : Option String
  blockedBy : Option (List String) := none

structure WorkItem where
  key : String
  id : String
  agentName : String
  status : WorkItemRunStatus
  title : String
  spec : String
  dependsOn : List String
  legGoalVersion : Nat
  summary : Option String
  outcome : Option String

structure Plan where
  id : String
  status : PursuitEntityRunStatus
  declaredLegGoal : Option String
  declaredNextLegGoal : Option String
  legGoalVersion : Nat
  summary : Option String

structure Attempt where
  id : String
  sequence : Nat
  status : PursuitEntityRunStatus
  failureReasons : List AttemptFailureReason
  legGoalVersion : Nat
  isConsistentWithLegGoal : Bool
  plan : Plan
  workItems : List WorkItem

inductive LegOrigin where
  | initial
  | nextLegGoal
  | predefined
  deriving DecidableEq, Repr

structure Leg where
  id : String
  sequence : Nat
  origin : LegOrigin
  maxAttempts : Nat
  status : PursuitEntityRunStatus
  legGoal : String
  legGoalVersion : Nat
  legGoalProvenance : String
  isLegGoalMutatable : Bool
  nextLegGoal : Option String
  attempts : List Attempt

inductive LegGoalMode where
  | dynamic
  | predefined
  deriving DecidableEq, Repr

structure PursuitRecord where
  id : String
  goal : String
  legGoalMode : LegGoalMode
  legGoals : List String
  status : PursuitEntityRunStatus
  closedAt : Option String

/-- The pursuit's own fields of its workflow state. -/
structure PursuitFields where
  pursuit : PursuitRecord
  legs : List Leg
  failures : List String

abbrev PursuitState := WorkflowState PursuitFields

/-! ## Arguments -/

/-- `z.string().min(1)`. -/
abbrev NonEmptyString := { text : String // text ≠ "" }

def nonEmptyString : Json → Option NonEmptyString
  | .str text => if h : text ≠ "" then some ⟨text, h⟩ else none
  | _ => none

/-- An optional field of a schema: absent, or a value that parses. -/
def optionalField {α : Type} (parse : Json → Option α) (object : JsonObject) (key : String) :
    Option (Option α) :=
  match Json.field object key with
  | none => some none
  | some value => (parse value).map some

/-- A required field of a schema. -/
def requiredField {α : Type} (parse : Json → Option α) (object : JsonObject) (key : String) :
    Option α :=
  (Json.field object key).bind parse

/-- `z.strictObject`: no other keys. -/
def onlyKeys (object : JsonObject) (keys : List String) : Bool :=
  object.all fun field => keys.contains field.1

/-- `z.array(z.string().min(1))`. -/
def nonEmptyStrings : Json → Option (List NonEmptyString)
  | .arr items => items.mapM nonEmptyString
  | _ => none

/-- `z.number().int().positive()`; Zod takes integers in the safe range only. -/
def positiveInt : Json → Option Nat
  | .num value =>
    if value.den = 1 ∧ 0 < value.num ∧ value.num ≤ 9007199254740991 then some value.num.toNat
    else none
  | _ => none

theorem optionalField_positiveInt {object : JsonObject} {key : String} {value : Option Nat}
    {default : Nat} (hdefault : 0 < default)
    (h : optionalField positiveInt object key = some value) : 0 < value.getD default := by
  unfold optionalField at h
  split at h
  · obtain rfl := Option.some.inj h
    exact hdefault
  · next json _ =>
    obtain ⟨n, hn, rfl⟩ := Option.map_eq_some_iff.mp h
    show 0 < n
    unfold positiveInt at hn
    split at hn
    · split at hn
      · next number hpositive =>
        obtain rfl := Option.some.inj hn
        have := hpositive.2.1
        omega
      · cases hn
    · cases hn

def DEFAULT_MAX_ATTEMPTS : Nat := 2

structure PursuitArgs where
  pursuitGoal : String
  legGoals : Option (List String)
  maxAttempts : Nat

/-- `PursuitArgsSchema`. -/
def PursuitArgs.parse (object : JsonObject) : Option PursuitArgs := do
  if !onlyKeys object ["pursuit_goal", "leg_goals", "max_attempts"] then none
  let pursuitGoal ← requiredField nonEmptyString object "pursuit_goal"
  let legGoals ← optionalField nonEmptyStrings object "leg_goals"
  if legGoals = some [] then none
  let maxAttempts ← optionalField positiveInt object "max_attempts"
  return {
    pursuitGoal := pursuitGoal.val
    legGoals := legGoals.map fun goals => goals.map (·.val)
    maxAttempts := maxAttempts.getD DEFAULT_MAX_ATTEMPTS }

/-! ## New entities -/

/-- `createAttempt`; it mints two identifiers, from `index` on. -/
def createAttempt (host : Host) (stamp : Stamp) (index : Nat) (sequence legGoalVersion : Nat) :
    Attempt where
  id := host.randomUUID stamp index
  sequence := sequence
  status := .running
  failureReasons := []
  legGoalVersion := legGoalVersion
  isConsistentWithLegGoal := true
  plan :=
    { id := host.randomUUID stamp (index + 1)
      status := .notStarted
      declaredLegGoal := none
      declaredNextLegGoal := none
      legGoalVersion
      summary := none }
  workItems := []

structure LegInit where
  sequence : Nat
  origin : LegOrigin
  legGoal : String
  legGoalProvenance : String
  isLegGoalMutatable : Bool
  nextLegGoal : Option String
  maxAttempts : Nat

/-- `createLeg`; it mints three identifiers, from `index` on. -/
def createLeg (host : Host) (stamp : Stamp) (index : Nat) (input : LegInit) : Leg where
  id := host.randomUUID stamp index
  sequence := input.sequence
  origin := input.origin
  maxAttempts := input.maxAttempts
  status := .running
  legGoal := input.legGoal
  legGoalVersion := 1
  legGoalProvenance := input.legGoalProvenance
  isLegGoalMutatable := input.isLegGoalMutatable
  nextLegGoal := input.nextLegGoal
  attempts := [createAttempt host stamp (index + 1) 1 1]

/-- `createInitialState`. -/
def createInitialState (host : Host) (stamp : Stamp) (args : PursuitArgs) : PursuitState :=
  let legGoals := args.legGoals.getD []
  let legGoalMode : LegGoalMode := if legGoals = [] then .dynamic else .predefined
  let firstGoal :=
    if legGoalMode = .dynamic then args.pursuitGoal else (legGoals[0]?).getD args.pursuitGoal
  { version := 0
    isWorkflowDone := false
    workflowStatus := .running
    ext :=
      { pursuit :=
          { id := host.randomUUID stamp 0
            goal := args.pursuitGoal
            legGoalMode
            legGoals
            status := .running
            closedAt := none }
        legs :=
          [createLeg host stamp 1
            { sequence := 1
              origin := .initial
              legGoal := firstGoal
              legGoalProvenance :=
                if legGoalMode = .dynamic then "inherited from pursuit goal"
                else "predefined leg_goal[1]"
              isLegGoalMutatable := legGoalMode = .dynamic
              nextLegGoal := if legGoalMode = .predefined then legGoals[1]? else none
              maxAttempts := args.maxAttempts }]
        failures := [] } }

/-! ## Looking things up -/

/-- The work items of a leg, attempt by attempt. -/
def Leg.workItems (leg : Leg) : List WorkItem :=
  leg.attempts.flatMap (·.workItems)

/-- `dependencyStatus`. -/
def dependencyStatus (leg : Leg) (legGoalVersion : Nat) (id : String) : Option WorkItemRunStatus :=
  (leg.workItems.find? fun item => item.id = id ∧ item.legGoalVersion = legGoalVersion).map
    (·.status)

/-- `workItemKey`. -/
def workItemKey (legId : String) (legGoalVersion : Nat) (itemId : String) : String :=
  legId ++ ":" ++ toString legGoalVersion ++ ":" ++ itemId

/-- `runningMetadata`: the plans and the work items that running nodes are for. -/
structure RunningMetadata where
  plans : List String
  workItems : List String

def runningMetadata (runtime : RuntimeSnapshot) : RunningMetadata where
  plans := runtime.runningNodes.filterMap fun node => do
    let metadata ← node.metadata
    if Json.stringField metadata "role" = some "planner" then Json.stringField metadata "plan_id"
    else none
  workItems := runtime.runningNodes.filterMap fun node => do
    let metadata ← node.metadata
    if Json.stringField metadata "role" = some "worker" then
      Json.stringField metadata "work_item_key"
    else none

end EphemeralAgent.Pursuit
