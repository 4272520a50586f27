import EphemeralAgent.Pursuit.Module

/-!
# The variable reference map

`create_variable_reference_map` of `.ephai/agentic-workflows/pursuit/scripts`, as far as it looks
up the dependencies of a work item.  It reads the arguments of a dispatch: the snapshot of the
pursuit and the ids of the current leg, attempt and work item.
-/

namespace EphemeralAgent.Pursuit

open EphemeralAgent.Workflow

/-! ## Values of the script -/

/-- `value[key]`; `none` is `undefined`. -/
def member (value : Json) (key : String) : Option Json :=
  (Json.asObject value).bind fun object => Json.field object key

/-- The items of an array. -/
def elements : Option Json → List Json
  | some (.arr items) => items
  | _ => []

/-- `a === b`; no two objects that the script compares are the same one. -/
def strictEquals : Option Json → Option Json → Bool
  | none, none => true
  | some .null, some .null => true
  | some (.bool a), some (.bool b) => a == b
  | some (.num a), some (.num b) => a == b
  | some (.str a), some (.str b) => a == b
  | _, _ => false

/-- What counts as true in a condition. -/
def truthy : Option Json → Bool
  | none | some .null | some (.bool false) => false
  | some (.num value) => value ≠ 0
  | some (.str value) => value ≠ ""
  | _ => true

/-- `value ?? null`. -/
def orNull (value : Option Json) : Json :=
  value.getD .null

/-! ## The lookups -/

/-- `ctx.current[key]`. -/
def currentId (ctx : JsonObject) (key : String) : Option Json :=
  (Json.field ctx "current").bind (member · key)

/-- `current_leg`. -/
def currentLeg (ctx : JsonObject) : Option Json :=
  let pursuit := (Json.field ctx "pursuit_context").bind (member · "pursuit")
  (elements (pursuit.bind (member · "legs"))).find? fun leg =>
    strictEquals (member leg "id") (currentId ctx "leg_id")

/-- `all_attempts`. -/
def allAttempts (ctx : JsonObject) : List Json :=
  elements ((currentLeg ctx).bind (member · "attempts"))

/-- `current_attempt`. -/
def currentAttempt (ctx : JsonObject) : Option Json :=
  (allAttempts ctx).find? fun attempt =>
    strictEquals (member attempt "id") (currentId ctx "attempt_id")

/-- `same_version_work_items`. -/
def sameVersionWorkItems (ctx : JsonObject) : List Json :=
  match currentAttempt ctx with
  | none => []
  | some current =>
    let consistent := (allAttempts ctx).filter fun attempt =>
      truthy (member attempt "is_consistent_with_leg_goal")
    (consistent.flatMap fun attempt => elements (member attempt "work_items")).filter fun item =>
      !strictEquals (member current "leg_goal_version") (some .null) &&
        strictEquals (member item "leg_goal_version") (member current "leg_goal_version")

/-- `current_work_item`. -/
def currentWorkItem (ctx : JsonObject) : Option Json :=
  if (currentId ctx "work_item_id").isSome then
    (elements ((currentAttempt ctx).bind (member · "work_items"))).find? fun item =>
      strictEquals (member item "id") (currentId ctx "work_item_id")
  else none

/-- `dependency_work_items`. -/
def dependencyWorkItems (ctx : JsonObject) : List Json :=
  match currentWorkItem ctx with
  | none => []
  | some item =>
    (elements (member item "depends_on")).map fun id =>
      ((sameVersionWorkItems ctx).find? fun item =>
        strictEquals (member item "id") (some id)).getD (.obj [("id", id)])

/-- `dependency_outcomes`. -/
def dependencyOutcomes (ctx : JsonObject) : List Json :=
  ((dependencyWorkItems ctx).filter fun item =>
    strictEquals (member item "status") (some (.str "Success"))).map fun item =>
      .obj
        [("id", orNull (member item "id")), ("title", orNull (member item "title")),
          ("status", (member item "status").getD (.str "Unknown")),
          ("summary", orNull (member item "summary")),
          ("outcome", orNull (member item "outcome"))]

/-! ## On the arguments of a worker -/

/-- The arguments of a worker's dispatch. -/
def workerArgs (state : PursuitState) (leg : Leg) (attempt : Attempt) (item : WorkItem) :
    JsonObject :=
  [("kind", .str "worker"), ("pursuit_context", snapshotPursuitContext state),
    ("current", .obj
      [("pursuit_id", .str state.ext.pursuit.id), ("leg_id", .str leg.id),
        ("attempt_id", .str attempt.id), ("work_item_id", .str item.id)])]

/-- A work item in the snapshot of its attempt. -/
def snapshotWorkItem (root : String) (leg : Leg) (attempt : Attempt) (item : WorkItem) : Json :=
  .obj
    [("id", .str item.id), ("agent_name", .str item.agentName), ("title", .str item.title),
      ("spec", .str item.spec), ("depends_on", .arr (item.dependsOn.map .str)),
      ("status", .str item.status.toString), ("summary", nullable item.summary),
      ("outcome", nullable item.outcome), ("agent_run_id", .null),
      ("context_path",
        .str (root ++ "/" ++ attemptDirPath leg attempt ++ "/work_item_" ++ item.id)),
      ("leg_goal_version", natural item.legGoalVersion)]

section Lookups

variable {state : PursuitState} {leg : Leg} {attempt : Attempt} {item : WorkItem}

theorem currentLeg_workerArgs (hleg : state.ext.legs.find? (·.id == leg.id) = some leg) :
    currentLeg (workerArgs state leg attempt item) = some (snapshotLeg state leg) := by
  have hlegs : currentLeg (workerArgs state leg attempt item) =
      (state.ext.legs.map (snapshotLeg state)).find? fun json =>
        strictEquals (member json "id") (some (.str leg.id)) := rfl
  rw [hlegs, List.find?_map]
  have hids : (fun json => strictEquals (member json "id") (some (.str leg.id))) ∘
      snapshotLeg state = (·.id == leg.id) := rfl
  rw [hids, hleg]
  rfl

theorem allAttempts_workerArgs (hleg : state.ext.legs.find? (·.id == leg.id) = some leg) :
    allAttempts (workerArgs state leg attempt item) =
      leg.attempts.map (snapshotAttempt (pursuitRootPath state.ext.pursuit.id) leg) := by
  unfold allAttempts
  rw [currentLeg_workerArgs hleg]
  rfl

theorem currentAttempt_workerArgs (hleg : state.ext.legs.find? (·.id == leg.id) = some leg)
    (hattempt : leg.attempts.find? (·.id == attempt.id) = some attempt) :
    currentAttempt (workerArgs state leg attempt item) =
      some (snapshotAttempt (pursuitRootPath state.ext.pursuit.id) leg attempt) := by
  unfold currentAttempt
  rw [allAttempts_workerArgs hleg, List.find?_map]
  have hids : (fun json => strictEquals (member json "id")
      (currentId (workerArgs state leg attempt item) "attempt_id")) ∘
        snapshotAttempt (pursuitRootPath state.ext.pursuit.id) leg = (·.id == attempt.id) := rfl
  rw [hids, hattempt]
  rfl

/-- The items of the consistent attempts, attempt by attempt or entry by entry. -/
theorem filter_flatMap_workItems (attempts : List Attempt) (shown : Attempt → WorkItem → Json)
    (version : Nat) (p : Json → Bool)
    (hp : ∀ attempt item, p (shown attempt item) = (item.legGoalVersion == version)) :
    ((attempts.filter (·.isConsistentWithLegGoal)).flatMap fun attempt =>
        attempt.workItems.map (shown attempt)).filter p =
      ((attempts.flatMap fun attempt => attempt.workItems.map (ExistingItem.mk attempt)).filter
        fun entry => entry.attempt.isConsistentWithLegGoal &&
          entry.item.legGoalVersion == version).map
            fun entry => shown entry.attempt entry.item := by
  induction attempts with
  | nil => rfl
  | cons attempt rest ih =>
    rw [List.flatMap_cons, List.filter_append, List.map_append, ← ih]
    by_cases hconsistent : attempt.isConsistentWithLegGoal = true
    · rw [List.filter_cons_of_pos hconsistent, List.flatMap_cons, List.filter_append]
      congr 1
      rw [List.filter_map, List.filter_map, List.map_map]
      congr 1
      refine List.filter_congr fun item _ => ?_
      simp [hp, hconsistent]
    · rw [List.filter_cons_of_neg hconsistent]
      simp [List.filter_map, Function.comp_def, hconsistent]

/-- The script sees the items of the consistent attempts that have the attempt's version. -/
theorem sameVersionWorkItems_workerArgs
    (hleg : state.ext.legs.find? (·.id == leg.id) = some leg)
    (hattempt : leg.attempts.find? (·.id == attempt.id) = some attempt) :
    sameVersionWorkItems (workerArgs state leg attempt item) =
      ((allExisting leg).filter fun entry => entry.attempt.isConsistentWithLegGoal &&
        entry.item.legGoalVersion == attempt.legGoalVersion).map fun entry =>
          snapshotWorkItem (pursuitRootPath state.ext.pursuit.id) leg entry.attempt entry.item := by
  unfold sameVersionWorkItems
  rw [currentAttempt_workerArgs hleg hattempt, allAttempts_workerArgs hleg]
  simp only
  have hconsistent : (fun json => truthy (member json "is_consistent_with_leg_goal")) ∘
      snapshotAttempt (pursuitRootPath state.ext.pursuit.id) leg =
        (·.isConsistentWithLegGoal) := by
    funext other
    show truthy (some (.bool other.isConsistentWithLegGoal)) = _
    cases other.isConsistentWithLegGoal <;> rfl
  rw [List.filter_map, List.flatMap_map, hconsistent]
  refine filter_flatMap_workItems leg.attempts
    (snapshotWorkItem (pursuitRootPath state.ext.pursuit.id) leg) attempt.legGoalVersion _
    fun other item => ?_
  show ((item.legGoalVersion : Rat) == (attempt.legGoalVersion : Rat)) = _
  rw [Bool.eq_iff_iff, beq_iff_eq, beq_iff_eq, Rat.natCast_inj]

/-- The work item of the dispatch, when its attempt has no other of this id. -/
theorem currentWorkItem_workerArgs (hleg : state.ext.legs.find? (·.id == leg.id) = some leg)
    (hattempt : leg.attempts.find? (·.id == attempt.id) = some attempt)
    (hitem : attempt.workItems.find? (·.id == item.id) = some item) :
    currentWorkItem (workerArgs state leg attempt item) =
      some (snapshotWorkItem (pursuitRootPath state.ext.pursuit.id) leg attempt item) := by
  have hitems : currentWorkItem (workerArgs state leg attempt item) =
      (elements ((currentAttempt (workerArgs state leg attempt item)).bind
        (member · "work_items"))).find? fun json =>
          strictEquals (member json "id") (some (.str item.id)) := rfl
  rw [hitems, currentAttempt_workerArgs hleg hattempt]
  show (attempt.workItems.map
    (snapshotWorkItem (pursuitRootPath state.ext.pursuit.id) leg attempt)).find? _ = _
  rw [List.find?_map]
  have hids : (fun json => strictEquals (member json "id") (some (.str item.id))) ∘
      snapshotWorkItem (pursuitRootPath state.ext.pursuit.id) leg attempt =
        (·.id == item.id) := rfl
  rw [hids, hitem]
  rfl

end Lookups

end EphemeralAgent.Pursuit
