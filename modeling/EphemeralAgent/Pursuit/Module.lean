import EphemeralAgent.Pursuit.Progress

/-!
# The pursuit module

The callbacks of `pursuitModule` as a `WorkflowImplementation`: what it dispatches, what it
accepts, and how a pursuit ends.
-/

namespace EphemeralAgent.Pursuit

open EphemeralAgent.Workflow

/-! ## Texts and projections -/

/-- `null` for a missing string. -/
def nullable : Option String → Json
  | some text => .str text
  | none => .null

def AttemptFailureKind.toString : AttemptFailureKind → String
  | .plannerFailed => "planner_failed"
  | .contextCompositionFailed => "context_composition_failed"
  | .failed => "failed"
  | .blockedByFailedDependency => "blocked_by_failed_dependency"

def LegOrigin.toString : LegOrigin → String
  | .initial => "initial"
  | .nextLegGoal => "next_leg_goal"
  | .predefined => "predefined"

def LegGoalMode.toString : LegGoalMode → String
  | .dynamic => "dynamic"
  | .predefined => "predefined"

def pursuitRootPath (pursuitId : String) : String := "pursuit_" ++ pursuitId

def legDirName (legId : String) : String := "leg_" ++ legId

def attemptDirPath (leg : Leg) (attempt : Attempt) : String :=
  if attempt.isConsistentWithLegGoal then legDirName leg.id ++ "/attempt_" ++ attempt.id
  else legDirName leg.id ++ "/superseded/attempt_" ++ attempt.id

def blockedByText : Option (List String) → String
  | none | some [] => "blocked by failed dependency"
  | some ids => "blocked by " ++ String.intercalate ", " (ids.map ("work_item_" ++ ·))

/-- `a ?? b`. -/
def orElse (a b : Option String) : Option String :=
  match a with
  | some text => some text
  | none => b

def formatAttemptFailureReason (reason : AttemptFailureReason) : String :=
  match reason.kind, reason.workItemId with
  | .failed, some id =>
    "work_item_" ++ id ++ " [Failed]: " ++
      (orElse reason.summary (orElse reason.outcome reason.message)).getD "(no summary)"
  | .blockedByFailedDependency, some id =>
    "work_item_" ++ id ++ " [Blocked]: " ++
      (orElse reason.summary reason.message).getD (blockedByText reason.blockedBy)
  | .contextCompositionFailed, some id =>
    "work_item_" ++ id ++ " [Context composition failed]: " ++
      reason.message.getD "(no message)"
  | .contextCompositionFailed, none =>
    "planner [Context composition failed]: " ++ reason.message.getD "(no message)"
  | _, _ => "planner [Failed]: " ++ reason.message.getD "(no message)"

def composeAttemptOutcome (attempt : Attempt) : String :=
  if attempt.workItems = [] then "# Attempt outcome\n(no work items)"
  else
    String.intercalate "\n" ("# Attempt outcome" :: attempt.workItems.map fun item =>
      "- work_item_" ++ item.id ++ " [" ++ item.status.toString ++ "]: " ++
        item.summary.getD "(no summary)")

def composeLegOutcome (leg : Leg) : String :=
  match leg.attempts.getLast? with
  | some attempt => composeAttemptOutcome attempt
  | none => "(no attempts)"

def terminalSummary (state : PursuitState) : String :=
  if state.ext.pursuit.status = .success then
    ((state.ext.legs.getLast?.bind (·.attempts.getLast?)).bind (·.plan.summary)).getD
      "pursuit completed"
  else
    let attempts := state.ext.legs.reverse.flatMap fun leg => leg.attempts.reverse
    match attempts.find? fun attempt => attempt.failureReasons.length > 0 with
    | some attempt =>
      match attempt.failureReasons with
      | reason :: _ => formatAttemptFailureReason reason
      | [] => "pursuit failed"
    | none => "pursuit failed"

def AttemptFailureReason.toJson (reason : AttemptFailureReason) : Json :=
  .obj ([("work_item_id", nullable reason.workItemId), ("kind", .str reason.kind.toString),
    ("message", nullable reason.message), ("summary", nullable reason.summary),
    ("outcome", nullable reason.outcome)] ++
    match reason.blockedBy with
    | some ids => [("blocked_by", .arr (ids.map .str))]
    | none => [])

def natural (n : Nat) : Json := .num n

def snapshotAttempt (root : String) (leg : Leg) (attempt : Attempt) : Json :=
  let contextPath := root ++ "/" ++ attemptDirPath leg attempt
  .obj
    [("id", .str attempt.id), ("sequence", natural attempt.sequence),
      ("status", .str attempt.status.toString),
      ("failure_reasons", .arr (attempt.failureReasons.map (·.toJson))),
      ("is_consistent_with_leg_goal", .bool attempt.isConsistentWithLegGoal),
      ("context_path", .str contextPath),
      ("outcome",
        if isPursuitEntityTerminal attempt.status then .str (composeAttemptOutcome attempt)
        else .null),
      ("leg_goal_version", natural attempt.legGoalVersion),
      ("plan", .obj
        [("id", .str attempt.plan.id), ("status", .str attempt.plan.status.toString),
          ("declared_leg_goal", nullable attempt.plan.declaredLegGoal),
          ("declared_next_leg_goal", nullable attempt.plan.declaredNextLegGoal),
          ("summary", nullable attempt.plan.summary), ("agent_run_id", .null),
          ("leg_goal_version", natural attempt.plan.legGoalVersion)]),
      ("work_items", .arr (attempt.workItems.map fun item => .obj
        [("id", .str item.id), ("agent_name", .str item.agentName), ("title", .str item.title),
          ("spec", .str item.spec), ("depends_on", .arr (item.dependsOn.map .str)),
          ("status", .str item.status.toString), ("summary", nullable item.summary),
          ("outcome", nullable item.outcome), ("agent_run_id", .null),
          ("context_path", .str (contextPath ++ "/work_item_" ++ item.id)),
          ("leg_goal_version", natural item.legGoalVersion)]))]

def snapshotLeg (state : PursuitState) (leg : Leg) : Json :=
  let root := pursuitRootPath state.ext.pursuit.id
  .obj
    [("id", .str leg.id), ("sequence", natural leg.sequence), ("origin", .str leg.origin.toString),
      ("status", .str leg.status.toString), ("leg_goal", .str leg.legGoal),
      ("leg_goal_version", natural leg.legGoalVersion),
      ("leg_goal_provenance", .str leg.legGoalProvenance),
      ("is_leg_goal_mutatable", .bool leg.isLegGoalMutatable),
      ("next_leg_goal", nullable leg.nextLegGoal), ("max_attempts", natural leg.maxAttempts),
      ("context_path", .str (root ++ "/" ++ legDirName leg.id)),
      ("outcome",
        if isPursuitEntityTerminal leg.status then .str (composeLegOutcome leg) else .null),
      ("attempts", .arr (leg.attempts.map (snapshotAttempt root leg)))]

def snapshotPursuitContext (state : PursuitState) : Json :=
  let pursuit := state.ext.pursuit
  .obj
    [("pursuit", .obj
      [("id", .str pursuit.id), ("goal", .str pursuit.goal),
        ("leg_goal_mode", .str pursuit.legGoalMode.toString),
        ("predefined_leg_count",
          if pursuit.legGoalMode = .predefined then natural pursuit.legGoals.length else .null),
        ("status", .str pursuit.status.toString),
        ("context_path", .str (pursuitRootPath pursuit.id)),
        ("outcome",
          if isPursuitEntityTerminal pursuit.status then .str (terminalSummary state) else .null),
        ("legs", .arr (state.ext.legs.map (snapshotLeg state)))])]

/-- `userMessage`: the sections that are not empty, in one text block. -/
def userMessage (sections : List String) : Message :=
  userText (String.intercalate "\n\n" (sections.filter (· ≠ "")))

def plannerMessages (state : PursuitState) (leg : Leg) (attempt : Attempt) : List Message :=
  let previousFailures := String.intercalate "\n"
    ((leg.attempts.filter (·.status == .failed)).map fun candidate =>
      "- attempt_" ++ candidate.id ++ ": " ++
        String.intercalate "; " (candidate.failureReasons.map formatAttemptFailureReason))
  [userMessage
    ["# Pursuit goal", state.ext.pursuit.goal, "# Current leg goal", leg.legGoal,
      "Provenance: " ++ leg.legGoalProvenance,
      match leg.nextLegGoal with
      | none => ""
      | some goal => "# Declared next leg goal\n" ++ goal,
      if previousFailures = "" then "" else "# Failed prior attempts\n" ++ previousFailures,
      "# Planner task",
      "Plan attempt " ++ toString attempt.sequence ++ ". Submit work items with stable ids, titles, specs, and dependency ids. Use leg_goal only to replace a dynamic leg goal; use next_leg_goal only to queue the next dynamic leg."]]

/-- `workItemById`. -/
def workItemById (leg : Leg) (attempt : Attempt) (id : String) : Option WorkItem :=
  ((leg.attempts.filter (·.sequence ≤ attempt.sequence)).flatMap (·.workItems)).find? fun item =>
    item.id == id && item.status == .success

def workerMessages (state : PursuitState) (leg : Leg) (attempt : Attempt) (item : WorkItem) :
    List Message :=
  let dependencies := String.intercalate "\n\n"
    ((item.dependsOn.filterMap (workItemById leg attempt)).map fun dependency =>
      String.intercalate "\n"
        ["## work_item_" ++ dependency.id, dependency.summary.getD "(no summary)",
          dependency.outcome.getD "(no outcome)"])
  [userMessage
    ["# Pursuit goal", state.ext.pursuit.goal, "# Current leg goal", leg.legGoal, "# Work item",
      "work_item_" ++ item.id ++ ": " ++ item.title, item.spec,
      if dependencies = "" then "" else "# Completed dependencies\n" ++ dependencies,
      "# Worker task",
      "Complete only this work item, then submit whether it passed, a concise summary, and the outcome."]]

/-! ## Dispatching -/

/-- `isBinding`, with the node it binds. -/
def bindingNode : Json → Option NodeDefinition
  | .obj candidate =>
    let description := Json.stringField candidate "description"
    match Json.stringField candidate "kind", Json.stringField candidate "name" with
    | some "agent", some name => some { kind := .agent, name, description }
    | some "workflow", some name => some { kind := .workflow, name, description }
    | _, _ => none
  | _ => none

/-- The two nodes of a pursuit. -/
structure NodeBindings where
  planner : NodeDefinition
  worker : NodeDefinition

/-- `definition.metadata.nodeBindings`, when it is a binding map. -/
def nodeBindings (definition : WorkflowDefinition) : Option NodeBindings := do
  let metadata ← definition.metadata
  let bindings ← (Json.field metadata "nodeBindings").bind Json.asObject
  let planner ← (Json.field bindings "planner").bind bindingNode
  let worker ← (Json.field bindings "worker").bind bindingNode
  return { planner, worker }

/-- `startFor`. -/
def startFor (node : NodeDefinition) (metadata : JsonObject) (messages : List Message)
    (args : JsonObject) (outcome : NodeOutcomeContract) : NodeStartSpec where
  node := node
  input :=
    match node.kind with
    | .agent => .agent messages (some metadata)
    | .workflow => .workflow args (some metadata)
  outcome := outcome

/-- The outcome contract of planners. -/
def plannerContract (host : Host) : NodeOutcomeContract where
  name := "submit_planner_outcome"
  description := "Submit the pursuit planner result for this attempt."
  safeParse value := (parseOrThrow host PlannerOutcomePayload.parse value).map (·.toJson)

/-- The outcome contract of workers. -/
def workerContract (host : Host) : NodeOutcomeContract where
  name := "submit_worker_outcome"
  description := "Submit the pursuit worker result for this work item."
  safeParse value := (parseOrThrow host WorkerOutcomePayload.parse value).map (·.toJson)

def plannerMetadata (leg : Leg) (attempt : Attempt) : PursuitNodeMetadata :=
  .planner leg.id attempt.id attempt.plan.id attempt.sequence

def workerMetadata (leg : Leg) (attempt : Attempt) (item : WorkItem) : PursuitNodeMetadata :=
  .worker leg.id attempt.id item.id item.key attempt.sequence

/-- `plannerDispatch`. -/
def plannerDispatch (host : Host) (state : PursuitState) (leg : Leg) (attempt : Attempt)
    (node : NodeDefinition) : WorkflowNodeDispatch :=
  let metadata := (plannerMetadata leg attempt).toJson
  { start := startFor node metadata (plannerMessages state leg attempt)
      [("kind", .str "planner"), ("pursuit_context", snapshotPursuitContext state),
        ("current", .obj
          [("pursuit_id", .str state.ext.pursuit.id), ("leg_id", .str leg.id),
            ("attempt_id", .str attempt.id), ("plan_id", .str attempt.plan.id)])]
      (plannerContract host)
    metadata := some metadata }

/-- `workerDispatch`. -/
def workerDispatch (host : Host) (state : PursuitState) (leg : Leg) (attempt : Attempt)
    (item : WorkItem) (node : NodeDefinition) : WorkflowNodeDispatch :=
  let metadata := (workerMetadata leg attempt item).toJson
  { start := startFor node metadata (workerMessages state leg attempt item)
      [("kind", .str "worker"), ("pursuit_context", snapshotPursuitContext state),
        ("current", .obj
          [("pursuit_id", .str state.ext.pursuit.id), ("leg_id", .str leg.id),
            ("attempt_id", .str attempt.id), ("work_item_id", .str item.id)])]
      (workerContract host)
    metadata := some metadata }

/-- `dependenciesSucceeded`. -/
def dependenciesSucceeded (leg : Leg) (item : WorkItem) : Bool :=
  item.dependsOn.all fun id => dependencyStatus leg item.legGoalVersion id == some .success

/-- The item can be dispatched now. -/
def dispatchable (running : RunningMetadata) (leg : Leg) (item : WorkItem) : Bool :=
  item.status == .notStarted && !running.workItems.contains item.key &&
    dependenciesSucceeded leg item

/-- The body of the loop of `dispatch`, for one leg. -/
def dispatchLeg (host : Host) (bindings : Option NodeBindings) (running : RunningMetadata)
    (state : PursuitState) (leg : Leg) : List WorkflowNodeDispatch :=
  if leg.status ≠ .running then []
  else
    match leg.attempts.getLast? with
    | none => []
    | some attempt =>
      if attempt.status ≠ .running then []
      else if attempt.plan.status = .notStarted then
        if running.plans.contains attempt.plan.id then []
        else
          match bindings with
          | some bindings => [plannerDispatch host state leg attempt bindings.planner]
          | none => []
      else if attempt.plan.status ≠ .success then []
      else
        match bindings with
        | some bindings =>
          (attempt.workItems.filter (dispatchable running leg)).map fun item =>
            workerDispatch host state leg attempt item bindings.worker
        | none => []

/-- `dispatch`. -/
def dispatch (host : Host) (definition : WorkflowDefinition) (state : PursuitState)
    (runtime : RuntimeSnapshot) : List WorkflowNodeDispatch :=
  if state.isWorkflowDone then []
  else
    state.ext.legs.flatMap
      (dispatchLeg host (nodeBindings definition) (runningMetadata runtime) state)

/-! ## Validating and ending -/

/-- `validateNodeSettlement`. -/
def validateNodeSettlement (host : Host) (state : PursuitState)
    (settlement : WorkflowNodeSettlement) : Except String ValidationResult :=
  if state.isWorkflowDone then .ok (.refused "workflow is already done")
  else
    match settlementMetadata settlement with
    | none => .ok (.refused "pursuit settlement is missing role metadata")
    | some (.planner legId attemptId _ _) =>
      match findAttempt state legId attemptId with
      | none => .ok (.refused "unknown planner attempt")
      | some (leg, attempt) =>
        if isPursuitEntityTerminal attempt.plan.status then
          .ok (.refused "planner target is already terminal")
        else
          match settlement with
          | .completed accepted => do
            let payload ← parseOrThrow host PlannerOutcomePayload.parse accepted.outcome
            match plannerSubmissionError state leg attempt payload with
            | none => return .ok
            | some error => return .refused error
          | _ => .ok .ok
    | some (.worker legId attemptId workItemId workItemKey _) =>
      match findWorkItem state legId attemptId workItemId workItemKey with
      | none => .ok (.refused "unknown worker item")
      | some (_, _, item) =>
        if isWorkItemTerminal item.status then
          .ok (.refused "worker target is already terminal")
        else .ok .ok

/-- `applyNodeSettlement`. -/
def applyNodeSettlement (host : Host) (state : PursuitState) (settlement : WorkflowNodeSettlement) :
    Except String (StateTransitionResult PursuitFields) :=
  match settlementMetadata settlement with
  | none => .ok { state }
  | some (.planner legId attemptId planId attempt) =>
    applyPlannerSettlement host state legId attemptId planId attempt settlement
  | some (.worker legId attemptId workItemId workItemKey _) =>
    applyWorkerSettlement host state legId attemptId workItemId workItemKey settlement

/-- `evaluateWorkflowProgress`. -/
def evaluateWorkflowProgress (host : Host) (stamp : Stamp) (state : PursuitState)
    (runtime : RuntimeSnapshot) : StateTransitionResult PursuitFields :=
  reconcilePursuitProgress host stamp state (runningMetadata runtime)

/-- `deadlock`. -/
def deadlock (state : PursuitState) (runtime : RuntimeSnapshot)
    (lastDispatches : List WorkflowNodeDispatch) : Option DeadlockReport :=
  if state.isWorkflowDone then none
  else if runtime.runningNodes.length > 0 then none
  else if lastDispatches.length > 0 then none
  else
    some
      { reason := "pursuit has no dispatchable node"
        details := some
          [("pursuit_id", .str state.ext.pursuit.id),
            ("latest_leg_id", nullable (state.ext.legs.getLast?.map (·.id))),
            ("lastTransition",
              match state.lastTransition with
              | some transition => .obj (("type", .str transition.type) :: transition.rest)
              | none => .obj [])] }

/-- `workflowOutcome`. -/
def workflowOutcome (state : PursuitState) : Option WorkflowOutcome :=
  if !state.isWorkflowDone then none
  else
    let summary := terminalSummary state
    let id := state.ext.pursuit.id
    if state.workflowStatus = .success then
      some (.success (some (.obj
        [("pursuit_id", .str id), ("context_path", .str (pursuitRootPath id)),
          ("summary", .str summary)])))
    else
      some (.failure (some summary) (some (.obj
        [("pursuit_id", .str id), ("context_path", .str (pursuitRootPath id)),
          ("failures", .arr (state.ext.failures.map .str))])))

/-- `pursuitModule.createImplementation()`. -/
def pursuitImplementation (host : Host) : WorkflowImplementation PursuitFields where
  createInitialState stamp _ args :=
    match PursuitArgs.parse args with
    | some args => .ok (createInitialState host stamp args)
    | none => .error (host.zodMessage (.obj args))
  dispatch _ definition state runtime := .ok (dispatch host definition state runtime)
  validateNodeSettlement _ state settlement _ := validateNodeSettlement host state settlement
  applyNodeSettlement _ state settlement _ := applyNodeSettlement host state settlement
  evaluateWorkflowProgress stamp state runtime :=
    .ok (evaluateWorkflowProgress host stamp state runtime)
  deadlock _ state runtime lastDispatches := .ok (deadlock state runtime lastDispatches)
  getWorkflowOutcome _ state := .ok (workflowOutcome state)

end EphemeralAgent.Pursuit
