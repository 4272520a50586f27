import EphemeralAgent.Pursuit.Planner

/-!
# How a pursuit goes on

`applyPlannerSettlement`, `applyWorkerSettlement` and `reconcilePursuitProgress`, with the block
propagation and the reconciliation of one leg.

A leg is addressed by its position in `state.legs`, a work item by the positions of its attempt
and of itself.
-/

namespace EphemeralAgent.Pursuit

open EphemeralAgent.Lib EphemeralAgent.Workflow

/-! ## Metadata of the pursuit's nodes -/

/-- The target of a pursuit node. -/
inductive PursuitNodeMetadata where
  | planner (legId attemptId planId : String) (attempt : Rat)
  | worker (legId attemptId workItemId workItemKey : String) (attempt : Rat)

def PursuitNodeMetadata.toJson : PursuitNodeMetadata → JsonObject
  | .planner legId attemptId planId attempt =>
    [("role", .str "planner"), ("leg_id", .str legId), ("attempt_id", .str attemptId),
      ("plan_id", .str planId), ("attempt", .num attempt)]
  | .worker legId attemptId workItemId workItemKey attempt =>
    [("role", .str "worker"), ("leg_id", .str legId), ("attempt_id", .str attemptId),
      ("work_item_id", .str workItemId), ("work_item_key", .str workItemKey),
      ("attempt", .num attempt)]

/-- The number under `key`, when there is one. -/
def numberField (object : JsonObject) (key : String) : Option Rat :=
  (Json.field object key).bind Json.asNumber

/-- `settlementMetadata`, on the metadata itself. -/
def PursuitNodeMetadata.parse (candidate : JsonObject) : Option PursuitNodeMetadata :=
  if Json.stringField candidate "role" = some "planner" then do
    let legId ← Json.stringField candidate "leg_id"
    let attemptId ← Json.stringField candidate "attempt_id"
    let planId ← Json.stringField candidate "plan_id"
    let attempt ← numberField candidate "attempt"
    return .planner legId attemptId planId attempt
  else if Json.stringField candidate "role" = some "worker" then do
    let legId ← Json.stringField candidate "leg_id"
    let attemptId ← Json.stringField candidate "attempt_id"
    let workItemId ← Json.stringField candidate "work_item_id"
    let workItemKey ← Json.stringField candidate "work_item_key"
    let attempt ← numberField candidate "attempt"
    return .worker legId attemptId workItemId workItemKey attempt
  else none

def settlementMetadata (settlement : WorkflowNodeSettlement) : Option PursuitNodeMetadata :=
  settlement.metadata.bind PursuitNodeMetadata.parse

theorem PursuitNodeMetadata.parse_toJson (metadata : PursuitNodeMetadata) :
    PursuitNodeMetadata.parse metadata.toJson = some metadata := by
  cases metadata <;>
    simp [toJson, parse, Json.stringField, Json.field, Json.asString, numberField, Json.asNumber,
      List.lookup_cons]

/-! ## Transitions -/

def bump (state : PursuitState) : PursuitState :=
  { state with version := state.version + 1 }

def withTransition (state : PursuitState) (type : String) (rest : JsonObject) :
    StateTransitionResult PursuitFields :=
  let transition : StateTransitionRecord := { type, rest }
  { state := { state with lastTransition := some transition }, transition := some transition }

/-- `settlementFailure`. -/
def settlementFailure (settlement : WorkflowNodeSettlement) (role : String) : String :=
  match settlement with
  | .completed _ => role ++ " completed"
  | .cancelled _ _ reason => role ++ " cancelled: " ++ reason.getD "cancelled"
  | .failed _ _ reason => role ++ " failed: " ++ reason
  | .rejected _ _ reason => role ++ " rejected: " ++ reason

/-- `plannerFailureReason`. -/
def plannerFailureReason (message : String) : AttemptFailureReason where
  workItemId := none
  kind :=
    if "context_script_error:".toList.isPrefixOf message.toList then .contextCompositionFailed
    else .plannerFailed
  message := some message
  summary := none
  outcome := none

/-- `findAttempt`. -/
def findAttempt (state : PursuitState) (legId attemptId : String) : Option (Leg × Attempt) := do
  let leg ← state.ext.legs.find? (·.id == legId)
  let attempt ← leg.attempts.find? (·.id == attemptId)
  return (leg, attempt)

/-- `findWorkItem`. -/
def findWorkItem (state : PursuitState) (legId attemptId workItemId workItemKey : String) :
    Option (Leg × Attempt × WorkItem) := do
  let (leg, attempt) ← findAttempt state legId attemptId
  let item ← attempt.workItems.find? fun item => item.id == workItemId && item.key == workItemKey
  return (leg, attempt, item)

/-- Change the leg with this id. -/
def PursuitState.updateLeg (state : PursuitState) (legId : String) (f : Leg → Leg) :
    PursuitState :=
  { state with ext := { state.ext with legs := updateFirst (·.id == legId) f state.ext.legs } }

/-- Change the attempt with this id. -/
def Leg.updateAttempt (leg : Leg) (attemptId : String) (f : Attempt → Attempt) : Leg :=
  { leg with attempts := updateFirst (·.id == attemptId) f leg.attempts }

def PursuitState.pushFailure (state : PursuitState) (reason : String) : PursuitState :=
  { state with ext := { state.ext with failures := state.ext.failures ++ [reason] } }

/-! ## Planner settlements -/

/-- What a planner's outcome does to the goal of its leg. -/
def Leg.declareGoal (leg : Leg) (attemptId : String) (payload : PlannerOutcomePayload) : Leg :=
  match payload.legGoal with
  | some goal =>
    { leg with
      legGoalVersion := leg.legGoalVersion + 1
      legGoal := goal.val
      legGoalProvenance := "declared by attempt_" ++ attemptId ++ " planner"
      nextLegGoal := payload.nextLegGoal.map (·.val)
      attempts := leg.attempts.map fun candidate =>
        { candidate with isConsistentWithLegGoal := candidate.id == attemptId } }
  | none =>
    match payload.nextLegGoal with
    | some goal => { leg with nextLegGoal := some goal.val }
    | none => leg

/-- A submitted work item, as the attempt keeps it. -/
def submittedItem (legId : String) (legGoalVersion : Nat) (spec : PlannerWorkItemSpec) :
    WorkItem where
  key := workItemKey legId legGoalVersion spec.id.val
  id := spec.id.val
  agentName := spec.agentName.val
  status := .notStarted
  title := spec.title.val
  spec := spec.spec.val
  dependsOn := spec.dependsOn.map (·.val)
  legGoalVersion := legGoalVersion
  summary := none
  outcome := none

/-- What a planner's outcome does to its attempt, in a leg with this id and goal version. -/
def Attempt.planSubmitted (attempt : Attempt) (legId : String) (legGoalVersion : Nat)
    (payload : PlannerOutcomePayload) : Attempt :=
  { attempt with
    legGoalVersion := if payload.legGoal.isSome then legGoalVersion else attempt.legGoalVersion
    plan :=
      { attempt.plan with
        status := .success
        declaredLegGoal := payload.legGoal.map (·.val)
        declaredNextLegGoal := payload.nextLegGoal.map (·.val)
        legGoalVersion
        summary := some payload.summary.val }
    workItems := attempt.workItems ++ payload.workItems.map (submittedItem legId legGoalVersion) }

/-- The plan of the attempt has failed. -/
def Attempt.planFailed (attempt : Attempt) (reason : String) : Attempt :=
  { attempt with
    plan := { attempt.plan with status := .failed }
    failureReasons := [plannerFailureReason reason] }

/-- `applyPlannerSettlement`. -/
def applyPlannerSettlement (host : Host) (state : PursuitState)
    (legId attemptId planId : String) (attemptNumber : Rat) (settlement : WorkflowNodeSettlement) :
    Except String (StateTransitionResult PursuitFields) :=
  match findAttempt state legId attemptId with
  | none => .ok { state }
  | some (_, located) =>
    match settlement with
    | .completed accepted => do
      let payload ← parseOrThrow host PlannerOutcomePayload.parse accepted.outcome
      let next := state.updateLeg legId fun leg =>
        let leg := leg.declareGoal located.id payload
        leg.updateAttempt attemptId (·.planSubmitted leg.id leg.legGoalVersion payload)
      return withTransition (bump next) "pursuit_planner_submitted"
        [("plan_id", .str planId), ("attempt", .num attemptNumber)]
    | settlement =>
      let reason := settlementFailure settlement "planner"
      let next := (state.updateLeg legId fun leg =>
        leg.updateAttempt attemptId (·.planFailed reason)).pushFailure reason
      .ok (withTransition (bump next) "pursuit_planner_failed"
        [("plan_id", .str planId), ("reason", .str reason)])

/-! ## Worker settlements -/

/-- Change the work item with this id and key. -/
def Attempt.updateWorkItem (attempt : Attempt) (workItemId workItemKey : String)
    (f : WorkItem → WorkItem) : Attempt :=
  { attempt with
    workItems := updateFirst (fun item => item.id == workItemId && item.key == workItemKey) f
      attempt.workItems }

/-- The item has ended with this status. -/
def WorkItem.close (item : WorkItem) (status : WorkItemRunStatus) (summary outcome : String) :
    WorkItem :=
  { item with status, summary := some summary, outcome := some outcome }

/-- `applyWorkerSettlement`. -/
def applyWorkerSettlement (host : Host) (state : PursuitState)
    (legId attemptId workItemId workItemKey : String) (settlement : WorkflowNodeSettlement) :
    Except String (StateTransitionResult PursuitFields) :=
  match findWorkItem state legId attemptId workItemId workItemKey with
  | none => .ok { state }
  | some (_, _, item) =>
    let closeItem (status : WorkItemRunStatus) (summary outcome : String) : PursuitState :=
      state.updateLeg legId fun leg => leg.updateAttempt attemptId fun attempt =>
        attempt.updateWorkItem workItemId workItemKey (·.close status summary outcome)
    match settlement with
    | .completed accepted => do
      let payload ← parseOrThrow host WorkerOutcomePayload.parse accepted.outcome
      let status : WorkItemRunStatus := if payload.isPass then .success else .failed
      return withTransition (bump (closeItem status payload.summary.val payload.outcome.val))
        "pursuit_worker_submitted"
        [("work_item_id", .str item.id), ("status", .str status.toString)]
    | settlement =>
      let reason := settlementFailure settlement "worker"
      .ok (withTransition (bump ((closeItem .failed reason reason).pushFailure reason))
        "pursuit_worker_failed" [("work_item_id", .str item.id), ("reason", .str reason)])

/-! ## Block propagation -/

/-- `dependencyBlocks`. -/
def dependencyBlocks : Option WorkItemRunStatus → Bool
  | some .failed | some .blocked => true
  | _ => false

/-- The dependencies that block an item. -/
def blockedBy (leg : Leg) (item : WorkItem) : List String :=
  item.dependsOn.filter fun id => dependencyBlocks (dependencyStatus leg item.legGoalVersion id)

/-- `blockedSummary`. -/
def blockedSummary (blockedBy : List String) : String :=
  "blocked by " ++ String.intercalate ", " (blockedBy.map ("work_item_" ++ ·))

/-- Change the work item at a position. -/
def Leg.modifyItem (leg : Leg) (attempt item : Nat) (f : WorkItem → WorkItem) : Leg :=
  { leg with
    attempts := leg.attempts.modify attempt fun a =>
      { a with workItems := a.workItems.modify item f } }

/-- The work item at a position. -/
def Leg.item? (leg : Leg) (attempt item : Nat) : Option WorkItem := do
  let a ← leg.attempts[attempt]?
  a.workItems[item]?

/-- The positions of the work items of a leg, in the order of the loops. -/
def Leg.positions (leg : Leg) : List (Nat × Nat) :=
  leg.attempts.zipIdx.flatMap fun (attempt, index) =>
    (List.range attempt.workItems.length).map (index, ·)

/-- The item can be blocked now: it waits, and a dependency of it has failed. -/
def blockable (running : RunningMetadata) (leg : Leg) (item : WorkItem) : Bool :=
  item.status == .notStarted && !running.workItems.contains item.key &&
    !(blockedBy leg item).isEmpty

/-- The body of the inner loop of `propagateDependencyBlocks`. -/
def blockAt (running : RunningMetadata) (leg : Leg) (position : Nat × Nat) : Leg × Bool :=
  match leg.item? position.1 position.2 with
  | none => (leg, false)
  | some item =>
    if blockable running leg item then
      let summary := blockedSummary (blockedBy leg item)
      (leg.modifyItem position.1 position.2 (·.close .blocked summary summary), true)
    else (leg, false)

/-- One pass of the outer loop, and whether it changed anything. -/
def propagatePass (running : RunningMetadata) (leg : Leg) : Leg × Bool :=
  leg.positions.foldl (fun (leg, changed) position =>
    let (leg, blocked) := blockAt running leg position
    (leg, changed || blocked)) (leg, false)

/-- The outer loop of `propagateDependencyBlocks`. -/
def propagateLoop (running : RunningMetadata) : Nat → Leg → Leg × Bool
  | 0, leg => (leg, false)
  | fuel + 1, leg =>
    let (leg, changed) := propagatePass running leg
    if changed then ((propagateLoop running fuel leg).1, true) else (leg, false)

/-- `propagateDependencyBlocks`; every pass but the last blocks an item. -/
def propagateDependencyBlocks (running : RunningMetadata) (leg : Leg) : Leg × Bool :=
  propagateLoop running (leg.workItems.countP (·.status == .notStarted) + 1) leg

/-! ## Reconciliation -/

/-- `effectiveWorkItemStatus`. -/
def effectiveWorkItemStatus (item : WorkItem) (running : RunningMetadata) : WorkItemRunStatus :=
  if item.status = .notStarted ∧ running.workItems.contains item.key then .running
  else item.status

/-- `itemFailureReasons`. -/
def itemFailureReasons (items : List WorkItem) (leg : Leg) : List AttemptFailureReason :=
  (items.filter fun item => item.status == .failed || item.status == .blocked).map fun item =>
    if item.status = .blocked then
      let blocking := blockedBy leg item
      { workItemId := some item.id
        kind := .blockedByFailedDependency
        message := if blocking.length > 0 then some (blockedSummary blocking) else none
        summary := item.summary
        outcome := item.outcome
        blockedBy := if blocking.length > 0 then some blocking else none }
    else
      { workItemId := some item.id
        kind := .failed
        message := none
        summary := item.summary
        outcome := item.outcome }

/-- `nextLegInit`. -/
def nextLegInit (state : PursuitState) (leg : Leg) : Option LegInit :=
  match state.ext.pursuit.legGoalMode with
  | .dynamic =>
    leg.nextLegGoal.map fun goal =>
      { sequence := leg.sequence + 1
        origin := .nextLegGoal
        legGoal := goal
        legGoalProvenance := "inherited from successful leg_" ++ toString leg.sequence ++
          " next_leg_goal"
        isLegGoalMutatable := true
        nextLegGoal := none
        maxAttempts := leg.maxAttempts }
  | .predefined =>
    state.ext.pursuit.legGoals[leg.sequence]?.map fun goal =>
      { sequence := leg.sequence + 1
        origin := .predefined
        legGoal := goal
        legGoalProvenance := "predefined leg_goal[" ++ toString (leg.sequence + 1) ++ "]"
        isLegGoalMutatable := false
        nextLegGoal := state.ext.pursuit.legGoals[leg.sequence + 1]?
        maxAttempts := leg.maxAttempts }

/-- `closePursuit`. -/
def closePursuit (host : Host) (stamp : Stamp) (state : PursuitState)
    (status : PursuitEntityRunStatus) : PursuitState :=
  { state with
    isWorkflowDone := true
    workflowStatus := if status = .success then .success else .failure
    ext :=
      { state.ext with
        pursuit := { state.ext.pursuit with status, closedAt := some (host.now stamp) } } }

/-- Put a leg back at its position. -/
def PursuitState.setLeg (state : PursuitState) (index : Nat) (leg : Leg) : PursuitState :=
  { state with ext := { state.ext with legs := state.ext.legs.set index leg } }

def PursuitState.pushLeg (state : PursuitState) (leg : Leg) : PursuitState :=
  { state with ext := { state.ext with legs := state.ext.legs ++ [leg] } }

/-- The status that the last attempt of a leg gets, if it is over, and why it failed. -/
def nextAttemptStatus (leg : Leg) (attempt : Attempt) (running : RunningMetadata) :
    Option (PursuitEntityRunStatus × List AttemptFailureReason) :=
  let effective (item : WorkItem) := effectiveWorkItemStatus item running
  if attempt.plan.status = .failed then some (.failed, attempt.failureReasons)
  else if attempt.plan.status = .success ∧ attempt.workItems.length > 0 ∧
      (attempt.workItems.all fun item => effective item == .success) then
    some (.success, [])
  else if attempt.plan.status = .success ∧
      (attempt.workItems.any fun item => item.status == .failed || item.status == .blocked) ∧
      (attempt.workItems.all fun item => isWorkItemTerminal (effective item)) then
    some (.failed, itemFailureReasons attempt.workItems leg)
  else none

/-- The last attempt of the leg gets its final status. -/
def Leg.closeAttempt (leg : Leg) (status : PursuitEntityRunStatus)
    (failureReasons : List AttemptFailureReason) : Leg :=
  { leg with
    attempts := leg.attempts.modify (leg.attempts.length - 1) fun attempt =>
      { attempt with status, failureReasons } }

/-- `reconcileLeg`, for the leg at a position.  The identifiers minted for different legs have
different indices. -/
def reconcileLeg (host : Host) (stamp : Stamp) (running : RunningMetadata) (index : Nat)
    (leg : Leg) (state : PursuitState) : PursuitState × Bool :=
  match leg.attempts.getLast? with
  | none => (state, false)
  | some attempt =>
    if isPursuitEntityTerminal attempt.status then (state, false)
    else
      match nextAttemptStatus leg attempt running with
      | none => (state, false)
      | some (.failed, failureReasons) =>
        let leg := leg.closeAttempt .failed failureReasons
        let reason := (failureReasons.head?.bind (·.message)).getD "attempt failed"
        let state := state.pushFailure reason
        if leg.attempts.length < leg.maxAttempts then
          let retry := createAttempt host stamp (3 * index) (leg.attempts.length + 1)
            leg.legGoalVersion
          (state.setLeg index { leg with attempts := leg.attempts ++ [retry] }, true)
        else
          (closePursuit host stamp (state.setLeg index { leg with status := .failed }) .failed,
            true)
      | some (status, failureReasons) =>
        let leg := { leg.closeAttempt status failureReasons with status := .success }
        let state := state.setLeg index leg
        match nextLegInit state leg with
        | some nextLeg => (state.pushLeg (createLeg host stamp (3 * index) nextLeg), true)
        | none => (closePursuit host stamp state .success, true)

/-- The loop of `reconcilePursuitProgress`, from a position on.  It visits legs that it has
pushed itself. -/
def reconcileLegs (host : Host) (stamp : Stamp) (running : RunningMetadata) :
    Nat → Nat → PursuitState → PursuitState × Bool
  | 0, _, state => (state, false)
  | fuel + 1, index, state =>
    match state.ext.legs[index]? with
    | none => (state, false)
    | some leg =>
      if leg.status ≠ .running then reconcileLegs host stamp running fuel (index + 1) state
      else
        let (leg, blocked) := propagateDependencyBlocks running leg
        let (state, reconciled) :=
          reconcileLeg host stamp running index leg (state.setLeg index leg)
        let (state, rest) := reconcileLegs host stamp running fuel (index + 1) state
        (state, reconciled || blocked || rest)

/-- `reconcilePursuitProgress`; a leg pushes at most one leg, and a pushed leg none. -/
def reconcilePursuitProgress (host : Host) (stamp : Stamp) (state : PursuitState)
    (running : RunningMetadata) : StateTransitionResult PursuitFields :=
  if state.isWorkflowDone then { state }
  else
    let (next, changed) :=
      reconcileLegs host stamp running (2 * state.ext.legs.length) 0 state
    if !changed then { state }
    else
      withTransition (bump next)
        (if next.isWorkflowDone then "pursuit_finished" else "pursuit_progressed")
        [("status", .str next.ext.pursuit.status.toString),
          ("latest_leg_id",
            match next.ext.legs.getLast? with
            | some leg => .str leg.id
            | none => .null)]

end EphemeralAgent.Pursuit
