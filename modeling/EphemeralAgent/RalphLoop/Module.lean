import EphemeralAgent.Pursuit.Module

/-!
# The ralph loop module

`.ephai/agentic-workflows/ralph_loop/workflow.mjs`: every attempt goes through a planner, a
reviewer and a critic, and starts over with the planner when one of them fails.

The schema readers and `isBinding` are those of the pursuit; `zodMessage` gives the texts of Zod's
errors.
-/

namespace EphemeralAgent.RalphLoop

open EphemeralAgent.Workflow
open EphemeralAgent.Pursuit (NonEmptyString nonEmptyString optionalField requiredField onlyKeys
  positiveInt boolean natural bindingNode)

/-! ## Data -/

inductive Phase where
  | planner
  | reviewer
  | critic
  | done
  deriving DecidableEq, Repr

/-- The phase as the source spells it. -/
def Phase.toString : Phase → String
  | .planner => "planner"
  | .reviewer => "reviewer"
  | .critic => "critic"
  | .done => "done"

/-- `RalphArgsSchema`. -/
structure RalphArgs where
  maxAttempts : Nat

def RalphArgs.parse (object : JsonObject) : Option RalphArgs := do
  if !onlyKeys object ["max_attempts"] then none
  let maxAttempts ← optionalField positiveInt object "max_attempts"
  return { maxAttempts := maxAttempts.getD 3 }

/-- The payload of one role; its text is the plan, the review or the verdict. -/
structure Payload where
  pass : Bool
  text : NonEmptyString
  summary : NonEmptyString

/-- The key of the text in the payloads of a role. -/
def Phase.textKey : Phase → String
  | .planner => "plan"
  | .reviewer => "review"
  | _ => "verdict"

/-- `PlannerPayloadSchema`, `ReviewerPayloadSchema` and `CriticPayloadSchema`. -/
def Payload.parse (phase : Phase) : Json → Option Payload
  | .obj object => do
    if !onlyKeys object ["pass", phase.textKey, "summary"] then none
    let pass ← requiredField boolean object "pass"
    let text ← requiredField nonEmptyString object phase.textKey
    let summary ← requiredField nonEmptyString object "summary"
    return { pass, text, summary }
  | _ => none

/-- The value that the schema returns. -/
def Payload.toJson (phase : Phase) (payload : Payload) : Json :=
  .obj
    [("pass", .bool payload.pass), (phase.textKey, .str payload.text.val),
      ("summary", .str payload.summary.val)]

/-- `schema.parse`, which throws. -/
def parseOrThrow {α : Type} (zodMessage : Json → String) (parse : Json → Option α) (value : Json) :
    Except String α :=
  match parse value with
  | some a => .ok a
  | none => .error (zodMessage value)

/-- What the schemas return, they accept. -/
@[simp] theorem Payload.parse_toJson (phase : Phase) (payload : Payload) :
    Payload.parse phase (payload.toJson phase) = some payload := by
  obtain ⟨pass, text, summary⟩ := payload
  cases phase <;>
    simp [toJson, parse, onlyKeys, requiredField, Json.field, List.lookup_cons, boolean,
      Phase.textKey]

/-- The loop's own fields of its workflow state. -/
structure RalphFields where
  attempt : Nat
  maxAttempts : Nat
  phase : Phase
  planner : Option Payload := none
  reviewer : Option Payload := none
  critic : Option Payload := none
  failures : List String := []

abbrev RalphState := WorkflowState RalphFields

/-! ## Transitions -/

/-- `createInitialState`. -/
def createInitialState (args : RalphArgs) : RalphState where
  version := 0
  isWorkflowDone := false
  workflowStatus := .running
  ext := { attempt := 1, maxAttempts := args.maxAttempts, phase := .planner }

/-- `withTransition`. -/
def withTransition (state : RalphState) (type : String) (rest : JsonObject) :
    StateTransitionResult RalphFields :=
  let transition : StateTransitionRecord := { type, rest }
  { state := { state with lastTransition := some transition }, transition := some transition }

/-- `advance`. -/
def advance (state : RalphState) (phase : Phase) (type : String) :
    StateTransitionResult RalphFields :=
  withTransition { state with ext := { state.ext with phase } } type
    [("attempt", natural state.ext.attempt), ("phase", .str phase.toString)]

/-- `retryOrFail`. -/
def retryOrFail (state : RalphState) (reason : String) : StateTransitionResult RalphFields :=
  let failures :=
    if reason ∈ state.ext.failures then state.ext.failures else state.ext.failures ++ [reason]
  if state.ext.attempt < state.ext.maxAttempts then
    withTransition
      { state with
        ext :=
          { state.ext with
            attempt := state.ext.attempt + 1
            phase := .planner
            planner := none
            reviewer := none
            critic := none
            failures } }
      "ralph_retrying" [("attempt", natural (state.ext.attempt + 1)), ("reason", .str reason)]
  else
    withTransition
      { state with
        isWorkflowDone := true
        workflowStatus := .failure
        ext := { state.ext with failures } }
      "ralph_failed" [("attempt", natural state.ext.attempt), ("reason", .str reason)]

/-- `transitionReason`. -/
def transitionReason (transition : StateTransitionRecord) : String :=
  (Json.stringField transition.rest "reason").getD "node failed"

/-! ## Settlements -/

/-- `settlementRole`. -/
def settlementRole (settlement : WorkflowNodeSettlement) : Option String :=
  settlement.metadata.bind fun metadata => Json.stringField metadata "role"

/-- `settlementFailure`. -/
def settlementFailure (settlement : WorkflowNodeSettlement) (phase : Phase) : Option String :=
  match settlement with
  | .completed _ => none
  | .cancelled _ _ reason => some (phase.toString ++ " cancelled: " ++ reason.getD "cancelled")
  | .rejected _ _ reason => some (phase.toString ++ " rejected: " ++ reason)
  | .failed _ _ reason => some (phase.toString ++ " failed: " ++ reason)

def validateNodeSettlement (state : RalphState) (settlement : WorkflowNodeSettlement) :
    ValidationResult :=
  let role := settlementRole settlement
  if state.ext.phase = .done then .refused "workflow is already done"
  else if role ≠ some state.ext.phase.toString then
    .refused ("settlement role \"" ++ role.getD "unknown" ++ "\" does not match phase \"" ++
      state.ext.phase.toString ++ "\"")
  else .ok

/-- The payload of the phase is stored. -/
def RalphFields.store (fields : RalphFields) (payload : Payload) : RalphFields :=
  match fields.phase with
  | .planner => { fields with planner := some payload }
  | .reviewer => { fields with reviewer := some payload }
  | _ => { fields with critic := some payload }

/-- The transition that stores the payload of a phase. -/
def submittedTransition : Phase → String
  | .planner => "ralph_planner_submitted"
  | .reviewer => "ralph_reviewer_submitted"
  | _ => "ralph_critic_submitted"

def applyNodeSettlement (zodMessage : Json → String) (state : RalphState)
    (settlement : WorkflowNodeSettlement) : Except String (StateTransitionResult RalphFields) :=
  let phase := state.ext.phase
  if phase = .done then .ok { state }
  else
    match settlementFailure settlement phase with
    | some failure =>
      .ok (withTransition
        { state with
          version := state.version + 1
          ext := { state.ext with failures := state.ext.failures ++ [failure] } }
        "ralph_node_failed"
        [("phase", .str phase.toString), ("attempt", natural state.ext.attempt),
          ("reason", .str failure)])
    | none =>
      match settlement with
      | .completed accepted => do
        let payload ← parseOrThrow zodMessage (Payload.parse phase) accepted.outcome
        return withTransition
          { state with version := state.version + 1, ext := state.ext.store payload }
          (submittedTransition phase) [("attempt", natural state.ext.attempt)]
      | _ => .ok { state }

/-! ## Progress -/

/-- A phase whose payload is there: the next phase, or another attempt. -/
def reviewPhase (state : RalphState) (payload : Payload)
    (passed : StateTransitionResult RalphFields) : StateTransitionResult RalphFields :=
  if payload.pass then passed
  else retryOrFail state (state.ext.phase.toString ++ " failed: " ++ payload.summary.val)

/-- The phase goes on once its payload is there. -/
def evaluatePhase (state : RalphState) : StateTransitionResult RalphFields :=
  match state.ext.phase, state.ext.planner, state.ext.reviewer, state.ext.critic with
  | .planner, some payload, _, _ =>
    reviewPhase state payload (advance state .reviewer "ralph_planner_passed")
  | .reviewer, _, some payload, _ =>
    reviewPhase state payload (advance state .critic "ralph_reviewer_passed")
  | .critic, _, _, some payload =>
    reviewPhase state payload
      (withTransition
        { state with
          isWorkflowDone := true
          workflowStatus := .success
          ext := { state.ext with phase := .done } }
        "ralph_succeeded" [("attempt", natural state.ext.attempt)])
  | _, _, _, _ => { state }

def evaluateWorkflowProgress (state : RalphState) : StateTransitionResult RalphFields :=
  if state.isWorkflowDone ∨ state.ext.phase = .done then { state }
  else
    match state.lastTransition.filter (·.type = "ralph_node_failed") with
    | some transition => retryOrFail state (transitionReason transition)
    | none => evaluatePhase state

/-! ## Dispatching -/

/-- `bindingFor`: the node of a phase, when every role is bound. -/
def bindingFor (definition : WorkflowDefinition) (phase : Phase) : Option NodeDefinition := do
  let metadata ← definition.metadata
  let bindings ← (Json.field metadata "nodeBindings").bind Json.asObject
  let planner ← (Json.field bindings "planner").bind bindingNode
  let reviewer ← (Json.field bindings "reviewer").bind bindingNode
  let critic ← (Json.field bindings "critic").bind bindingNode
  match phase with
  | .planner => some planner
  | .reviewer => some reviewer
  | .critic => some critic
  | .done => none

/-- `outcomeFor`. -/
def outcomeFor (zodMessage : Json → String) (phase : Phase) : NodeOutcomeContract :=
  let role := match phase with
    | .planner => "planner"
    | .reviewer => "reviewer"
    | _ => "critic"
  { name := "submit_" ++ role ++ "_ralph_outcome"
    description := "Submit the Ralph " ++ role ++ " result for this attempt."
    safeParse value := (parseOrThrow zodMessage (Payload.parse phase) value).map (·.toJson phase) }

/-- The metadata of a node. -/
def nodeMetadata (phase : Phase) (attempt : Nat) : JsonObject :=
  [("role", .str phase.toString), ("attempt", natural attempt)]

/-- `payload?.plan ?? ""` and the like. -/
def textOf (payload : Option Payload) : String :=
  (payload.map (·.text.val)).getD ""

/-- `buildMessages`. -/
def buildMessages (state : RalphState) : List Message :=
  let fields := state.ext
  let attempt := "Attempt " ++ toString fields.attempt
  [userText
    (match fields.phase with
    | .planner => attempt ++ ": produce a concise implementation plan."
    | .reviewer =>
      attempt ++ ": review this plan and decide whether it passes.\n\n" ++ textOf fields.planner
    | _ =>
      attempt ++ ": critique the accepted plan and review.\n\nPlan: " ++ textOf fields.planner ++
        "\nReview: " ++ textOf fields.reviewer)]

/-- A payload in the arguments of a nested workflow. -/
def payloadArg (phase : Phase) (payload : Option Payload) : Json :=
  (payload.map (·.toJson phase)).getD .null

/-- `startFor`. -/
def startFor (zodMessage : Json → String) (state : RalphState) (node : NodeDefinition) :
    NodeStartSpec :=
  let fields := state.ext
  let metadata := nodeMetadata fields.phase fields.attempt
  { node
    input :=
      match node.kind with
      | .agent => .agent (buildMessages state) (some metadata)
      | .workflow =>
        .workflow
          [("phase", .str fields.phase.toString), ("attempt", natural fields.attempt),
            ("planner", payloadArg .planner fields.planner),
            ("reviewer", payloadArg .reviewer fields.reviewer)]
          (some metadata)
    outcome := outcomeFor zodMessage fields.phase }

def dispatch (zodMessage : Json → String) (definition : WorkflowDefinition) (state : RalphState)
    (runtime : RuntimeSnapshot) : List WorkflowNodeDispatch :=
  if state.isWorkflowDone ∨ state.ext.phase = .done then []
  else if runtime.runningNodes.length > 0 then []
  else
    match bindingFor definition state.ext.phase with
    | none => []
    | some node =>
      [{ start := startFor zodMessage state node
         metadata := some (nodeMetadata state.ext.phase state.ext.attempt) }]

/-! ## The end -/

/-- The last transition; an empty object when there is none. -/
def lastTransitionJson (state : RalphState) : JsonObject :=
  match state.lastTransition with
  | some transition => ("type", .str transition.type) :: transition.rest
  | none => []

def deadlock (state : RalphState) (runtime : RuntimeSnapshot)
    (lastDispatches : List WorkflowNodeDispatch) : Option DeadlockReport :=
  if state.isWorkflowDone then none
  else if runtime.runningNodes.length > 0 then none
  else if lastDispatches.length > 0 then none
  else
    some
      { reason := "ralph loop has no dispatchable node"
        details := some
          [("attempt", natural state.ext.attempt), ("phase", .str state.ext.phase.toString),
            ("lastTransition", .obj (lastTransitionJson state))] }

/-- `payload?.summary ?? ""`. -/
def summaryOf (payload : Option Payload) : Json :=
  .str ((payload.map (·.summary.val)).getD "")

def workflowOutcome (state : RalphState) : Option WorkflowOutcome :=
  if !state.isWorkflowDone then none
  else if state.workflowStatus = .success then
    some (.success (some (.obj
      [("planner_summary", summaryOf state.ext.planner),
        ("reviewer_summary", summaryOf state.ext.reviewer),
        ("critic_summary", summaryOf state.ext.critic)])))
  else
    some (.failure (some ("ralph failed after " ++ toString state.ext.attempt ++ " attempt(s)"))
      (some (.obj
        [("attempts", natural state.ext.attempt),
          ("failures", .arr (state.ext.failures.map .str))])))

/-- `ralphLoopModule.createImplementation()`. -/
def ralphImplementation (zodMessage : Json → String) : WorkflowImplementation RalphFields where
  createInitialState _ _ args :=
    match RalphArgs.parse args with
    | some args => .ok (createInitialState args)
    | none => .error (zodMessage (.obj args))
  dispatch _ definition state runtime := .ok (dispatch zodMessage definition state runtime)
  validateNodeSettlement _ state settlement _ := .ok (validateNodeSettlement state settlement)
  applyNodeSettlement _ state settlement _ := applyNodeSettlement zodMessage state settlement
  evaluateWorkflowProgress _ state _ := .ok (evaluateWorkflowProgress state)
  deadlock _ state runtime lastDispatches := .ok (deadlock state runtime lastDispatches)
  getWorkflowOutcome _ state := .ok (workflowOutcome state)

end EphemeralAgent.RalphLoop
