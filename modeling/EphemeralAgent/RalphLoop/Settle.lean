import EphemeralAgent.RalphLoop.Protocol

/-!
# The ralph loop follows its protocol

* `Stands` — the state of the loop that belongs to a position
* `settle_stands` — a settlement of the node that runs takes the state to the next position
* `dispatch_stands` — at an idle position the loop dispatches the node of the position
-/

namespace EphemeralAgent.RalphLoop

open EphemeralAgent.Workflow
open EphemeralAgent.Pursuit (natural boolean requiredField nonEmptyString onlyKeys)

/-! ## Nodes and their settlements -/

/-- The metadata that a node is dispatched with. -/
def RalphNode.metadata (node : RalphNode) : Option JsonObject :=
  some (nodeMetadata node.role node.attempt)

def Phase.parse : String → Option Phase
  | "planner" => some .planner
  | "reviewer" => some .reviewer
  | "critic" => some .critic
  | "done" => some .done
  | _ => none

/-- The node that metadata stand for. -/
def RalphNode.parse (metadata : Option JsonObject) : Option RalphNode := do
  let metadata ← metadata
  let role ← (Json.stringField metadata "role").bind Phase.parse
  let attempt ← (Json.field metadata "attempt").bind Json.asNumber
  return { role, attempt := attempt.num.toNat }

@[simp] theorem RalphNode.parse_metadata (node : RalphNode) :
    RalphNode.parse node.metadata = some node := by
  obtain ⟨role, attempt⟩ := node
  cases role <;>
    simp [RalphNode.metadata, RalphNode.parse, nodeMetadata, Json.stringField, Json.field,
      Json.asString, Json.asNumber, List.lookup_cons, Phase.toString, Phase.parse, natural]

/-- The settlement is an outcome whose payload says that it passed. -/
def passes : WorkflowNodeSettlement → Bool
  | .completed accepted =>
    match accepted.outcome with
    | .obj object => ((Json.field object "pass").bind boolean).getD false
    | _ => false
  | _ => false

/-- A settlement of this node; an outcome is a value of the node's schema. -/
structure SettlementOf (node : RalphNode) (settlement : WorkflowNodeSettlement) : Prop where
  metadata : settlement.metadata = node.metadata
  payload : ∀ accepted, settlement = .completed accepted →
    ∃ payload, accepted.outcome = Payload.toJson node.role payload

/-! ## States and positions -/

/-- The loop goes on with this node. -/
structure Loops (maxAttempts : Nat) (state : RalphState) (node : RalphNode) : Prop where
  notDone : state.isWorkflowDone = false
  status : state.workflowStatus = .running
  role : node.role ≠ .done
  phase : state.ext.phase = node.role
  attempt : state.ext.attempt = node.attempt
  maxAttempts : state.ext.maxAttempts = maxAttempts

/-- The loop has ended in this attempt. -/
structure Ends (state : RalphState) (attempt : Nat) (status : WorkflowStatus) : Prop where
  done : state.isWorkflowDone = true
  status : state.workflowStatus = status
  attempt : state.ext.attempt = attempt

/-- The state belongs to the position; a node that runs does not show in it. -/
def Stands (maxAttempts : Nat) (state : RalphState) : Position → Prop
  | .idle node | .running node => Loops maxAttempts state node
  | .succeeded attempt => Ends state attempt .success
  | .failed attempt => Ends state attempt .failure

/-- Where a node that has ended leaves the loop. -/
def RalphNode.settled (maxAttempts : Nat) (node : RalphNode) (passed : Bool) : Position :=
  if passed then node.passed else node.failed maxAttempts

section Stands

variable {zodMessage : Json → String} {maxAttempts : Nat} {state : RalphState} {node : RalphNode}

theorem stands_createInitialState (args : RalphArgs) :
    Stands args.maxAttempts (createInitialState args) (.idle { role := .planner, attempt := 1 }) :=
  ⟨rfl, rfl, by simp, rfl, rfl, rfl⟩

theorem Loops.retryOrFail (h : Loops maxAttempts state node) (reason : String) :
    Stands maxAttempts (retryOrFail state reason).state (node.failed maxAttempts) := by
  unfold RalphLoop.retryOrFail RalphNode.failed
  rw [h.attempt, h.maxAttempts]
  by_cases hmore : node.attempt < maxAttempts
  · rw [if_pos hmore, if_pos hmore]
    exact ⟨h.notDone, h.status, by simp, rfl, rfl, h.maxAttempts⟩
  · rw [if_neg hmore, if_neg hmore]
    exact ⟨rfl, rfl, h.attempt⟩

/-- The payload of the phase decides where the loop goes on. -/
theorem Loops.evaluatePhase (h : Loops maxAttempts state node) {payload : Payload}
    {fields : RalphFields} (hfields : state.ext = fields.store payload)
    (hphase : fields.phase = node.role) :
    Stands maxAttempts (evaluatePhase state).state (node.settled maxAttempts payload.pass) := by
  have hreview : ∀ {passed : StateTransitionResult RalphFields},
      Stands maxAttempts passed.state node.passed →
        Stands maxAttempts (reviewPhase state payload passed).state
          (node.settled maxAttempts payload.pass) := by
    intro passed hpassed
    unfold reviewPhase RalphNode.settled
    cases payload.pass with
    | true => exact hpassed
    | false => exact h.retryOrFail _
  unfold RalphLoop.evaluatePhase
  unfold RalphFields.store at hfields
  unfold RalphNode.passed at hreview
  rw [h.phase]
  rw [hphase] at hfields
  cases hrole : node.role with
  | planner =>
    rw [hrole] at hfields hreview
    have hpayload : state.ext.planner = some payload := by rw [hfields]
    rw [hpayload]
    exact hreview ⟨h.notDone, h.status, by simp, rfl, h.attempt, h.maxAttempts⟩
  | reviewer =>
    rw [hrole] at hfields hreview
    have hpayload : state.ext.reviewer = some payload := by rw [hfields]
    rw [hpayload]
    exact hreview ⟨h.notDone, h.status, by simp, rfl, h.attempt, h.maxAttempts⟩
  | critic =>
    rw [hrole] at hfields hreview
    have hpayload : state.ext.critic = some payload := by rw [hfields]
    rw [hpayload]
    exact hreview ⟨rfl, rfl, h.attempt⟩
  | done => exact absurd hrole h.role

theorem Loops.notEnded (h : Loops maxAttempts state node) :
    ¬(state.isWorkflowDone = true ∨ state.ext.phase = .done) := by
  rintro (hdone | hdone)
  · rw [h.notDone] at hdone
    cases hdone
  · exact h.role (h.phase ▸ hdone)

theorem passes_payload (role : Phase) (payload : Payload) {accepted : WorkflowNodeOutcome}
    (h : accepted.outcome = Payload.toJson role payload) :
    passes (.completed accepted) = payload.pass := by
  simp only [passes, h]
  cases role <;> simp [Payload.toJson, Json.field, boolean]

theorem Loops.of_eq (h : Loops maxAttempts state node) {next : RalphState}
    (hdone : next.isWorkflowDone = state.isWorkflowDone)
    (hstatus : next.workflowStatus = state.workflowStatus)
    (hphase : next.ext.phase = state.ext.phase) (hattempt : next.ext.attempt = state.ext.attempt)
    (hmax : next.ext.maxAttempts = state.ext.maxAttempts) : Loops maxAttempts next node :=
  ⟨hdone.trans h.notDone, hstatus.trans h.status, h.role, hphase.trans h.phase,
    hattempt.trans h.attempt, hmax.trans h.maxAttempts⟩

/-- A node that has not completed is recorded as a failure. -/
theorem Loops.apply_failed (h : Loops maxAttempts state node)
    {settlement : WorkflowNodeSettlement} (hstatus : settlement.status ≠ .completed) :
    ∃ applied transition, applyNodeSettlement zodMessage state settlement = .ok applied ∧
      Loops maxAttempts applied.state node ∧
      applied.state.lastTransition.filter (·.type = "ralph_node_failed") = some transition := by
  unfold applyNodeSettlement
  rw [if_neg (fun hdone => h.notEnded (.inr hdone))]
  cases settlement with
  | completed => exact absurd rfl hstatus
  | rejected => exact ⟨_, _, rfl, h.of_eq rfl rfl rfl rfl rfl, rfl⟩
  | failed => exact ⟨_, _, rfl, h.of_eq rfl rfl rfl rfl rfl, rfl⟩
  | cancelled => exact ⟨_, _, rfl, h.of_eq rfl rfl rfl rfl rfl, rfl⟩

/-- The payload of an outcome is stored. -/
theorem Loops.apply_completed (h : Loops maxAttempts state node) {accepted : WorkflowNodeOutcome}
    {payload : Payload} (hpayload : accepted.outcome = Payload.toJson node.role payload) :
    ∃ applied, applyNodeSettlement zodMessage state (.completed accepted) = .ok applied ∧
      Loops maxAttempts applied.state node ∧
      applied.state.lastTransition.filter (·.type = "ralph_node_failed") = none ∧
      applied.state.ext = state.ext.store payload := by
  have hparse : parseOrThrow zodMessage (Payload.parse state.ext.phase) accepted.outcome =
      .ok payload := by
    unfold parseOrThrow
    rw [hpayload, h.phase, Payload.parse_toJson]
  have hstore : (state.ext.store payload).phase = state.ext.phase ∧
      (state.ext.store payload).attempt = state.ext.attempt ∧
      (state.ext.store payload).maxAttempts = state.ext.maxAttempts := by
    unfold RalphFields.store
    split <;> exact ⟨rfl, rfl, rfl⟩
  -- the transition of a submission is not that of a failure
  have hfresh : submittedTransition state.ext.phase ≠ "ralph_node_failed" := by
    unfold submittedTransition
    split <;> simp
  unfold applyNodeSettlement
  rw [if_neg (fun hdone => h.notEnded (.inr hdone))]
  simp only [settlementFailure, hparse]
  refine ⟨_, rfl, h.of_eq rfl rfl hstore.1 hstore.2.1 hstore.2.2, ?_, rfl⟩
  simp [withTransition, hfresh]

/-- **A settlement of the node that runs** is applied, and the evaluation takes the loop to the
next position. -/
theorem settle_stands (zodMessage : Json → String) (h : Loops maxAttempts state node) {settlement : WorkflowNodeSettlement}
    (hof : SettlementOf node settlement) :
    ∃ applied, applyNodeSettlement zodMessage state settlement = .ok applied ∧
      Stands maxAttempts (evaluateWorkflowProgress applied.state).state
        (node.settled maxAttempts (passes settlement)) := by
  by_cases hstatus : settlement.status = .completed
  · obtain ⟨accepted, rfl⟩ : ∃ accepted, settlement = .completed accepted := by
      cases settlement with
      | completed accepted => exact ⟨accepted, rfl⟩
      | _ => cases hstatus
    obtain ⟨payload, hpayload⟩ := hof.payload accepted rfl
    obtain ⟨applied, happly, hloops, hfresh, hstored⟩ := h.apply_completed hpayload
    refine ⟨applied, happly, ?_⟩
    unfold evaluateWorkflowProgress
    rw [if_neg hloops.notEnded, hfresh, passes_payload _ _ hpayload]
    exact hloops.evaluatePhase hstored h.phase
  · obtain ⟨applied, transition, happly, hloops, hfailed⟩ := h.apply_failed hstatus
    have hpasses : passes settlement = false := by
      cases settlement with
      | completed => exact absurd rfl hstatus
      | _ => rfl
    refine ⟨applied, happly, ?_⟩
    unfold evaluateWorkflowProgress
    rw [if_neg hloops.notEnded, hfailed, hpasses]
    exact hloops.retryOrFail _

/-- A loop that has ended well says so, with an output. -/
theorem workflowOutcome_success {attempt : Nat} (h : Ends state attempt .success) :
    ∃ output, workflowOutcome state = some (.success output) := by
  unfold workflowOutcome
  rw [if_neg (by simp [h.done]), if_pos h.status]
  exact ⟨_, rfl⟩

theorem workflowOutcome_failure {attempt : Nat} (h : Ends state attempt .failure) :
    ∃ reason output, workflowOutcome state = some (.failure reason output) := by
  unfold workflowOutcome
  rw [if_neg (by simp [h.done]), if_neg (by simp [h.status])]
  exact ⟨_, _, rfl⟩

/-- Every role has a node. -/
def AllBound (definition : WorkflowDefinition) : Prop :=
  ∀ role, role ≠ .done → (bindingFor definition role).isSome = true

/-- At an idle position the loop dispatches the node of the position, when nothing runs. -/
theorem dispatch_stands (h : Loops maxAttempts state node) (definition : WorkflowDefinition)
    {runtime : RuntimeSnapshot} (hruntime : runtime.runningNodes = [])
    {dispatches : List WorkflowNodeDispatch}
    (hdispatch : dispatch zodMessage definition state runtime = dispatches) :
    (∃ next, dispatches = [next] ∧ next.metadata = node.metadata) ∨
      dispatches = [] ∧ ¬ AllBound definition := by
  subst hdispatch
  unfold dispatch
  rw [if_neg h.notEnded, hruntime, if_neg (by simp), h.phase]
  cases hbinding : bindingFor definition node.role with
  | none =>
    refine .inr ⟨rfl, fun hall => ?_⟩
    have := hall node.role h.role
    rw [hbinding] at this
    cases this
  | some bound =>
    refine .inl ⟨_, rfl, ?_⟩
    show some (nodeMetadata node.role state.ext.attempt) = _
    rw [h.attempt]
    rfl

/-- What the loop dispatches is a node of the loop. -/
theorem dispatch_for (definition : WorkflowDefinition) (runtime : RuntimeSnapshot)
    {next : WorkflowNodeDispatch} (h : next ∈ dispatch zodMessage definition state runtime) :
    ∃ node : RalphNode, next.metadata = node.metadata ∧
      next.start.outcome = outcomeFor zodMessage node.role := by
  unfold dispatch at h
  split at h
  · cases h
  · split at h
    · cases h
    · split at h
      · cases h
      · obtain rfl := List.mem_singleton.mp h
        exact ⟨{ role := state.ext.phase, attempt := state.ext.attempt }, rfl, rfl⟩

end Stands

end EphemeralAgent.RalphLoop
