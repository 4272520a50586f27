import EphemeralAgent.Lib.Transition
import EphemeralAgent.Pursuit.Evaluate

/-!
# The calls that change a pursuit

The workflow runtime changes a pursuit through two callbacks: it applies settlements that the
pursuit has validated, and it asks for an evaluation.  Here they come in any order, with any
settlements and any snapshots.

* `call` — one call
* `Called`, `called_of_call` — what a call does to a pursuit
-/

namespace EphemeralAgent.Pursuit

open EphemeralAgent.Lib EphemeralAgent.Workflow

inductive Call where
  | apply (settlement : WorkflowNodeSettlement)
  | evaluate (stamp : Stamp) (runtime : RuntimeSnapshot)

/-- A call; a settlement is applied only if it is valid. -/
def call (host : Host) (state : PursuitState) : Call → Option PursuitState
  | .apply settlement =>
    match validateNodeSettlement host state settlement with
    | .ok .ok => (applyNodeSettlement host state settlement).toOption.map (·.state)
    | _ => none
  | .evaluate stamp runtime => some (evaluateWorkflowProgress host stamp state runtime).state

/-! ## Settlements -/

section Settle

variable {host : Host} {state : PursuitState} {closed : List Leg} {leg : Leg}
  {earlier : List Attempt} {current : Attempt} {settlement : WorkflowNodeSettlement}
  {applied : StateTransitionResult PursuitFields}

theorem applyPlannerSettlement_goesOn {legId attemptId planId : String} {number : Rat}
    (h : applyPlannerSettlement host state legId attemptId planId number settlement =
      .ok applied) : GoesOn state applied.state := by
  unfold applyPlannerSettlement at h
  split at h
  · cases h
    exact ⟨rfl, rfl⟩
  · split at h
    · next accepted =>
      cases hparse : PlannerOutcomePayload.parse accepted.outcome with
      | none =>
        simp only [parseOrThrow, hparse] at h
        cases h
      | some payload =>
        simp only [parseOrThrow, hparse] at h
        cases h
        exact ⟨rfl, rfl⟩
    · cases h
      exact ⟨rfl, rfl⟩

theorem applyWorkerSettlement_goesOn {legId attemptId workItemId workItemKey : String}
    (h : applyWorkerSettlement host state legId attemptId workItemId workItemKey settlement =
      .ok applied) : GoesOn state applied.state := by
  unfold applyWorkerSettlement at h
  split at h
  · cases h
    exact ⟨rfl, rfl⟩
  · split at h
    · next accepted =>
      cases hparse : WorkerOutcomePayload.parse accepted.outcome with
      | none =>
        simp only [parseOrThrow, hparse] at h
        cases h
      | some payload =>
        simp only [parseOrThrow, hparse] at h
        cases h
        exact ⟨rfl, rfl⟩
    · cases h
      exact ⟨rfl, rfl⟩

/-- A settlement changes neither the record of the pursuit nor the status of its workflow. -/
theorem applyNodeSettlement_goesOn (h : applyNodeSettlement host state settlement = .ok applied) :
    GoesOn state applied.state := by
  unfold applyNodeSettlement at h
  split at h
  · cases h
    exact ⟨rfl, rfl⟩
  · exact applyPlannerSettlement_goesOn h
  · exact applyWorkerSettlement_goesOn h

/-- The attempt that a valid planner settlement names is the only one of its leg with this id. -/
theorem Open.planner_ids (h : Open state closed leg earlier current) {legId attemptId planId : String}
    {number : Rat}
    (hmetadata : settlementMetadata settlement = some (.planner legId attemptId planId number))
    (hvalid : validateNodeSettlement host state settlement = .ok .ok) :
    ∀ attempt ∈ earlier, attempt.id ≠ current.id := by
  obtain ⟨-, hat, -⟩ := h.planner_target hmetadata hvalid
  obtain rfl := hat.attemptId_eq
  intro attempt hattempt heq
  have hmiss := (find?_append_last hat.attemptHit hat.notEarlier).2.2 attempt hattempt
  simp [heq] at hmiss

end Settle

/-! ## What a call does -/

/-- The pursuit is done, or open. -/
def OpenOrDone (state : PursuitState) : Prop :=
  state.isWorkflowDone = true ∨ ∃ closed leg earlier current, Open state closed leg earlier current

/-- **What a call does to a pursuit.** -/
inductive Called (host : Host) (state : PursuitState) : Call → PursuitState → Prop
  | settled {closed : List Leg} {leg leg' : Leg} {earlier earlier' : List Attempt}
      {current current' : Attempt} (settlement : WorkflowNodeSettlement)
      (metadata : PursuitNodeMetadata) (next : PursuitState)
      (hmetadata : settlementMetadata settlement = some metadata)
      (hopen : Open state closed leg earlier current)
      (hsettled : Settled state leg earlier current settlement.status metadata leg' earlier'
        current')
      (hids : ∀ planId number, metadata = .planner leg.id current.id planId number →
        ∀ attempt ∈ earlier, attempt.id ≠ current.id)
      (hnext : Open next closed leg' earlier' current') (hon : GoesOn state next) :
      Called host state (.apply settlement) next
  | done (stamp : Stamp) (runtime : RuntimeSnapshot) (hdone : state.isWorkflowDone = true) :
      Called host state (.evaluate stamp runtime) state
  | undecided {closed : List Leg} {leg leg' : Leg} {earlier earlier' : List Attempt}
      {current current' : Attempt} (stamp : Stamp) (runtime : RuntimeSnapshot)
      (next : PursuitState) (hopen : Open state closed leg earlier current)
      (hadvances : leg.Advances leg') (hnext : Open next closed leg' earlier' current')
      (hon : GoesOn state next) : Called host state (.evaluate stamp runtime) next
  | decided {closed : List Leg} {leg leg' : Leg} {earlier earlier' : List Attempt}
      {current current' : Attempt} (stamp : Stamp) (runtime : RuntimeSnapshot)
      (next : PursuitState) (hopen : Open state closed leg earlier current)
      (hadvances : leg.Advances leg') (hleg : leg'.Open earlier' current')
      (hdecided : Reconciled host stamp state closed leg' earlier' current' next) :
      Called host state (.evaluate stamp runtime) next

section Call

variable {host : Host} {state next : PursuitState} {c : Call}

theorem apply_eq_some {settlement : WorkflowNodeSettlement}
    (h : call host state (.apply settlement) = some next) :
    validateNodeSettlement host state settlement = .ok .ok ∧
      ∃ applied, applyNodeSettlement host state settlement = .ok applied ∧
        applied.state = next := by
  simp only [call] at h
  split at h
  · next hvalid =>
    obtain ⟨applied, happly, rfl⟩ := Option.map_eq_some_iff.mp h
    cases hresult : applyNodeSettlement host state settlement with
    | error message =>
      rw [hresult] at happly
      cases happly
    | ok result =>
      rw [hresult] at happly
      obtain rfl := Option.some.inj happly
      exact ⟨hvalid, result, rfl, rfl⟩
  · cases h

theorem called_of_call (h : OpenOrDone state) (hcall : call host state c = some next) :
    Called host state c next := by
  cases c with
  | apply settlement =>
    obtain ⟨hvalid, applied, happly, rfl⟩ := apply_eq_some hcall
    rcases h with hdone | ⟨closed, leg, earlier, current, hopen⟩
    · -- a pursuit that is done refuses every settlement
      unfold validateNodeSettlement at hvalid
      rw [if_pos hdone] at hvalid
      cases hvalid
    · obtain ⟨metadata, leg', earlier', current', hmetadata, hsettled, hlegs, hdone⟩ :=
        settled_of_apply hopen hvalid happly
      refine .settled settlement metadata applied.state hmetadata hopen hsettled ?_
        ⟨hlegs, hopen.closed, hsettled.open hopen.leg, hdone⟩ (applyNodeSettlement_goesOn happly)
      rintro planId number rfl
      exact hopen.planner_ids hmetadata hvalid
  | evaluate stamp runtime =>
    obtain rfl := Option.some.inj hcall
    rcases h with hdone | ⟨closed, leg, earlier, current, hopen⟩
    · unfold evaluateWorkflowProgress reconcilePursuitProgress
      rw [if_pos hdone]
      exact .done stamp runtime hdone
    · obtain ⟨leg', earlier', current', hadvances, hleg, ⟨hnext, hon⟩ | hdecided⟩ :=
        reconciled_of_evaluate host stamp hopen runtime
      · exact .undecided stamp runtime _ hopen hadvances hnext hon
      · exact .decided stamp runtime _ hopen hadvances hleg hdecided

theorem Called.openOrDone (h : Called host state c next) : OpenOrDone next := by
  cases h with
  | settled _ _ _ _ _ _ _ hnext => exact .inr ⟨_, _, _, _, hnext⟩
  | done _ _ hdone => exact .inl hdone
  | undecided _ _ _ _ _ hnext => exact .inr ⟨_, _, _, _, hnext⟩
  | decided _ _ _ _ _ _ hdecided =>
    cases hdecided with
    | retried _ _ _ _ _ hnext => exact .inr ⟨_, _, _, _, hnext⟩
    | failed _ _ _ hend => exact .inl hend.done
    | succeeded _ _ _ _ hnext => exact .inr ⟨_, _, _, _, hnext⟩
    | completed _ _ _ hend => exact .inl hend.done

end Call

/-- The first state of a pursuit is open. -/
theorem createInitialState_open (host : Host) (stamp : Stamp) (args : PursuitArgs) :
    ∃ leg, Open (createInitialState host stamp args) [] leg []
      (createAttempt host stamp 2 1 1) ∧
      ∃ input, leg = createLeg host stamp 1 input ∧ input.sequence = 1 ∧
        input.maxAttempts = args.maxAttempts :=
  ⟨_, ⟨rfl, by simp, createLeg_open .., rfl⟩, _, rfl, rfl, rfl⟩

theorem openOrDone_of_run {host : Host} {stamp : Stamp} {args : PursuitArgs} {cs : List Call}
    {state : PursuitState} (run : Run (call host) Free (createInitialState host stamp args) cs state) :
    OpenOrDone state := by
  refine run.invariant ?_ fun s c t _ h hcall => (called_of_call h hcall).openOrDone
  obtain ⟨leg, hopen, -⟩ := createInitialState_open host stamp args
  exact .inr ⟨_, _, _, _, hopen⟩

end EphemeralAgent.Pursuit
