import EphemeralAgent.Pursuit.Advance
import EphemeralAgent.Pursuit.Module
import EphemeralAgent.Pursuit.Plan

/-!
# The open part of a pursuit

While a pursuit is not done, its last leg is open and the last attempt of that leg is current;
every other leg and attempt is over.  A settlement that is accepted changes the open leg only.

* `Open` — the invariant
* `Settled`, `settled_of_apply` — what an accepted settlement makes of the open leg
* `Settled.open` — the leg stays open
-/

namespace EphemeralAgent.Pursuit

open EphemeralAgent.Lib EphemeralAgent.Workflow

/-! ## The invariant -/

/-- Nothing of the attempt can change again. -/
structure Attempt.Over (attempt : Attempt) : Prop where
  plan : isPursuitEntityTerminal attempt.plan.status = true
  items : ∀ item ∈ attempt.workItems, ended item.status = true

/-- The attempt goes on: it waits for its plan, or it has one with items. -/
structure Attempt.Current (attempt : Attempt) : Prop where
  running : attempt.status = .running
  plan : attempt.plan.status = .notStarted ∧ attempt.workItems = [] ∨
    attempt.plan.status = .failed ∧ attempt.workItems = [] ∨
    attempt.plan.status = .success ∧ attempt.workItems ≠ []
  items : ∀ item ∈ attempt.workItems, item.waits = true ∨ ended item.status = true

/-- Every dependency of the attempt means an item that is over or ranks lower. -/
def Leg.Resolved (leg : Leg) (attempt : Attempt) : Prop :=
  ∃ rank : String → Nat, ∀ item ∈ attempt.workItems, ∀ dependency ∈ item.dependsOn, ∃ target,
    (leg.workItems.find? fun other =>
      other.id = dependency ∧ other.legGoalVersion = item.legGoalVersion) = some target ∧
    (ended target.status = true ∨ rank dependency < rank item.id)

/-- The leg goes on with its last attempt. -/
structure Leg.Open (leg : Leg) (earlier : List Attempt) (current : Attempt) : Prop where
  attempts : leg.attempts = earlier ++ [current]
  running : leg.status = .running
  past : ∀ attempt ∈ earlier, attempt.Over
  resolved : leg.Resolved current
  current : current.Current

structure Leg.Closed (leg : Leg) : Prop where
  status : leg.status ≠ .running
  past : ∀ attempt ∈ leg.attempts, attempt.Over

/-- The pursuit goes on with its last leg. -/
structure Open (state : PursuitState) (closed : List Leg) (leg : Leg) (earlier : List Attempt)
    (current : Attempt) : Prop where
  legs : state.ext.legs = closed ++ [leg]
  closed : ∀ other ∈ closed, other.Closed
  leg : leg.Open earlier current
  notDone : state.isWorkflowDone = false

theorem terminal_of_ended {status : WorkItemRunStatus} (h : ended status = true) :
    isWorkItemTerminal status = true := by
  cases status <;> first | rfl | cases h

theorem not_waits_of_ended {item : WorkItem} (h : ended item.status = true) :
    item.waits = false := by
  unfold WorkItem.waits
  cases hs : item.status <;> first | rfl | (rw [hs] at h; cases h)

theorem Leg.mem_workItems {leg : Leg} {item : WorkItem} :
    item ∈ leg.workItems ↔ ∃ attempt ∈ leg.attempts, item ∈ attempt.workItems :=
  List.mem_flatMap

/-- An item of an open leg is over or belongs to the current attempt. -/
theorem Leg.Open.item_cases {leg : Leg} {earlier : List Attempt} {current : Attempt}
    (h : leg.Open earlier current) {item : WorkItem} (hitem : item ∈ leg.workItems) :
    ended item.status = true ∨ item ∈ current.workItems := by
  obtain ⟨attempt, hattempt, hitem⟩ := Leg.mem_workItems.mp hitem
  rw [h.attempts, List.mem_append, List.mem_singleton] at hattempt
  rcases hattempt with hattempt | rfl
  · exact .inl ((h.past attempt hattempt).items item hitem)
  · exact .inr hitem

/-! ## Items end -/

theorem Attempt.Over.advances {a b : Attempt} (h : a.Over) (hadv : a.Advances b) : b.Over := by
  refine ⟨hadv.plan ▸ h.plan, fun j hj => ?_⟩
  obtain ⟨i, hi, hij⟩ := exists_of_forall₂_right hadv.items hj
  exact hij.ended (h.items i hi)

theorem Attempt.Current.advances {a b : Attempt} (h : a.Current) (hadv : a.Advances b) :
    b.Current := by
  have hnil : a.workItems = [] ↔ b.workItems = [] := by
    rw [← List.length_eq_zero_iff, ← List.length_eq_zero_iff, hadv.items.length_eq]
  refine ⟨hadv.status.trans h.running, ?_, fun j hj => ?_⟩
  · rw [hadv.plan, ← hnil, ne_eq, ← hnil]
    exact h.plan
  · obtain ⟨i, hi, hij⟩ := exists_of_forall₂_right hadv.items hj
    rcases hij.status with hs | ⟨_, hs⟩
    · simpa [WorkItem.waits, hs] using h.items i hi
    · exact .inr hs

theorem Leg.Resolved.advances {l m : Leg} {a b : Attempt} (h : l.Resolved a) (hadv : l.Advances m)
    (hab : a.Advances b) : m.Resolved b := by
  obtain ⟨rank, hrank⟩ := h
  refine ⟨rank, fun j hj dependency hdependency => ?_⟩
  obtain ⟨i, hi, hij⟩ := exists_of_forall₂_right hab.items hj
  rw [hij.dependsOn] at hdependency
  obtain ⟨target, htarget, hlow⟩ := hrank i hi dependency hdependency
  have hrel := hadv.find? dependency i.legGoalVersion
  rw [htarget] at hrel
  rw [hij.legGoalVersion, hij.id]
  cases hfind : m.workItems.find? _ with
  | none =>
    rw [hfind] at hrel
    cases hrel
  | some target' =>
    rw [hfind] at hrel
    obtain ⟨htarget'⟩ := hrel
    refine ⟨target', rfl, ?_⟩
    rcases hlow with hended | hlow
    · exact .inl (htarget'.ended hended)
    · exact .inr hlow

theorem Leg.Open.advances {l m : Leg} {earlier : List Attempt} {current : Attempt}
    (h : l.Open earlier current) (hadv : l.Advances m) :
    ∃ earlier' current', m.Open earlier' current' ∧
      List.Forall₂ Attempt.Advances earlier earlier' ∧ current.Advances current' := by
  have hattempts := hadv.attempts
  rw [h.attempts] at hattempts
  obtain ⟨earlier', current', hm, hearlier, hcurrent⟩ := forall₂_append_last hattempts
  refine ⟨earlier', current', ⟨hm, hadv.status.trans h.running, ?_, ?_, ?_⟩,
    hearlier, hcurrent⟩
  · intro b hb
    obtain ⟨a, ha, hab⟩ := exists_of_forall₂_right hearlier hb
    exact (h.past a ha).advances hab
  · exact h.resolved.advances hadv hcurrent
  · exact h.current.advances hcurrent

/-! ## New attempts -/

theorem createAttempt_current (host : Host) (stamp : Stamp) (index sequence version : Nat) :
    (createAttempt host stamp index sequence version).Current :=
  ⟨rfl, .inl ⟨rfl, rfl⟩, by simp [createAttempt]⟩

theorem Leg.open_of_createAttempt {leg : Leg} {earlier : List Attempt} {host : Host}
    {stamp : Stamp} {index sequence version : Nat}
    (hattempts : leg.attempts = earlier ++ [createAttempt host stamp index sequence version])
    (hrunning : leg.status = .running) (hover : ∀ attempt ∈ earlier, attempt.Over) :
    leg.Open earlier (createAttempt host stamp index sequence version) :=
  ⟨hattempts, hrunning, hover, ⟨fun _ => 0, by simp [createAttempt]⟩, createAttempt_current ..⟩

theorem createLeg_open (host : Host) (stamp : Stamp) (index : Nat) (input : LegInit) :
    (createLeg host stamp index input).Open [] (createAttempt host stamp (index + 1) 1 1) :=
  Leg.open_of_createAttempt rfl rfl (by simp)

/-! ## Settlements -/

/-- What a planner's outcome does to the consistency of the attempts. -/
def Attempt.mark (attempt : Attempt) (attemptId : String) (payload : PlannerOutcomePayload) :
    Attempt :=
  { attempt with
    isConsistentWithLegGoal :=
      if payload.legGoal.isSome then attempt.id == attemptId
      else attempt.isConsistentWithLegGoal }

section DeclareGoal

variable (leg : Leg) (attemptId : String) (payload : PlannerOutcomePayload)

theorem Leg.declareGoal_attempts :
    (leg.declareGoal attemptId payload).attempts =
      leg.attempts.map (·.mark attemptId payload) := by
  unfold Leg.declareGoal Attempt.mark
  cases hgoal : payload.legGoal with
  | some goal => rfl
  | none => cases payload.nextLegGoal <;> simp

theorem Leg.declareGoal_id : (leg.declareGoal attemptId payload).id = leg.id := by
  unfold Leg.declareGoal
  cases payload.legGoal <;> [cases payload.nextLegGoal <;> rfl; rfl]

theorem Leg.declareGoal_status : (leg.declareGoal attemptId payload).status = leg.status := by
  unfold Leg.declareGoal
  cases payload.legGoal <;> [cases payload.nextLegGoal <;> rfl; rfl]

theorem Leg.declareGoal_sequence :
    (leg.declareGoal attemptId payload).sequence = leg.sequence := by
  unfold Leg.declareGoal
  cases payload.legGoal <;> [cases payload.nextLegGoal <;> rfl; rfl]

theorem Leg.declareGoal_maxAttempts :
    (leg.declareGoal attemptId payload).maxAttempts = leg.maxAttempts := by
  unfold Leg.declareGoal
  cases payload.legGoal <;> [cases payload.nextLegGoal <;> rfl; rfl]

theorem Leg.declareGoal_legGoalVersion :
    (leg.declareGoal attemptId payload).legGoalVersion =
      if payload.legGoal.isSome then leg.legGoalVersion + 1 else leg.legGoalVersion := by
  unfold Leg.declareGoal
  cases payload.legGoal <;> [cases payload.nextLegGoal <;> rfl; rfl]

end DeclareGoal

/-- The open leg once its plan has been submitted. -/
def Leg.planned (leg : Leg) (earlier : List Attempt) (current : Attempt)
    (payload : PlannerOutcomePayload) : Leg :=
  { leg.declareGoal current.id payload with
    attempts := earlier.map (·.mark current.id payload) ++
      [(current.mark current.id payload).planSubmitted leg.id
        (leg.declareGoal current.id payload).legGoalVersion payload] }

/-- **What an accepted settlement makes of the open leg.** -/
inductive Settled (state : PursuitState) (leg : Leg) (earlier : List Attempt) (current : Attempt)
    (settled : NodeRunStatus) : PursuitNodeMetadata → Leg → List Attempt → Attempt → Prop
  | planned (planId : String) (number : Rat) (hplan : current.plan.status = .notStarted)
      (hcompleted : settled = .completed) (payload : PlannerOutcomePayload)
      (herror : plannerSubmissionError state leg current payload = none) :
      Settled state leg earlier current settled (.planner leg.id current.id planId number)
        (leg.planned earlier current payload) (earlier.map (·.mark current.id payload))
        ((current.mark current.id payload).planSubmitted leg.id
          (leg.declareGoal current.id payload).legGoalVersion payload)
  | planFailed (planId : String) (number : Rat) (hplan : current.plan.status = .notStarted)
      (reason : String) :
      Settled state leg earlier current settled (.planner leg.id current.id planId number)
        { leg with attempts := earlier ++ [current.planFailed reason] } earlier
        (current.planFailed reason)
  | closed (number : Rat) (item : WorkItem)
      (hfind : (current.workItems.find? fun other =>
        other.id == item.id && other.key == item.key) = some item)
      (hwaits : item.waits = true) (status : WorkItemRunStatus) (hstatus : ended status = true)
      (summary outcome : String) :
      Settled state leg earlier current settled
        (.worker leg.id current.id item.id item.key number)
        { leg with
          attempts := earlier ++
            [current.updateWorkItem item.id item.key (·.close status summary outcome)] } earlier
        (current.updateWorkItem item.id item.key (·.close status summary outcome))

/-- The identifiers name the current attempt of the open leg, and nothing before it. -/
structure Located (closed : List Leg) (leg : Leg) (earlier : List Attempt) (current : Attempt)
    (legId attemptId : String) : Prop where
  legHit : (closed ++ [leg]).find? (·.id == legId) = some leg
  notClosed : leg ∉ closed
  attemptHit : (earlier ++ [current]).find? (·.id == attemptId) = some current
  notEarlier : current ∉ earlier

section Locate

variable {state : PursuitState} {closed : List Leg} {leg found : Leg} {earlier : List Attempt}
  {current attempt : Attempt} {legId attemptId : String}

theorem Located.legId_eq (h : Located closed leg earlier current legId attemptId) :
    legId = leg.id := by
  have hid := (find?_append_last h.legHit h.notClosed).2.1
  exact (beq_iff_eq.mp hid).symm

theorem Located.attemptId_eq (h : Located closed leg earlier current legId attemptId) :
    attemptId = current.id := by
  have hid := (find?_append_last h.attemptHit h.notEarlier).2.1
  exact (beq_iff_eq.mp hid).symm

/-- What can still change is found in the current attempt of the open leg. -/
theorem Open.located (h : Open state closed leg earlier current)
    (hfind : findAttempt state legId attemptId = some (found, attempt)) (hover : ¬attempt.Over) :
    found = leg ∧ attempt = current ∧ Located closed leg earlier current legId attemptId := by
  obtain ⟨l, hl, hrest⟩ := Option.bind_eq_some_iff.mp hfind
  obtain ⟨a, ha, hpair⟩ := Option.bind_eq_some_iff.mp hrest
  simp only [Option.pure_def, Option.some.injEq, Prod.mk.injEq] at hpair
  obtain ⟨rfl, rfl⟩ := hpair
  have hmem : a ∈ l.attempts := List.mem_of_find?_eq_some ha
  have hnot : l ∉ closed := fun hl => hover ((h.closed l hl).past a hmem)
  rw [h.legs] at hl
  obtain ⟨rfl, -, -⟩ := find?_append_last hl hnot
  have hnot' : a ∉ earlier := fun ha => hover (h.leg.past a ha)
  rw [h.leg.attempts] at ha
  obtain ⟨rfl, -, -⟩ := find?_append_last ha hnot'
  exact ⟨rfl, rfl, hl, hnot, ha, hnot'⟩

theorem Open.updateLeg (h : Open state closed leg earlier current)
    (hat : Located closed leg earlier current legId attemptId) (f : Leg → Leg) :
    (state.updateLeg legId f).ext.legs = closed ++ [f leg] := by
  show updateFirst _ f state.ext.legs = _
  rw [h.legs]
  exact updateFirst_of_find? hat.legHit hat.notClosed

/-- A change of the current attempt. -/
theorem Open.updateAttempt (h : Open state closed leg earlier current)
    (hat : Located closed leg earlier current legId attemptId) (f : Attempt → Attempt) :
    (state.updateLeg legId (·.updateAttempt attemptId f)).ext.legs =
      closed ++ [{ leg with attempts := earlier ++ [f current] }] := by
  rw [h.updateLeg hat]
  unfold Leg.updateAttempt
  rw [h.leg.attempts, updateFirst_of_find? hat.attemptHit hat.notEarlier]

/-- The plan of the current attempt is submitted. -/
theorem Open.updateLeg_planned (h : Open state closed leg earlier current)
    (hat : Located closed leg earlier current legId attemptId) (payload : PlannerOutcomePayload) :
    (state.updateLeg legId fun leg =>
      let leg := leg.declareGoal current.id payload
      leg.updateAttempt attemptId
        (·.planSubmitted leg.id leg.legGoalVersion payload)).ext.legs =
      closed ++ [leg.planned earlier current payload] := by
  have hids := find?_append_last hat.attemptHit hat.notEarlier
  have hdeclared : (leg.declareGoal current.id payload).attempts =
      earlier.map (·.mark current.id payload) ++ [current.mark current.id payload] := by
    rw [Leg.declareGoal_attempts, h.leg.attempts, List.map_append, List.map_singleton]
  rw [h.updateLeg hat]
  simp only [Leg.updateAttempt, hdeclared]
  rw [updateFirst_append_last]
  · simp only [Leg.planned, Leg.declareGoal_id]
  · intro a ha
    obtain ⟨b, hb, rfl⟩ := List.mem_map.mp ha
    exact hids.2.2 b hb
  · exact hids.2.1

end Locate

section Settle

variable {host : Host} {state : PursuitState} {closed : List Leg} {leg : Leg}
  {earlier : List Attempt} {current : Attempt} {settlement : WorkflowNodeSettlement}
  {applied : StateTransitionResult PursuitFields} {legId attemptId : String}

/-- A valid planner settlement is for the current attempt, which waits for its plan. -/
theorem Open.planner_target (h : Open state closed leg earlier current) {planId : String}
    {number : Rat}
    (hmetadata : settlementMetadata settlement = some (.planner legId attemptId planId number))
    (hvalid : validateNodeSettlement host state settlement = .ok .ok) :
    findAttempt state legId attemptId = some (leg, current) ∧
      Located closed leg earlier current legId attemptId ∧
      current.plan.status = .notStarted ∧
      ∀ accepted, settlement = .completed accepted → ∃ payload,
        PlannerOutcomePayload.parse accepted.outcome = some payload ∧
          plannerSubmissionError state leg current payload = none := by
  unfold validateNodeSettlement at hvalid
  rw [h.notDone, if_neg (by simp), hmetadata] at hvalid
  cases hfind : findAttempt state legId attemptId with
  | none => simp [hfind] at hvalid
  | some found =>
    obtain ⟨found, attempt⟩ := found
    simp only [hfind] at hvalid
    by_cases hterminal : isPursuitEntityTerminal attempt.plan.status = true
    · rw [if_pos hterminal] at hvalid
      cases hvalid
    · rw [if_neg hterminal] at hvalid
      obtain ⟨rfl, rfl, hat⟩ := h.located hfind fun hover => hterminal hover.plan
      refine ⟨rfl, hat, ?_, ?_⟩
      · rcases h.leg.current.plan with ⟨hplan, _⟩ | ⟨hplan, _⟩ | ⟨hplan, _⟩
        · exact hplan
        · simp [hplan, isPursuitEntityTerminal] at hterminal
        · simp [hplan, isPursuitEntityTerminal] at hterminal
      · rintro accepted rfl
        cases hparse : PlannerOutcomePayload.parse accepted.outcome with
        | none => simp [parseOrThrow, hparse, bind, Except.bind] at hvalid
        | some payload =>
          refine ⟨payload, rfl, ?_⟩
          cases herror : plannerSubmissionError state found attempt payload with
          | none => rfl
          | some error =>
            simp [parseOrThrow, hparse, herror, bind, Except.bind, pure, Except.pure] at hvalid

/-- A valid worker settlement is for an item of the current attempt that waits. -/
theorem Open.worker_target (h : Open state closed leg earlier current)
    {workItemId workItemKey : String} {number : Rat}
    (hmetadata : settlementMetadata settlement =
      some (.worker legId attemptId workItemId workItemKey number))
    (hvalid : validateNodeSettlement host state settlement = .ok .ok) :
    ∃ item, findWorkItem state legId attemptId workItemId workItemKey =
        some (leg, current, item) ∧
      Located closed leg earlier current legId attemptId ∧
      workItemId = item.id ∧ workItemKey = item.key ∧
      (current.workItems.find? fun other =>
        other.id == workItemId && other.key == workItemKey) = some item ∧ item.waits = true := by
  unfold validateNodeSettlement at hvalid
  rw [h.notDone, if_neg (by simp), hmetadata] at hvalid
  cases hfind : findWorkItem state legId attemptId workItemId workItemKey with
  | none => simp [hfind] at hvalid
  | some found =>
    obtain ⟨found, attempt, item⟩ := found
    simp only [hfind] at hvalid
    by_cases hterminal : isWorkItemTerminal item.status = true
    · rw [if_pos hterminal] at hvalid
      cases hvalid
    · obtain ⟨⟨l, a⟩, hlocated, hrest⟩ := Option.bind_eq_some_iff.mp hfind
      obtain ⟨i, hi, htriple⟩ := Option.bind_eq_some_iff.mp hrest
      simp only [Option.pure_def, Option.some.injEq, Prod.mk.injEq] at htriple
      obtain ⟨rfl, rfl, rfl⟩ := htriple
      have hmem : i ∈ a.workItems := List.mem_of_find?_eq_some hi
      obtain ⟨rfl, rfl, hat⟩ := 
        h.located hlocated fun hover => hterminal (terminal_of_ended (hover.items i hmem))
      have hkeys := List.find?_some hi
      simp only [Bool.and_eq_true, beq_iff_eq] at hkeys
      refine ⟨i, rfl, hat, hkeys.1.symm, hkeys.2.symm, hi, ?_⟩
      rcases h.leg.current.items i hmem with hwaits | hended
      · exact hwaits
      · exact absurd (terminal_of_ended hended) hterminal

theorem applyPlannerSettlement_failed (host : Host) (planId : String) (number : Rat)
    {found : Leg × Attempt} (hfind : findAttempt state legId attemptId = some found)
    (hstatus : settlement.status ≠ .completed) :
    ∃ reason transition,
      applyPlannerSettlement host state legId attemptId planId number settlement =
        .ok (withTransition
          (bump ((state.updateLeg legId
            (·.updateAttempt attemptId (·.planFailed reason))).pushFailure reason))
          "pursuit_planner_failed" transition) := by
  unfold applyPlannerSettlement
  rw [hfind]
  cases settlement with
  | completed accepted => exact absurd rfl hstatus
  | rejected _ _ reason => exact ⟨_, _, rfl⟩
  | failed _ _ reason => exact ⟨_, _, rfl⟩
  | cancelled _ _ reason => exact ⟨_, _, rfl⟩

/-- A worker settlement closes its item, unless its outcome does not parse. -/
theorem applyWorkerSettlement_closes {workItemId workItemKey : String}
    {found : Leg × Attempt × WorkItem}
    (hfind : findWorkItem state legId attemptId workItemId workItemKey = some found)
    (happly : applyWorkerSettlement host state legId attemptId workItemId workItemKey settlement =
      .ok applied) :
    ∃ status summary outcome, ended status = true ∧
      applied.state.ext.legs = (state.updateLeg legId (·.updateAttempt attemptId
        (·.updateWorkItem workItemId workItemKey (·.close status summary outcome)))).ext.legs ∧
      applied.state.isWorkflowDone = state.isWorkflowDone := by
  unfold applyWorkerSettlement at happly
  rw [hfind] at happly
  cases settlement with
  | completed accepted =>
    cases hparse : WorkerOutcomePayload.parse accepted.outcome with
    | none =>
      simp only [parseOrThrow, hparse] at happly
      cases happly
    | some payload =>
      simp only [parseOrThrow, hparse] at happly
      cases happly
      refine ⟨_, _, _, ?_, rfl, rfl⟩
      cases payload.isPass <;> rfl
  | rejected _ _ reason =>
    cases happly
    exact ⟨.failed, _, _, rfl, rfl, rfl⟩
  | failed _ _ reason =>
    cases happly
    exact ⟨.failed, _, _, rfl, rfl, rfl⟩
  | cancelled _ _ reason =>
    cases happly
    exact ⟨.failed, _, _, rfl, rfl, rfl⟩

/-- **An accepted settlement changes the open leg and nothing else.** -/
theorem settled_of_apply (h : Open state closed leg earlier current)
    (hvalid : validateNodeSettlement host state settlement = .ok .ok)
    (happly : applyNodeSettlement host state settlement = .ok applied) :
    ∃ metadata leg' earlier' current', settlementMetadata settlement = some metadata ∧
      Settled state leg earlier current settlement.status metadata leg' earlier' current' ∧
      applied.state.ext.legs = closed ++ [leg'] ∧ applied.state.isWorkflowDone = false := by
  unfold applyNodeSettlement at happly
  cases hmetadata : settlementMetadata settlement with
  | none =>
    unfold validateNodeSettlement at hvalid
    rw [h.notDone, if_neg (by simp), hmetadata] at hvalid
    cases hvalid
  | some metadata =>
    rw [hmetadata] at happly
    cases metadata with
    | planner legId attemptId planId number =>
      obtain ⟨hfind, hat, hplan, hpayload⟩ := h.planner_target hmetadata hvalid
      by_cases hstatus : settlement.status = .completed
      · obtain ⟨accepted, rfl⟩ : ∃ accepted, settlement = .completed accepted := by
          cases settlement <;> first | exact ⟨_, rfl⟩ | cases hstatus
        obtain ⟨payload, hparse, herror⟩ := hpayload accepted rfl
        simp only [applyPlannerSettlement, hfind, parseOrThrow, hparse] at happly
        have hlegs := h.updateLeg_planned hat payload
        cases happly
        obtain rfl := hat.legId_eq
        obtain rfl := hat.attemptId_eq
        exact ⟨_, _, _, _, rfl, (.planned planId number hplan hstatus payload herror), hlegs, h.notDone⟩
      · obtain ⟨reason, transition, hfailed⟩ :=
          applyPlannerSettlement_failed host planId number hfind hstatus
        have hlegs := h.updateAttempt hat (·.planFailed reason)
        simp only [hfailed] at happly
        cases happly
        obtain rfl := hat.legId_eq
        obtain rfl := hat.attemptId_eq
        exact ⟨_, _, _, _, rfl, .planFailed planId number hplan reason, hlegs, h.notDone⟩
    | worker legId attemptId workItemId workItemKey number =>
      obtain ⟨item, hfind, hat, rfl, rfl, hitem, hwaits⟩ := h.worker_target hmetadata hvalid
      obtain ⟨status, summary, outcome, hended, hlegs, hdone⟩ :=
        applyWorkerSettlement_closes hfind happly
      rw [h.updateAttempt hat] at hlegs
      obtain rfl := hat.legId_eq
      obtain rfl := hat.attemptId_eq
      exact ⟨_, _, _, _, rfl, .closed number item hitem hwaits status hended summary outcome,
        hlegs, hdone.trans h.notDone⟩

/-- An accepted settlement is applied without an exception, if the outcome of a worker parses. -/
theorem Open.applies (h : Open state closed leg earlier current)
    (hvalid : validateNodeSettlement host state settlement = .ok .ok)
    (hworker : ∀ legId attemptId workItemId workItemKey number,
      settlementMetadata settlement =
        some (.worker legId attemptId workItemId workItemKey number) →
      ∀ accepted, settlement = .completed accepted →
        ∃ payload, WorkerOutcomePayload.parse accepted.outcome = some payload) :
    ∃ applied, applyNodeSettlement host state settlement = .ok applied := by
  unfold applyNodeSettlement
  cases hmetadata : settlementMetadata settlement with
  | none => exact ⟨_, rfl⟩
  | some metadata =>
    cases metadata with
    | planner legId attemptId planId number =>
      obtain ⟨hfind, -, -, hpayload⟩ := h.planner_target hmetadata hvalid
      simp only [applyPlannerSettlement, hfind]
      cases settlement with
      | completed accepted =>
        obtain ⟨payload, hparse, -⟩ := hpayload accepted rfl
        simp only [parseOrThrow, hparse]
        exact ⟨_, rfl⟩
      | _ => exact ⟨_, rfl⟩
    | worker legId attemptId workItemId workItemKey number =>
      obtain ⟨item, hfind, -⟩ := h.worker_target hmetadata hvalid
      simp only [applyWorkerSettlement, hfind]
      cases settlement with
      | completed accepted =>
        obtain ⟨payload, hparse⟩ := hworker _ _ _ _ _ hmetadata accepted rfl
        simp only [parseOrThrow, hparse]
        exact ⟨_, rfl⟩
      | _ => exact ⟨_, rfl⟩

end Settle

/-! ## The leg stays open -/

section Planned

variable {leg : Leg} {earlier : List Attempt} {current : Attempt} {payload : PlannerOutcomePayload}

theorem mem_allExisting {entry : ExistingItem} :
    entry ∈ allExisting leg ↔ entry.attempt ∈ leg.attempts ∧
      entry.item ∈ entry.attempt.workItems := by
  unfold allExisting
  rw [List.mem_flatMap]
  constructor
  · rintro ⟨attempt, hattempt, hentry⟩
    obtain ⟨item, hitem, rfl⟩ := List.mem_map.mp hentry
    exact ⟨hattempt, hitem⟩
  · rintro ⟨hattempt, hitem⟩
    exact ⟨entry.attempt, hattempt, List.mem_map.mpr ⟨entry.item, hitem, rfl⟩⟩

theorem Leg.planned_workItems (hitems : current.workItems = []) :
    (leg.planned earlier current payload).workItems = earlier.flatMap (·.workItems) ++
      payload.workItems.map
        (submittedItem leg.id (leg.declareGoal current.id payload).legGoalVersion) := by
  have hmark : (earlier.map (·.mark current.id payload)).flatMap (·.workItems) =
      earlier.flatMap (·.workItems) := by
    rw [List.flatMap_map]
    rfl
  unfold Leg.workItems Leg.planned
  simp only
  rw [List.flatMap_append, hmark, List.flatMap_singleton]
  simp [Attempt.planSubmitted, Attempt.mark, hitems]

/-- A dependency of a submitted item means an item of an earlier attempt or of the plan. -/
theorem Leg.planned_resolved (hattempts : leg.attempts = earlier ++ [current])
    (hover : ∀ attempt ∈ earlier, attempt.Over) (hitems : current.workItems = [])
    (hplan : ValidPlan leg current payload) :
    (leg.planned earlier current payload).Resolved
      ((current.mark current.id payload).planSubmitted leg.id
        (leg.declareGoal current.id payload).legGoalVersion payload) := by
  obtain ⟨rank, hrank⟩ := hplan.ranked
  refine ⟨rank, fun item hitem dependency hdependency => ?_⟩
  have hnew : item ∈ payload.workItems.map
      (submittedItem leg.id (leg.declareGoal current.id payload).legGoalVersion) := by
    simpa [Attempt.planSubmitted, Attempt.mark, hitems] using hitem
  obtain ⟨spec, hspec, rfl⟩ := List.mem_map.mp hnew
  rw [Leg.planned_workItems hitems, List.find?_append]
  cases hfind : (earlier.flatMap (·.workItems)).find? fun other =>
      other.id = dependency ∧ other.legGoalVersion =
        (submittedItem leg.id (leg.declareGoal current.id payload).legGoalVersion
          spec).legGoalVersion with
  | some target =>
    -- an item of an earlier attempt is over
    obtain ⟨attempt, hattempt, htarget⟩ :=
      List.mem_flatMap.mp (List.mem_of_find?_eq_some hfind)
    exact ⟨target, rfl, .inl ((hover attempt hattempt).items target htarget)⟩
  | none =>
    rw [Option.none_or]
    have hids : dependency ∈ payload.ids := by
      rcases hplan.dependencies spec hspec dependency hdependency with
        hids | ⟨hgoal, entry, hentry, hid, -, hversion⟩
      · exact hids
      · exfalso
        obtain ⟨hattempt, hitem⟩ := mem_allExisting.mp hentry
        simp only [ExistingItem.inVersion, Bool.and_eq_true, beq_iff_eq] at hversion
        rw [hattempts, List.mem_append, List.mem_singleton] at hattempt
        rcases hattempt with hattempt | heq
        · have hmem := List.mem_flatMap.mpr ⟨entry.attempt, hattempt, hitem⟩
          have hmiss := List.find?_eq_none.mp hfind entry.item hmem
          simp [submittedItem, Leg.declareGoal_legGoalVersion, hgoal, hid, hversion.2] at hmiss
        · rw [heq, hitems] at hitem
          cases hitem
    obtain ⟨other, hother, hid⟩ := List.mem_map.mp hids
    obtain ⟨target, htarget⟩ : ∃ target, (payload.workItems.map (submittedItem leg.id
        (leg.declareGoal current.id payload).legGoalVersion)).find? (fun other =>
          other.id = dependency ∧ other.legGoalVersion =
            (submittedItem leg.id (leg.declareGoal current.id payload).legGoalVersion
              spec).legGoalVersion) = some target := by
      rw [← Option.isSome_iff_exists, List.find?_isSome]
      exact ⟨_, List.mem_map_of_mem hother, by simp [submittedItem, hid]⟩
    exact ⟨target, htarget, .inr (hrank spec hspec dependency hdependency hids)⟩

theorem Leg.Open.planned (h : leg.Open earlier current) (hstatus : current.plan.status = .notStarted)
    (hplan : ValidPlan leg current payload) :
    (leg.planned earlier current payload).Open (earlier.map (·.mark current.id payload))
      ((current.mark current.id payload).planSubmitted leg.id
        (leg.declareGoal current.id payload).legGoalVersion payload) := by
  have hitems : current.workItems = [] := by
    rcases h.current.plan with ⟨_, hitems⟩ | ⟨hplan, _⟩ | ⟨hplan, _⟩
    · exact hitems
    · rw [hstatus] at hplan
      cases hplan
    · rw [hstatus] at hplan
      cases hplan
  refine ⟨rfl, ?_, ?_, ?_, ?_, ?_, ?_⟩
  · exact (Leg.declareGoal_status ..).trans h.running
  · intro a ha
    obtain ⟨b, hb, rfl⟩ := List.mem_map.mp ha
    exact ⟨(h.past b hb).plan, (h.past b hb).items⟩
  · exact Leg.planned_resolved h.attempts h.past hitems hplan
  · exact h.current.running
  · refine .inr (.inr ⟨rfl, ?_⟩)
    simp [Attempt.planSubmitted, payload.nonempty]
  · intro item hitem
    simp only [Attempt.planSubmitted, Attempt.mark, hitems, List.nil_append] at hitem
    obtain ⟨spec, -, rfl⟩ := List.mem_map.mp hitem
    exact .inl rfl

end Planned

/-- Items of the current attempt have ended. -/
theorem Leg.Open.advances_replace {leg : Leg} {earlier : List Attempt} {current current' : Attempt}
    (h : leg.Open earlier current) (hadv : current.Advances current') :
    leg.Advances { leg with attempts := earlier ++ [current'] } := by
  refine ⟨rfl, ?_⟩
  rw [h.attempts]
  exact List.rel_append (List.forall₂_same.mpr fun a _ => .refl a) (.cons hadv .nil)

/-- Replacing the current attempt by one in which items have ended. -/
theorem Leg.Open.replace {leg : Leg} {earlier : List Attempt} {current current' : Attempt}
    (h : leg.Open earlier current) (hadv : current.Advances current') :
    { leg with attempts := earlier ++ [current'] }.Open earlier current' := by
  have hleg := h.advances_replace hadv
  exact ⟨rfl, h.running, h.past, h.resolved.advances hleg hadv, h.current.advances hadv⟩

theorem Attempt.advances_updateWorkItem {attempt : Attempt} {item : WorkItem}
    (hfind : (attempt.workItems.find? fun other =>
      other.id == item.id && other.key == item.key) = some item) (hwaits : item.waits = true)
    {status : WorkItemRunStatus} (hstatus : ended status = true) (summary outcome : String) :
    attempt.Advances
      (attempt.updateWorkItem item.id item.key (·.close status summary outcome)) := by
  refine ⟨rfl, updateFirst_forall₂ .refl hfind ?_⟩
  exact WorkItem.advances_close (beq_iff_eq.mp hwaits) hstatus summary outcome

theorem Settled.open {state : PursuitState} {leg leg' : Leg} {earlier earlier' : List Attempt}
    {current current' : Attempt} {settled : NodeRunStatus} {metadata : PursuitNodeMetadata}
    (h : Settled state leg earlier current settled metadata leg' earlier' current')
    (hleg : leg.Open earlier current) : leg'.Open earlier' current' := by
  cases h with
  | planned planId number hplan hcompleted payload herror =>
    exact hleg.planned hplan (validPlan_of_error herror)
  | planFailed planId number hplan reason =>
    have hitems : current.workItems = [] := by
      rcases hleg.current.plan with ⟨_, hitems⟩ | ⟨_, hitems⟩ | ⟨hplan', _⟩
      · exact hitems
      · exact hitems
      · rw [hplan] at hplan'
        cases hplan'
    refine ⟨rfl, hleg.running, hleg.past, ⟨fun _ => 0, ?_⟩, hleg.current.running, ?_, ?_⟩
    · simp [Attempt.planFailed, hitems]
    · exact .inr (.inl ⟨rfl, hitems⟩)
    · simp [Attempt.planFailed, hitems]
  | closed number item hfind hwaits status hstatus summary outcome =>
    exact hleg.replace (Attempt.advances_updateWorkItem hfind hwaits hstatus summary outcome)

end EphemeralAgent.Pursuit
