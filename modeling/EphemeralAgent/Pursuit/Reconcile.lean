import EphemeralAgent.Pursuit.Open

/-!
# Reconciling the open leg

Once the current attempt is decided, `reconcileLeg` retries the leg, opens the next one, or ends
the pursuit.

* `Attempt.Succeeds`, `Attempt.Fails` — what decides an attempt
* `Reconciled`, `reconciled_of_reconcileLeg` — everything that the reconciliation writes
-/

namespace EphemeralAgent.Pursuit

open EphemeralAgent.Lib EphemeralAgent.Workflow

/-! ## Deciding an attempt -/

/-- The plan and all work items have succeeded. -/
structure Attempt.Succeeds (attempt : Attempt) : Prop where
  plan : attempt.plan.status = .success
  items : ∀ item ∈ attempt.workItems, item.status = .success

/-- The plan has failed, or all work items are over and one has failed or is blocked. -/
def Attempt.Fails (attempt : Attempt) : Prop :=
  attempt.plan.status = .failed ∨
    (∀ item ∈ attempt.workItems, isWorkItemTerminal item.status = true) ∧
      ∃ item ∈ attempt.workItems, item.status = .failed ∨ item.status = .blocked

/-- The attempt with its final status. -/
def Attempt.close (attempt : Attempt) (status : PursuitEntityRunStatus)
    (failureReasons : List AttemptFailureReason) : Attempt :=
  { attempt with status, failureReasons }

section Decide

variable {running : RunningMetadata} {leg : Leg} {attempt : Attempt}

/-- A node that runs makes no item terminal. -/
theorem effectiveWorkItemStatus_of_terminal {item : WorkItem}
    (h : isWorkItemTerminal (effectiveWorkItemStatus item running) = true) :
    effectiveWorkItemStatus item running = item.status := by
  unfold effectiveWorkItemStatus at h ⊢
  split at h
  · cases h
  · next hnot => rw [if_neg hnot]

/-- An attempt is decided as failed or as a success, and for a reason. -/
theorem nextAttemptStatus_cases {status : PursuitEntityRunStatus}
    {failureReasons : List AttemptFailureReason}
    (h : nextAttemptStatus leg attempt running = some (status, failureReasons)) :
    status = .failed ∧ attempt.Fails ∨ status = .success ∧ attempt.Succeeds := by
  unfold nextAttemptStatus at h
  split at h
  · next hplan =>
    cases h
    exact .inl ⟨rfl, .inl hplan⟩
  · dsimp only at h
    split at h
    · next hsuccess =>
      cases h
      refine .inr ⟨rfl, hsuccess.1, fun item hitem => ?_⟩
      have heffective := beq_iff_eq.mp (List.all_eq_true.mp hsuccess.2.2 item hitem)
      have hterminal : isWorkItemTerminal (effectiveWorkItemStatus item running) = true := by
        rw [heffective]
        rfl
      rw [← effectiveWorkItemStatus_of_terminal hterminal]
      exact heffective
    · split at h
      · next hfailed =>
        cases h
        refine .inl ⟨rfl, .inr ⟨fun item hitem => ?_, ?_⟩⟩
        · have hterminal := List.all_eq_true.mp hfailed.2.2 item hitem
          rwa [effectiveWorkItemStatus_of_terminal hterminal] at hterminal
        · obtain ⟨item, hitem, hstatus⟩ := List.any_eq_true.mp hfailed.2.1
          simp only [Bool.or_eq_true, beq_iff_eq] at hstatus
          exact ⟨item, hitem, hstatus⟩
      · cases h

theorem Attempt.Succeeds.over (h : attempt.Succeeds) : attempt.Over := by
  refine ⟨?_, fun item hitem => ?_⟩
  · rw [h.plan]
    rfl
  · rw [h.items item hitem]
    rfl

theorem Attempt.Fails.over (h : attempt.Fails) (hcurrent : attempt.Current) : attempt.Over := by
  -- an attempt that has items has a plan
  rcases h with hplan | ⟨hterminal, item, hitem, -⟩
  · refine ⟨by rw [hplan]; rfl, fun item hitem => ?_⟩
    rcases hcurrent.plan with ⟨_, hnil⟩ | ⟨_, hnil⟩ | ⟨hsuccess, _⟩
    · rw [hnil] at hitem
      cases hitem
    · rw [hnil] at hitem
      cases hitem
    · rw [hplan] at hsuccess
      cases hsuccess
  · refine ⟨?_, fun other hother => ?_⟩
    · rcases hcurrent.plan with ⟨_, hnil⟩ | ⟨_, hnil⟩ | ⟨hsuccess, _⟩
      · rw [hnil] at hitem
        cases hitem
      · rw [hnil] at hitem
        cases hitem
      · rw [hsuccess]
        rfl
    · refine (hcurrent.items other hother).resolve_left fun hwaits => ?_
      have := hterminal other hother
      rw [beq_iff_eq.mp hwaits] at this
      cases this

theorem Attempt.Over.close (h : attempt.Over) (status : PursuitEntityRunStatus)
    (failureReasons : List AttemptFailureReason) : (attempt.close status failureReasons).Over :=
  ⟨h.plan, h.items⟩

end Decide

/-! ## What is written -/

/-- The pursuit goes on: its record and the status of its workflow are as before. -/
structure GoesOn (state next : PursuitState) : Prop where
  pursuit : next.ext.pursuit = state.ext.pursuit
  status : next.workflowStatus = state.workflowStatus

/-- The pursuit has ended with this status, and these are its legs. -/
structure EndsAs (state next : PursuitState) (status : PursuitEntityRunStatus)
    (legs : List Leg) : Prop where
  legs : next.ext.legs = legs
  pursuit : ∃ closedAt, next.ext.pursuit = { state.ext.pursuit with status, closedAt }
  done : next.isWorkflowDone = true
  status : next.workflowStatus = if status = .success then .success else .failure

/-- The leg with this final status of its last attempt. -/
def Leg.decided (leg : Leg) (earlier : List Attempt) (current : Attempt)
    (status : PursuitEntityRunStatus) (failureReasons : List AttemptFailureReason) : Leg :=
  { leg with attempts := earlier ++ [current.close status failureReasons] }

/-- The leg as a success. -/
def Leg.succeeded (leg : Leg) (earlier : List Attempt) (current : Attempt)
    (failureReasons : List AttemptFailureReason) : Leg :=
  { leg.decided earlier current .success failureReasons with status := .success }

/-- The leg as a failure. -/
def Leg.failed (leg : Leg) (earlier : List Attempt) (current : Attempt)
    (failureReasons : List AttemptFailureReason) : Leg :=
  { leg.decided earlier current .failed failureReasons with status := .failed }

/-- The leg with one more attempt. -/
def Leg.retried (leg : Leg) (earlier : List Attempt) (current : Attempt)
    (failureReasons : List AttemptFailureReason) (retry : Attempt) : Leg :=
  { leg with attempts := earlier ++ [current.close .failed failureReasons] ++ [retry] }

@[simp] theorem Leg.succeeded_attempts (leg : Leg) (earlier : List Attempt) (current : Attempt)
    (failureReasons : List AttemptFailureReason) :
    (leg.succeeded earlier current failureReasons).attempts =
      earlier ++ [current.close .success failureReasons] :=
  rfl

@[simp] theorem Leg.failed_attempts (leg : Leg) (earlier : List Attempt) (current : Attempt)
    (failureReasons : List AttemptFailureReason) :
    (leg.failed earlier current failureReasons).attempts =
      earlier ++ [current.close .failed failureReasons] :=
  rfl

@[simp] theorem Leg.retried_attempts (leg : Leg) (earlier : List Attempt) (current : Attempt)
    (failureReasons : List AttemptFailureReason) (retry : Attempt) :
    (leg.retried earlier current failureReasons retry).attempts =
      earlier ++ [current.close .failed failureReasons] ++ [retry] :=
  rfl

/-- **What the reconciliation of the open leg writes**, once the current attempt is decided. -/
inductive Reconciled (host : Host) (stamp : Stamp) (state : PursuitState) (closed : List Leg)
    (leg : Leg) (earlier : List Attempt) (current : Attempt) (next : PursuitState) : Prop
  | retried (failureReasons : List AttemptFailureReason) (hfails : current.Fails)
      (hmore : earlier.length + 1 < leg.maxAttempts) (retry : Attempt)
      (hretry : retry = createAttempt host stamp (3 * closed.length) (earlier.length + 2)
        leg.legGoalVersion)
      (hopen : Open next closed (leg.retried earlier current failureReasons retry)
        (earlier ++ [current.close .failed failureReasons]) retry)
      (hon : GoesOn state next)
  | failed (failureReasons : List AttemptFailureReason) (hfails : current.Fails)
      (hlast : leg.maxAttempts ≤ earlier.length + 1)
      (hend : EndsAs state next .failed (closed ++ [leg.failed earlier current failureReasons]))
  | succeeded (failureReasons : List AttemptFailureReason) (hsucceeds : current.Succeeds)
      (input : LegInit)
      (hinput : nextLegInit state (leg.succeeded earlier current failureReasons) = some input)
      (hopen : Open next (closed ++ [leg.succeeded earlier current failureReasons])
        (createLeg host stamp (3 * closed.length) input) []
        (createAttempt host stamp (3 * closed.length + 1) 1 1))
      (hon : GoesOn state next)
  | completed (failureReasons : List AttemptFailureReason) (hsucceeds : current.Succeeds)
      (hinput : nextLegInit state (leg.succeeded earlier current failureReasons) = none)
      (hend : EndsAs state next .success
        (closed ++ [leg.succeeded earlier current failureReasons]))

section Reconcile

variable {host : Host} {stamp : Stamp} {running : RunningMetadata} {state : PursuitState}
  {closed : List Leg} {leg : Leg} {earlier : List Attempt} {current : Attempt}

theorem Leg.closeAttempt_eq (hattempts : leg.attempts = earlier ++ [current])
    (status : PursuitEntityRunStatus) (failureReasons : List AttemptFailureReason) :
    leg.closeAttempt status failureReasons = leg.decided earlier current status failureReasons := by
  unfold Leg.closeAttempt Leg.decided
  rw [hattempts, List.length_append, List.length_singleton, Nat.add_sub_cancel]
  rw [modify_append_last]
  rfl

theorem setLeg_last (hlegs : state.ext.legs = closed ++ [leg]) (other : Leg) :
    (state.setLeg closed.length other).ext.legs = closed ++ [other] := by
  show state.ext.legs.set closed.length other = _
  rw [hlegs, List.set_append_right _ _ (Nat.le_refl _), Nat.sub_self]
  rfl

variable (host stamp running) in
/-- **What `reconcileLeg` does with the open leg.** -/
theorem reconciled_of_reconcileLeg (h : Open state closed leg earlier current) :
    (reconcileLeg host stamp running closed.length leg state = (state, false) ∧
        nextAttemptStatus leg current running = none) ∨
      (reconcileLeg host stamp running closed.length leg state).2 = true ∧
        Reconciled host stamp state closed leg earlier current
          (reconcileLeg host stamp running closed.length leg state).1 := by
  have hlast : leg.attempts.getLast? = some current := by
    rw [h.leg.attempts, List.getLast?_append, List.getLast?_singleton, Option.some_or]
  have hgoing : isPursuitEntityTerminal current.status = false := by
    rw [h.leg.current.running]
    rfl
  unfold reconcileLeg
  simp only [hlast, hgoing, Bool.false_eq_true, if_false]
  cases hnext : nextAttemptStatus leg current running with
  | none => exact .inl ⟨rfl, rfl⟩
  | some decision =>
    right
    obtain ⟨status, failureReasons⟩ := decision
    have hclose := Leg.closeAttempt_eq h.leg.attempts status failureReasons
    have hlength : (leg.decided earlier current status failureReasons).attempts.length =
        earlier.length + 1 := by
      rw [Leg.decided, List.length_append, List.length_singleton]
    -- the attempt that is closed has nothing under way
    have hovers : current.Over →
        ∀ attempt ∈ earlier ++ [current.close status failureReasons], attempt.Over := by
      intro hover attempt hattempt
      rcases List.mem_append.mp hattempt with hattempt | hattempt
      · exact h.leg.past attempt hattempt
      · obtain rfl := List.mem_singleton.mp hattempt
        exact hover.close status failureReasons
    rcases nextAttemptStatus_cases hnext with ⟨rfl, hfails⟩ | ⟨rfl, hsucceeds⟩
    · have hpast := hovers (hfails.over h.leg.current)
      simp only [hclose, hlength]
      split
      · next hmore =>
        refine ⟨rfl, .retried failureReasons hfails hmore _ rfl ⟨setLeg_last h.legs _, h.closed,
          Leg.open_of_createAttempt rfl h.leg.running hpast, h.notDone⟩ ⟨rfl, rfl⟩⟩
      · next hlast =>
        exact ⟨rfl, .failed failureReasons hfails (Nat.not_lt.mp hlast)
          ⟨setLeg_last h.legs _, ⟨_, rfl⟩, rfl, rfl⟩⟩
    · have hpast := hovers hsucceeds.over
      simp only [hclose]
      split
      · next input hinput =>
        refine ⟨rfl, .succeeded failureReasons hsucceeds input ?_ ⟨?_, ?_, createLeg_open ..,
          h.notDone⟩ ⟨rfl, rfl⟩⟩
        · exact hinput
        · show (state.setLeg closed.length _).ext.legs ++ [_] = _
          rw [setLeg_last h.legs]
          rfl
        · intro other hother
          rcases List.mem_append.mp hother with hother | hother
          · exact h.closed other hother
          · obtain rfl := List.mem_singleton.mp hother
            exact ⟨by simp [Leg.succeeded], hpast⟩
      · next hinput =>
        refine ⟨rfl, .completed failureReasons hsucceeds ?_ ⟨setLeg_last h.legs _, ⟨_, rfl⟩, rfl,
          rfl⟩⟩
        exact hinput

end Reconcile

end EphemeralAgent.Pursuit
