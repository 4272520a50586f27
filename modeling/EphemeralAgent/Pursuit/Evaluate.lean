import EphemeralAgent.Pursuit.Reconcile

/-!
# Evaluating an open pursuit

`evaluateWorkflowProgress` blocks the items whose dependencies have failed, and then goes on with
the open leg, retries it, opens the next one, or ends the pursuit.

* `Decided`, `reconcileLeg_cases` — what a decided attempt does to the pursuit
* `Evaluated`, `evaluated_of_evaluate` — what the evaluation makes of an open pursuit
* `reconciled_of_evaluate` — everything that it writes
-/

namespace EphemeralAgent.Pursuit

open EphemeralAgent.Lib EphemeralAgent.Workflow

/-! ## Deciding an attempt -/

/-- What a decided attempt does to the pursuit. -/
inductive Decided (host : Host) (stamp : Stamp) (closed : List Leg) (leg : Leg)
    (earlier : List Attempt) (current : Attempt) (next : PursuitState) : Prop
  | retried (status : PursuitEntityRunStatus) (failureReasons : List AttemptFailureReason)
      (sequence : Nat)
      (hopen : Open next closed
        { leg with
          attempts := earlier ++ [current.close status failureReasons] ++
            [createAttempt host stamp (3 * closed.length) sequence leg.legGoalVersion] }
        (earlier ++ [current.close status failureReasons])
        (createAttempt host stamp (3 * closed.length) sequence leg.legGoalVersion))
  | succeeded (status : PursuitEntityRunStatus) (failureReasons : List AttemptFailureReason)
      (input : LegInit)
      (hopen : Open next
        (closed ++
          [{ leg with
             attempts := earlier ++ [current.close status failureReasons], status := .success }])
        (createLeg host stamp (3 * closed.length) input) []
        (createAttempt host stamp (3 * closed.length + 1) 1 1))
  | done (hdone : next.isWorkflowDone = true) (hlegs : next.ext.legs.length = closed.length + 1)

section Decide

variable {host : Host} {stamp : Stamp} {running : RunningMetadata} {state : PursuitState}
  {closed : List Leg} {leg : Leg} {earlier : List Attempt} {current : Attempt}

theorem Reconciled.decided {next : PursuitState}
    (h : Reconciled host stamp state closed leg earlier current next) :
    Decided host stamp closed leg earlier current next := by
  cases h with
  | retried failureReasons _ _ _ hretry hopen =>
    subst hretry
    exact .retried .failed failureReasons _ hopen
  | failed failureReasons _ _ hend => exact .done hend.done (by simp [hend.legs])
  | succeeded failureReasons _ input _ hopen => exact .succeeded .success failureReasons input hopen
  | completed failureReasons _ _ hend => exact .done hend.done (by simp [hend.legs])

variable (host stamp running) in
/-- What `reconcileLeg` does with the open leg. -/
theorem reconcileLeg_cases (h : Open state closed leg earlier current) :
    (reconcileLeg host stamp running closed.length leg state = (state, false) ∧
        nextAttemptStatus leg current running = none) ∨
      (reconcileLeg host stamp running closed.length leg state).2 = true ∧
        Decided host stamp closed leg earlier current
          (reconcileLeg host stamp running closed.length leg state).1 := by
  rcases reconciled_of_reconcileLeg host stamp running h with hnone | ⟨hchanged, hreconciled⟩
  · exact .inl hnone
  · exact .inr ⟨hchanged, hreconciled.decided⟩

end Decide

/-! ## The loop over the legs -/

theorem Open.setLeg {state : PursuitState} {closed : List Leg} {leg leg' : Leg}
    {earlier : List Attempt} {current : Attempt} (h : Open state closed leg earlier current)
    (hadv : leg.Advances leg') :
    ∃ earlier' current', Open (state.setLeg closed.length leg') closed leg' earlier' current' ∧
      List.Forall₂ Attempt.Advances earlier earlier' ∧ current.Advances current' := by
  obtain ⟨earlier', current', hleg', hearlier, hcurrent⟩ := h.leg.advances hadv
  exact ⟨earlier', current', ⟨setLeg_last h.legs leg', h.closed, hleg', h.notDone⟩, hearlier,
    hcurrent⟩

/-- Putting the open leg back changes nothing. -/
theorem Open.setLeg_self {state : PursuitState} {closed : List Leg} {leg : Leg}
    {earlier : List Attempt} {current : Attempt} (h : Open state closed leg earlier current) :
    state.setLeg closed.length leg = state := by
  unfold PursuitState.setLeg
  rw [h.legs, List.set_append_right _ _ (Nat.le_refl _), Nat.sub_self]
  simp [← h.legs]

theorem Open.congr {state next : PursuitState} {closed : List Leg} {leg : Leg}
    {earlier : List Attempt} {current : Attempt} (h : Open state closed leg earlier current)
    (hlegs : next.ext.legs = state.ext.legs) (hdone : next.isWorkflowDone = state.isWorkflowDone) :
    Open next closed leg earlier current :=
  ⟨hlegs.trans h.legs, h.closed, h.leg, hdone.trans h.notDone⟩

theorem Decided.congr {host : Host} {stamp : Stamp} {state next : PursuitState}
    {closed : List Leg} {leg : Leg} {earlier : List Attempt} {current : Attempt}
    (h : Decided host stamp closed leg earlier current state)
    (hlegs : next.ext.legs = state.ext.legs) (hdone : next.isWorkflowDone = state.isWorkflowDone) :
    Decided host stamp closed leg earlier current next := by
  cases h with
  | retried status failureReasons sequence hopen =>
    exact .retried status failureReasons sequence (hopen.congr hlegs hdone)
  | succeeded status failureReasons input hopen =>
    exact .succeeded status failureReasons input (hopen.congr hlegs hdone)
  | done h hlength => exact .done (hdone.trans h) (hlegs ▸ hlength)

/-- The states have the same legs, the same record and the same end. -/
structure SameProgress (state next : PursuitState) : Prop where
  legs : next.ext.legs = state.ext.legs
  pursuit : next.ext.pursuit = state.ext.pursuit
  done : next.isWorkflowDone = state.isWorkflowDone
  status : next.workflowStatus = state.workflowStatus

theorem Reconciled.congr {host : Host} {stamp : Stamp} {before state next after : PursuitState}
    {closed : List Leg} {leg : Leg} {earlier : List Attempt} {current : Attempt}
    (h : Reconciled host stamp before closed leg earlier current next) (hon : GoesOn state before)
    (hsame : SameProgress next after) :
    Reconciled host stamp state closed leg earlier current after := by
  have hinit : ∀ other, nextLegInit before other = nextLegInit state other := by
    intro other
    unfold nextLegInit
    rw [hon.pursuit]
  have hons : GoesOn before next → GoesOn state after := fun h =>
    ⟨hsame.pursuit.trans (h.pursuit.trans hon.pursuit),
      hsame.status.trans (h.status.trans hon.status)⟩
  have hends : ∀ {status legs}, EndsAs before next status legs → EndsAs state after status legs := by
    intro status legs hend
    obtain ⟨closedAt, hpursuit⟩ := hend.pursuit
    refine ⟨hsame.legs.trans hend.legs, ⟨closedAt, ?_⟩, hsame.done.trans hend.done,
      hsame.status.trans hend.status⟩
    rw [hsame.pursuit, hpursuit, hon.pursuit]
  cases h with
  | retried failureReasons hfails hmore retry hretry hopen h =>
    exact .retried failureReasons hfails hmore retry hretry (hopen.congr hsame.legs hsame.done)
      (hons h)
  | failed failureReasons hfails hlast hend =>
    exact .failed failureReasons hfails hlast (hends hend)
  | succeeded failureReasons hsucceeds input hinput hopen h =>
    exact .succeeded failureReasons hsucceeds input (hinit _ ▸ hinput)
      (hopen.congr hsame.legs hsame.done) (hons h)
  | completed failureReasons hsucceeds hinput hend =>
    exact .completed failureReasons hsucceeds (hinit _ ▸ hinput) (hends hend)

/-- **What the evaluation makes of an open pursuit**: items are blocked, and then the current
attempt is undecided or decided. -/
inductive Evaluated (host : Host) (stamp : Stamp) (running : RunningMetadata) (closed : List Leg)
    (leg : Leg) (earlier : List Attempt) (current : Attempt) (next : PursuitState) : Prop
  | undecided (leg' : Leg) (earlier' : List Attempt) (current' : Attempt)
      (hadvances : leg.Advances leg') (hearlier : List.Forall₂ Attempt.Advances earlier earlier')
      (hcurrent : current.Advances current') (hopen : Open next closed leg' earlier' current')
      (hunblocked : leg'.Unblocked running)
      (hnext : nextAttemptStatus leg' current' running = none)
  | decided (leg' : Leg) (earlier' : List Attempt) (current' : Attempt)
      (hadvances : leg.Advances leg') (hearlier : List.Forall₂ Attempt.Advances earlier earlier')
      (hcurrent : current.Advances current') (hleg : leg'.Open earlier' current')
      (hdecided : Decided host stamp closed leg' earlier' current' next)

section Evaluate

variable (host : Host) (stamp : Stamp) (running : RunningMetadata) {state : PursuitState}
  {closed : List Leg} {leg : Leg} {earlier : List Attempt} {current : Attempt}

theorem reconcileLegs_beyond (fuel : Nat) {index : Nat} (h : state.ext.legs.length ≤ index) :
    reconcileLegs host stamp running fuel index state = (state, false) := by
  cases fuel with
  | zero => rfl
  | succ fuel =>
    unfold reconcileLegs
    rw [List.getElem?_eq_none h]

/-- The loop does nothing with a leg that it has opened itself. -/
theorem reconcileLegs_created (fuel : Nat) {before : List Leg} {stamp' : Stamp} {index : Nat}
    {input : LegInit} (h : state.ext.legs = before ++ [createLeg host stamp' index input]) :
    reconcileLegs host stamp running fuel before.length state = (state, false) := by
  cases fuel with
  | zero => rfl
  | succ fuel =>
    have hget : state.ext.legs[before.length]? = some (createLeg host stamp' index input) := by
      rw [h, List.getElem?_concat_length]
    obtain ⟨hblocks, -⟩ :=
      propagateDependencyBlocks_spec running (createLeg host stamp' index input)
    have hunchanged :
        (propagateDependencyBlocks running (createLeg host stamp' index input)).2 = false := by
      by_contra hchanged
      have hlt := hblocks.changed (by simpa using hchanged)
      have hzero : (createLeg host stamp' index input).waiting = 0 := rfl
      omega
    have hsame := hblocks.unchanged hunchanged
    have hset : state.setLeg before.length (createLeg host stamp' index input) = state := by
      unfold PursuitState.setLeg
      rw [h, List.set_append_right _ _ (Nat.le_refl _), Nat.sub_self]
      simp [← h]
    have hnone : reconcileLeg host stamp running before.length
        (createLeg host stamp' index input) state = (state, false) := by
      simp [reconcileLeg, createLeg, createAttempt, isPursuitEntityTerminal, nextAttemptStatus]
    unfold reconcileLegs
    simp only [hget, hsame, hunchanged, hset, hnone]
    rw [if_neg (by simp [createLeg]), reconcileLegs_beyond _ _ _ fuel (by simp [h])]
    rfl

variable {host stamp} in
theorem Decided.reconcileLegs {next : PursuitState} (fuel : Nat)
    (h : Decided host stamp closed leg earlier current next) :
    reconcileLegs host stamp running fuel (closed.length + 1) next = (next, false) := by
  cases h with
  | retried _ _ _ hopen => exact reconcileLegs_beyond _ _ _ fuel (by simp [hopen.legs])
  | succeeded status failureReasons input hopen =>
    have := reconcileLegs_created host stamp running fuel hopen.legs
    rwa [List.length_append, List.length_singleton] at this
  | done _ hlegs => exact reconcileLegs_beyond _ _ _ fuel (by omega)

/-- The loop at the open leg: it blocks items of the leg and reconciles the leg. -/
theorem reconcileLegs_eq (fuel : Nat) (h : Open state closed leg earlier current) :
    ∃ leg' blocked, Blocks leg (leg', blocked) ∧ leg'.Unblocked running ∧
      reconcileLegs host stamp running (fuel + 1) closed.length state =
        ((reconcileLeg host stamp running closed.length leg'
            (state.setLeg closed.length leg')).1,
          (reconcileLeg host stamp running closed.length leg'
            (state.setLeg closed.length leg')).2 || blocked) := by
  have hget : state.ext.legs[closed.length]? = some leg := by
    rw [h.legs, List.getElem?_concat_length]
  obtain ⟨hblocks, hunblocked⟩ := propagateDependencyBlocks_spec running leg
  cases hp : propagateDependencyBlocks running leg with
  | mk leg' blocked =>
    rw [hp] at hblocks hunblocked
    refine ⟨leg', blocked, hblocks, hunblocked, ?_⟩
    obtain ⟨earlier', current', hset, -⟩ := h.setLeg hblocks.advances
    -- behind the open leg there is nothing, or the leg that it has opened
    have hrest : ∀ next reconciled,
        reconcileLeg host stamp running closed.length leg' (state.setLeg closed.length leg') =
          (next, reconciled) →
        reconcileLegs host stamp running fuel (closed.length + 1) next = (next, false) := by
      intro next reconciled hnext
      rcases reconcileLeg_cases host stamp running hset with ⟨hrec, -⟩ | ⟨-, hdecided⟩
      · rw [hrec, Prod.mk.injEq] at hnext
        rw [← hnext.1]
        exact reconcileLegs_beyond _ _ _ fuel (by simp [hset.legs])
      · rw [hnext] at hdecided
        exact hdecided.reconcileLegs running fuel
    unfold reconcileLegs
    simp only [hget, hp]
    rw [if_neg (by simp [h.leg.running])]
    cases hrec : reconcileLeg host stamp running closed.length leg'
        (state.setLeg closed.length leg') with
    | mk next reconciled => simp only [hrest next reconciled hrec, Bool.or_false]

/-- The loop skips the legs that are closed. -/
theorem reconcileLegs_skip (h : Open state closed leg earlier current) (fuel : Nat) :
    ∀ count ≤ closed.length,
      reconcileLegs host stamp running (fuel + count) (closed.length - count) state =
        reconcileLegs host stamp running fuel closed.length state := by
  intro count
  induction count with
  | zero => simp
  | succ count ih =>
    intro hle
    have hlt : closed.length - (count + 1) < closed.length := by omega
    have hget : state.ext.legs[closed.length - (count + 1)]? =
        some closed[closed.length - (count + 1)] := by
      rw [h.legs, List.getElem?_append_left hlt, List.getElem?_eq_getElem hlt]
    have hclosed := (h.closed _ (List.getElem_mem hlt)).status
    rw [← ih (by omega)]
    show reconcileLegs host stamp running (fuel + count + 1) _ state = _
    rw [reconcileLegs.eq_2]
    simp only [hget]
    rw [if_pos hclosed, show closed.length - (count + 1) + 1 = closed.length - count by omega]

/-- The evaluation as the reconciliation of the open leg, whose items may have been blocked. -/
theorem evaluate_eq (h : Open state closed leg earlier current) (runtime : RuntimeSnapshot) :
    ∃ leg' blocked next reconciled, Blocks leg (leg', blocked) ∧
      leg'.Unblocked (runningMetadata runtime) ∧
      reconcileLeg host stamp (runningMetadata runtime) closed.length leg'
        (state.setLeg closed.length leg') = (next, reconciled) ∧
      SameProgress next (evaluateWorkflowProgress host stamp state runtime).state := by
  have hfuel : 2 * state.ext.legs.length = closed.length + 1 + 1 + closed.length := by
    rw [h.legs, List.length_append, List.length_singleton]
    omega
  have hskip := reconcileLegs_skip host stamp (runningMetadata runtime) h (closed.length + 1 + 1)
    closed.length (Nat.le_refl _)
  rw [Nat.sub_self, ← hfuel] at hskip
  obtain ⟨leg', blocked, hblocks, hunblocked, heq⟩ :=
    reconcileLegs_eq host stamp (runningMetadata runtime) (closed.length + 1) h
  rw [heq] at hskip
  obtain ⟨earlier', current', hset, -⟩ := h.setLeg hblocks.advances
  have hcases := reconcileLeg_cases host stamp (runningMetadata runtime) hset
  cases hrec : reconcileLeg host stamp (runningMetadata runtime) closed.length leg'
      (state.setLeg closed.length leg') with
  | mk next reconciled =>
    refine ⟨leg', blocked, next, reconciled, hblocks, hunblocked, hrec, ?_⟩
    rw [hrec] at hskip hcases
    unfold evaluateWorkflowProgress reconcilePursuitProgress
    rw [if_neg (by simp [h.notDone]), hskip]
    cases hchanged : reconciled || blocked with
    | true => exact ⟨rfl, rfl, rfl, rfl⟩
    | false =>
      -- nothing was blocked and nothing reconciled, so nothing has changed
      rw [Bool.or_eq_false_iff] at hchanged
      obtain rfl : leg' = leg := hblocks.unchanged hchanged.2
      rw [h.setLeg_self] at hcases
      rcases hcases with ⟨hsame, -⟩ | ⟨htrue, -⟩
      · rw [Prod.mk.injEq] at hsame
        rw [hsame.1]
        exact ⟨rfl, rfl, rfl, rfl⟩
      · rw [hchanged.1] at htrue
        cases htrue

/-- **The evaluation of an open pursuit.** -/
theorem evaluated_of_evaluate (h : Open state closed leg earlier current)
    (runtime : RuntimeSnapshot) :
    Evaluated host stamp (runningMetadata runtime) closed leg earlier current
      (evaluateWorkflowProgress host stamp state runtime).state := by
  obtain ⟨leg', blocked, next, reconciled, hblocks, hunblocked, hrec, hsame⟩ :=
    evaluate_eq host stamp h runtime
  obtain ⟨earlier', current', hset, hearlier, hcurrent⟩ := h.setLeg hblocks.advances
  have hcases := reconcileLeg_cases host stamp (runningMetadata runtime) hset
  rw [hrec] at hcases
  rcases hcases with ⟨hnone, hnext⟩ | ⟨-, hdecided⟩
  · rw [Prod.mk.injEq] at hnone
    obtain ⟨rfl, -⟩ := hnone
    exact .undecided leg' earlier' current' hblocks.advances hearlier hcurrent
      (hset.congr hsame.legs hsame.done) hunblocked hnext
  · exact .decided leg' earlier' current' hblocks.advances hearlier hcurrent hset.leg
      (hdecided.congr hsame.legs hsame.done)

/-- **What the evaluation of an open pursuit writes.** -/
theorem reconciled_of_evaluate (h : Open state closed leg earlier current)
    (runtime : RuntimeSnapshot) :
    ∃ leg' earlier' current', leg.Advances leg' ∧ leg'.Open earlier' current' ∧
      (Open (evaluateWorkflowProgress host stamp state runtime).state closed leg' earlier'
          current' ∧
        GoesOn state (evaluateWorkflowProgress host stamp state runtime).state ∨
      Reconciled host stamp state closed leg' earlier' current'
        (evaluateWorkflowProgress host stamp state runtime).state) := by
  obtain ⟨leg', blocked, next, reconciled, hblocks, -, hrec, hsame⟩ :=
    evaluate_eq host stamp h runtime
  obtain ⟨earlier', current', hset, -⟩ := h.setLeg hblocks.advances
  refine ⟨leg', earlier', current', hblocks.advances, hset.leg, ?_⟩
  have hcases := reconciled_of_reconcileLeg host stamp (runningMetadata runtime) hset
  rw [hrec] at hcases
  rcases hcases with ⟨hnone, -⟩ | ⟨-, hreconciled⟩
  · rw [Prod.mk.injEq] at hnone
    obtain ⟨rfl, -⟩ := hnone
    exact .inl ⟨hset.congr hsame.legs hsame.done, hsame.pursuit, hsame.status⟩
  · exact .inr (hreconciled.congr ⟨rfl, rfl⟩ hsame)

end Evaluate

end EphemeralAgent.Pursuit
