import EphemeralAgent.Pursuit.Lifetime
import Mathlib.Algebra.Order.BigOperators.Group.List
import Mathlib.Algebra.Group.Action.Defs
import Mathlib.Algebra.Order.Ring.Nat
import Mathlib.Data.Prod.Lex

/-!
# Pursuits with predefined goals

A pursuit that is given its leg goals visits them one after the other, and it ends: there are so
many legs, attempts and plans, and every settlement uses one of them up or ends a work item.

* `Visits` — the legs pursue the first of the goals
* `remaining` — what is left to do, in lexicographic order
* `predefined_visits`, `predefined_terminates` — the two results
-/

namespace EphemeralAgent.Pursuit

open EphemeralAgent.Lib EphemeralAgent.Workflow

/-! ## The goals of the legs -/

/-- The legs pursue the first of these goals, with so many attempts each. -/
structure Visits (goals : List String) (maxAttempts : Nat) (state : PursuitState) : Prop where
  mode : state.ext.pursuit.legGoalMode = .predefined
  legGoals : state.ext.pursuit.legGoals = goals
  visited : state.ext.legs.map (·.legGoal) <+: goals
  maxAttempts : ∀ leg ∈ state.ext.legs, leg.maxAttempts = maxAttempts
  success : state.ext.pursuit.status = .success → state.ext.legs.length = goals.length

/-- The next goal of a list goes to the end of what is already taken. -/
theorem prefix_concat_of_getElem? {α : Type*} {xs ys : List α} {y : α} (h : xs <+: ys)
    (hy : ys[xs.length]? = some y) : xs ++ [y] <+: ys := by
  obtain ⟨rest, rfl⟩ := h
  rw [List.getElem?_append_right (Nat.le_refl _), Nat.sub_self] at hy
  cases rest with
  | nil => cases hy
  | cons z rest =>
    obtain rfl := Option.some.inj hy
    exact ⟨rest, List.append_assoc ..⟩

section Visits

variable {goals : List String} {maxAttempts : Nat} {host : Host} {stamp : Stamp}
  {state next : PursuitState} {closed : List Leg} {leg leg' : Leg}
  {earlier earlier' : List Attempt} {current current' : Attempt}

/-- The validator lets no planner of a predefined leg touch the goal. -/
theorem declareGoal_of_error {payload : PlannerOutcomePayload}
    (hmode : state.ext.pursuit.legGoalMode = .predefined)
    (h : plannerSubmissionError state leg current payload = none) (attemptId : String) :
    leg.declareGoal attemptId payload = leg := by
  unfold plannerSubmissionError at h
  split at h
  · cases h
  · next hnot =>
    simp only [hmode, true_and, not_or, Option.not_isSome_iff_eq_none] at hnot
    unfold Leg.declareGoal
    rw [hnot.1, hnot.2]

theorem Settled.legGoal {settled : NodeRunStatus} {metadata : PursuitNodeMetadata}
    (h : Settled state leg earlier current settled metadata leg' earlier' current')
    (hmode : state.ext.pursuit.legGoalMode = .predefined) : leg'.legGoal = leg.legGoal := by
  cases h with
  | planned planId number hplan hcompleted payload herror =>
    show (leg.declareGoal current.id payload).legGoal = leg.legGoal
    rw [declareGoal_of_error hmode herror]
  | planFailed => rfl
  | closed => rfl

/-- The open leg is replaced by one with the same goal. -/
theorem Visits.replace (h : Visits goals maxAttempts state) (hlegs : state.ext.legs = closed ++ [leg])
    (hnext : next.ext.legs = closed ++ [leg']) (hgoal : leg'.legGoal = leg.legGoal)
    (hmax : leg'.maxAttempts = leg.maxAttempts)
    (hmode : next.ext.pursuit.legGoalMode = state.ext.pursuit.legGoalMode)
    (hgoals : next.ext.pursuit.legGoals = state.ext.pursuit.legGoals)
    (hsuccess : next.ext.pursuit.status = .success → next.ext.legs.length = goals.length) :
    Visits goals maxAttempts next := by
  have hvisited := h.visited
  rw [hlegs, List.map_append, List.map_singleton] at hvisited
  refine ⟨hmode.trans h.mode, hgoals.trans h.legGoals, ?_, ?_, hsuccess⟩
  · rw [hnext, List.map_append, List.map_singleton, hgoal]
    exact hvisited
  · rw [hnext]
    intro other hother
    rcases List.mem_append.mp hother with hother | hother
    · exact h.maxAttempts other (by rw [hlegs]; exact List.mem_append_left _ hother)
    · obtain rfl := List.mem_singleton.mp hother
      rw [hmax]
      exact h.maxAttempts leg (by simp [hlegs])

/-- A pursuit that goes on has not succeeded yet. -/
theorem Visits.goesOn (h : Visits goals maxAttempts state) (hon : GoesOn state next)
    (hrunning : state.ext.pursuit.status = .running) (hlegs : state.ext.legs = closed ++ [leg])
    (hnext : next.ext.legs = closed ++ [leg']) (hgoal : leg'.legGoal = leg.legGoal)
    (hmax : leg'.maxAttempts = leg.maxAttempts) : Visits goals maxAttempts next := by
  refine h.replace hlegs hnext hgoal hmax (by rw [hon.pursuit]) (by rw [hon.pursuit]) fun hs => ?_
  rw [hon.pursuit, hrunning] at hs
  cases hs

theorem Visits.reconciled (h : Visits goals maxAttempts state)
    (hdecided : Reconciled host stamp state closed leg' earlier' current' next)
    (hlegs : state.ext.legs = closed ++ [leg]) (hadvances : leg.Advances leg')
    (hnumber : leg.sequence = closed.length + 1)
    (hrunning : state.ext.pursuit.status = .running) : Visits goals maxAttempts next := by
  have hgoal : leg'.legGoal = leg.legGoal := by rw [hadvances.eq]
  have hmax : leg'.maxAttempts = leg.maxAttempts := by rw [hadvances.eq]
  have hsequence : leg'.sequence = closed.length + 1 := by rw [hadvances.eq, ← hnumber]
  have hlength : (closed.map (·.legGoal) ++ [leg.legGoal]).length = closed.length + 1 := by simp
  have hvisited := h.visited
  rw [hlegs, List.map_append, List.map_singleton] at hvisited
  cases hdecided with
  | retried _ _ _ _ _ hopen hon => exact h.goesOn hon hrunning hlegs hopen.legs hgoal hmax
  | failed _ _ _ hend =>
    obtain ⟨closedAt, hpursuit⟩ := hend.pursuit
    refine h.replace hlegs hend.legs hgoal hmax (by rw [hpursuit]) (by rw [hpursuit]) fun hs => ?_
    rw [hpursuit] at hs
    cases hs
  | succeeded failureReasons hsucceeds input hinput hopen hon =>
    unfold nextLegInit at hinput
    rw [h.mode] at hinput
    obtain ⟨goal, hnext, rfl⟩ := Option.map_eq_some_iff.mp hinput
    have hnext : goals[closed.length + 1]? = some goal := by
      rw [← hsequence, ← h.legGoals]
      exact hnext
    refine ⟨?_, ?_, ?_, ?_, fun hs => ?_⟩
    · rw [hon.pursuit]
      exact h.mode
    · rw [hon.pursuit]
      exact h.legGoals
    · rw [hopen.legs, List.map_append, List.map_append, List.map_singleton, List.map_singleton]
      show _ ++ [leg'.legGoal] ++ [goal] <+: goals
      rw [hgoal]
      exact prefix_concat_of_getElem? hvisited (hlength ▸ hnext)
    · rw [hopen.legs]
      intro other hother
      rcases List.mem_append.mp hother with hother | hother
      · rcases List.mem_append.mp hother with hother | hother
        · exact h.maxAttempts other (by rw [hlegs]; exact List.mem_append_left _ hother)
        · obtain rfl := List.mem_singleton.mp hother
          exact hmax.trans (h.maxAttempts leg (by simp [hlegs]))
      · obtain rfl := List.mem_singleton.mp hother
        exact hmax.trans (h.maxAttempts leg (by simp [hlegs]))
    · rw [hon.pursuit, hrunning] at hs
      cases hs
  | completed failureReasons hsucceeds hinput hend =>
    obtain ⟨closedAt, hpursuit⟩ := hend.pursuit
    refine h.replace hlegs hend.legs hgoal hmax (by rw [hpursuit]) (by rw [hpursuit]) fun _ => ?_
    -- there is no goal behind the last leg
    unfold nextLegInit at hinput
    rw [h.mode] at hinput
    have hnone : goals[closed.length + 1]? = none := by
      rw [← hsequence, ← h.legGoals]
      exact Option.map_eq_none_iff.mp hinput
    have hle := hvisited.length_le
    rw [List.getElem?_eq_none_iff] at hnone
    rw [hend.legs, List.length_append, List.length_singleton]
    omega

/-- Every call keeps the legs on the goals. -/
theorem Visits.called {c : Call} (h : Visits goals maxAttempts state) (hsound : Sound state)
    (hcalled : Called host state c next) : Visits goals maxAttempts next := by
  have hstanding := fun hdone => (hsound.agrees.running hdone).2
  cases hcalled with
  | settled _ _ _ _ hopen hsettled _ hnext hon =>
    exact h.goesOn hon (hstanding hopen.notDone) hopen.legs hnext.legs (hsettled.legGoal h.mode)
      hsettled.stays.maxAttempts
  | done => exact h
  | undecided _ _ _ hopen hadvances hnext hon =>
    exact h.goesOn hon (hstanding hopen.notDone) hopen.legs hnext.legs (by rw [hadvances.eq])
      (by rw [hadvances.eq])
  | decided _ _ _ hopen hadvances _ hdecided =>
    have hshape := (wellFormed_iff hopen.legs).mp hsound.wellFormed
    exact h.reconciled hdecided hopen.legs hadvances hshape.number (hstanding hopen.notDone)

theorem Visits.run (h : Visits goals maxAttempts state) (hsound : Sound state) {cs : List Call}
    (run : Run (call host) Free state cs next) : Visits goals maxAttempts next := by
  induction run with
  | nil => exact h
  | snoc run _ hcall ih =>
    have hsound' := (hsound.run run).1
    exact ih.called hsound' (called_of_call hsound'.openOrDone hcall)

theorem visits_createInitialState (host : Host) (stamp : Stamp) {object : JsonObject}
    {args : PursuitArgs} (hargs : PursuitArgs.parse object = some args)
    (hgoals : args.legGoals = some goals) :
    Visits goals args.maxAttempts (createInitialState host stamp args) := by
  have hne : goals ≠ [] := fun hnil => (PursuitArgs.parse_spec hargs).2 (by rw [hgoals, hnil])
  obtain ⟨goal, rest, rfl⟩ := List.exists_cons_of_ne_nil hne
  refine ⟨?_, ?_, ?_, ?_, fun hs => (by cases hs)⟩
  · simp [createInitialState, hgoals]
  · simp [createInitialState, hgoals]
  · simp [createInitialState, hgoals, createLeg]
  · simp [createInitialState, createLeg]

end Visits

/-- Every goal has had a leg, and every leg has succeeded. -/
def AllSucceeded (goals : List String) (state : PursuitState) : Prop :=
  state.ext.legs.length = goals.length ∧ ∀ leg ∈ state.ext.legs, leg.status = .success

/-- A pursuit whose workflow has succeeded is through with its goals. -/
theorem Visits.allSucceeded {goals : List String} {maxAttempts : Nat} {state : PursuitState}
    (h : Visits goals maxAttempts state) (hsound : Sound state)
    (hworkflow : state.workflowStatus = .success) : AllSucceeded goals state := by
  have hstanding : Standing state true .success .success := by
    rcases hsound.agrees with h | h | h
    · have := h.workflow
      rw [hworkflow] at this
      cases this
    · exact h
    · have := h.workflow
      rw [hworkflow] at this
      cases this
  refine ⟨h.success hstanding.pursuit, fun leg hleg => ?_⟩
  obtain ⟨last, hlast, hstatus⟩ := hstanding.lastLeg
  obtain ⟨closed, hlegs⟩ := List.getLast?_eq_some_iff.mp hlast
  rw [hlegs] at hleg
  rcases List.mem_append.mp hleg with hleg | hleg
  · refine hsound.wellFormed.succeeded leg ?_
    rw [hlegs, List.dropLast_concat]
    exact hleg
  · obtain rfl := List.mem_singleton.mp hleg
    exact hstatus

section Runs

variable {host : Host} {object : JsonObject} {args : PursuitArgs} {goals : List String}
  {first pursuit : PursuitState} {cs : List Call} {s : WorkflowRunInstance PursuitFields}

theorem Visits.created {stamp : Stamp} (hargs : PursuitArgs.parse object = some args)
    (hgoals : args.legGoals = some goals)
    (run : Run (call host) Free (createInitialState host stamp args) cs pursuit) :
    Visits goals args.maxAttempts pursuit ∧ Sound pursuit := by
  have hsound := sound_createInitialState host stamp (PursuitArgs.parse_spec hargs).1
  exact ⟨(visits_createInitialState host stamp hargs hgoals).run hsound run, (hsound.run run).1⟩

/-- The pursuit behind a state of a run visits the goals of its arguments. -/
theorem Follows.visits (h : Follows host object first cs pursuit s)
    (hargs : PursuitArgs.parse object = some args) (hgoals : args.legGoals = some goals) :
    Visits goals args.maxAttempts pursuit := by
  obtain ⟨stamp, parsed, hparsed, rfl⟩ := h.created
  obtain rfl : args = parsed := Option.some.inj (hargs.symm.trans hparsed)
  exact (Visits.created hargs hgoals h.run).1

end Runs

/-- **A pursuit visits the goals it is given, in order.**  Its legs pursue a prefix of them after
any calls and in every state of every run, and the workflow succeeds only when every goal has had a
leg that succeeded. -/
theorem predefined_visits (host : Host) {object : JsonObject} {args : PursuitArgs}
    {goals : List String} (hargs : PursuitArgs.parse object = some args)
    (hgoals : args.legGoals = some goals) :
    (∀ stamp cs state, Run (call host) Free (createInitialState host stamp args) cs state →
      state.ext.legs.map (·.legGoal) <+: goals ∧
        (state.workflowStatus = .success → AllSucceeded goals state)) ∧
    ∀ definition toJsonObject ls s state,
      Run (step (pursuitRequest host definition object toJsonObject)) Free initial ls s →
      s.state = some state →
        state.ext.legs.map (·.legGoal) <+: goals ∧
          ∀ value, s.outcome = some (.success value) → AllSucceeded goals state := by
  refine ⟨?_, ?_⟩
  · intro stamp cs state run
    obtain ⟨hvisits, hsound⟩ := Visits.created hargs hgoals run
    exact ⟨hvisits.visited, hvisits.allSucceeded hsound⟩
  · intro definition toJsonObject ls s state run hstate
    rcases followed_of_run run with hnone | ⟨first, cs, pursuit, h⟩
    · rw [hnone.state] at hstate
      cases hstate
    · have hvisits := h.visits hargs hgoals
      unfold AllSucceeded
      rw [(h.ext hstate).1]
      refine ⟨hvisits.visited, fun value hvalue => ?_⟩
      exact hvisits.allSucceeded h.sound (h.success value hvalue).2

/-- A pursuit over two goals, with one attempt each. -/
def twoGoals : WorkflowStartRequest PursuitFields :=
  pursuitRequest spellingHost boundDefinition
    [("pursuit_goal", .str "ship"), ("leg_goals", .arr [.str "build", .str "test"]),
      ("max_attempts", .num 1)]
    fun _ => .ok .null

def oneItem : Json :=
  .obj
    [("summary", .str "one item"),
      ("work_items", .arr
        [.obj
          [("id", .str "a"), ("agent_name", .str "worker"), ("title", .str "A"),
            ("spec", .str "do a")]])]

def passed : Json :=
  .obj [("summary", .str "a"), ("is_pass", .bool true), ("outcome", .str "done")]

/-- Both legs are planned and worked off. -/
def bothLegs : List Label :=
  [.start, .launchResolved .start, .resume .start, .submit 0 oneItem, .dequeue,
    .launchResolved .queue, .resume .queue, .submit 1 passed, .dequeue, .launchResolved .queue,
    .resume .queue, .submit 2 oneItem, .dequeue, .launchResolved .queue, .resume .queue,
    .submit 3 passed, .dequeue]

/-- The workflow ends with a success. -/
def isSuccess : Option WorkflowOutcome → Bool
  | some (.success _) => true
  | _ => false

theorem predefined_visits_two :
    ∃ s state, Run (step twoGoals) Free initial bothLegs s ∧ s.state = some state ∧
      (∃ value, s.outcome = some (.success value)) ∧
      state.ext.legs.map (·.legGoal) <+: ["build", "test"] ∧
      AllSucceeded ["build", "test"] state := by
  obtain ⟨s, hs, hp⟩ := exists_run (step twoGoals) Free initial bothLegs
    (fun s => s.state.isSome && isSuccess s.outcome) (by decide +kernel)
  obtain ⟨hsome, hsuccess⟩ := Bool.and_eq_true_iff.mp hp
  obtain ⟨state, hstate⟩ := Option.isSome_iff_exists.mp hsome
  have hvalue : ∃ value, s.outcome = some (.success value) := by
    unfold isSuccess at hsuccess
    split at hsuccess
    · next value heq => exact ⟨value, heq⟩
    · cases hsuccess
  have h := (predefined_visits spellingHost rfl rfl).2 _ _ _ s state hs hstate
  obtain ⟨value, houtcome⟩ := hvalue
  exact ⟨s, state, hs, hstate, ⟨value, houtcome⟩, h.1, h.2 value houtcome⟩

/-! ## Plans that are over -/

/-- How many plans of the leg are over. -/
def Leg.plansOver (leg : Leg) : Nat :=
  (leg.attempts.map (·.plan.status)).countP isPursuitEntityTerminal

/-- How many plans are over. -/
def plansOver (state : PursuitState) : Nat :=
  (state.ext.legs.map (·.plansOver)).sum

def PursuitNodeMetadata.isPlanner : PursuitNodeMetadata → Bool
  | .planner .. => true
  | .worker .. => false

/-- The settlement is for a plan. -/
def settlesPlan (settlement : WorkflowNodeSettlement) : Bool :=
  (settlementMetadata settlement).any (·.isPlanner)

/-- How many of the settlements that these calls apply are for plans. -/
def planSettlements (settlements : List WorkflowNodeSettlement) : Nat :=
  settlements.countP settlesPlan

section Plans

variable {host : Host} {stamp : Stamp} {state next : PursuitState} {closed : List Leg}
  {leg leg' : Leg} {earlier earlier' : List Attempt} {current current' : Attempt}

theorem plansOver_of_legs (h : state.ext.legs = closed ++ [leg]) :
    plansOver state = (closed.map (·.plansOver)).sum + leg.plansOver := by
  simp [plansOver, h]

theorem Leg.plansOver_of_attempts (h : leg.attempts = earlier ++ [current]) :
    leg.plansOver = (earlier.map (·.plan.status)).countP isPursuitEntityTerminal +
      if isPursuitEntityTerminal current.plan.status then 1 else 0 := by
  unfold Leg.plansOver
  rw [h, List.map_append, List.countP_append, List.map_singleton, List.countP_singleton]

theorem Leg.Advances.plansOver (h : leg.Advances leg') : leg'.plansOver = leg.plansOver := by
  have hplans : leg'.attempts.map (·.plan.status) = leg.attempts.map (·.plan.status) :=
    map_eq_of_forall₂ (fun a b (hab : Attempt.Advances a b) => by rw [hab.plan]) h.attempts
  unfold Leg.plansOver
  rw [hplans]

/-- A planner settlement ends a plan, and a worker settlement none. -/
theorem Settled.plansOver {settled : NodeRunStatus} {metadata : PursuitNodeMetadata}
    (h : Settled state leg earlier current settled metadata leg' earlier' current')
    (hattempts : leg.attempts = earlier ++ [current]) :
    leg'.plansOver = leg.plansOver + if metadata.isPlanner then 1 else 0 := by
  have hstart : current.plan.status = .notStarted →
      isPursuitEntityTerminal current.plan.status = false := by
    intro hplan
    rw [hplan]
    rfl
  rw [Leg.plansOver_of_attempts hattempts]
  cases h with
  | planned planId number hplan hcompleted payload herror =>
    have hlast : (leg.planned earlier current payload).attempts =
        earlier.map (·.mark current.id payload) ++
          [(current.mark current.id payload).planSubmitted leg.id
            (leg.declareGoal current.id payload).legGoalVersion payload] := rfl
    rw [Leg.plansOver_of_attempts hlast, List.map_map, hstart hplan]
    rfl
  | planFailed planId number hplan reason =>
    have hlast : ({ leg with attempts := earlier ++ [current.planFailed reason] } : Leg).attempts =
        earlier ++ [current.planFailed reason] := rfl
    rw [Leg.plansOver_of_attempts hlast, hstart hplan]
    rfl
  | closed number item hfind hwaits status hstatus summary outcome =>
    have hlast : ({ leg with attempts := earlier ++ [current.updateWorkItem item.id item.key
        (·.close status summary outcome)] } : Leg).attempts =
        earlier ++ [current.updateWorkItem item.id item.key (·.close status summary outcome)] := rfl
    rw [Leg.plansOver_of_attempts hlast]
    rfl

theorem Reconciled.plansOver
    (h : Reconciled host stamp state closed leg earlier current next)
    (hattempts : leg.attempts = earlier ++ [current]) :
    Pursuit.plansOver next = (closed.map (·.plansOver)).sum + leg.plansOver := by
  have hleg := Leg.plansOver_of_attempts hattempts
  cases h with
  | retried failureReasons _ _ retry hretry hopen =>
    subst hretry
    rw [plansOver_of_legs hopen.legs, Leg.plansOver_of_attempts (leg.retried_attempts ..), hleg,
      List.map_append, List.countP_append, List.map_singleton, List.countP_singleton]
    rfl
  | failed failureReasons _ _ hend =>
    rw [plansOver_of_legs hend.legs, Leg.plansOver_of_attempts (leg.failed_attempts ..), hleg]
    rfl
  | succeeded failureReasons _ input _ hopen =>
    have hnew : (createLeg host stamp (3 * closed.length) input).plansOver = 0 := rfl
    rw [plansOver_of_legs hopen.legs, hnew, List.map_append, List.sum_append, List.map_singleton,
      List.sum_singleton, Leg.plansOver_of_attempts (leg.succeeded_attempts ..), hleg]
    rfl
  | completed failureReasons _ _ hend =>
    rw [plansOver_of_legs hend.legs, Leg.plansOver_of_attempts (leg.succeeded_attempts ..), hleg]
    rfl

/-- A call ends a plan if it applies the settlement of a planner. -/
theorem Called.plansOver {c : Call} (h : Called host state c next) :
    Pursuit.plansOver next = Pursuit.plansOver state + planSettlements c.settlement?.toList := by
  cases h with
  | settled settlement metadata _ hmetadata hopen hsettled hids hnext hon =>
    have hcount : planSettlements [settlement] = if metadata.isPlanner then 1 else 0 := by
      unfold planSettlements settlesPlan
      rw [List.countP_singleton, hmetadata, Option.any_some]
    show _ = _ + planSettlements [settlement]
    rw [plansOver_of_legs hnext.legs, plansOver_of_legs hopen.legs,
      hsettled.plansOver hopen.leg.attempts, hcount, Nat.add_assoc]
  | done => rfl
  | undecided _ _ _ hopen hadvances hnext =>
    rw [plansOver_of_legs hnext.legs, plansOver_of_legs hopen.legs, hadvances.plansOver]
    rfl
  | decided _ _ _ hopen hadvances hleg hdecided =>
    rw [hdecided.plansOver hleg.attempts, plansOver_of_legs hopen.legs, hadvances.plansOver]
    rfl

/-- The plans that are over are those that planners have settled. -/
theorem plansOver_of_run (hopen : OpenOrDone state) {cs : List Call}
    (run : Run (call host) Free state cs next) :
    Pursuit.plansOver next =
      Pursuit.plansOver state + planSettlements (cs.filterMap (·.settlement?)) := by
  induction run with
  | nil => rfl
  | snoc run _ hcall ih =>
    have hopen' := run.invariant hopen fun s c t _ h hcall => (called_of_call h hcall).openOrDone
    have hlast : ∀ c : Call, [c].filterMap (·.settlement?) = c.settlement?.toList := by
      intro c
      cases c <;> rfl
    rw [(called_of_call hopen' hcall).plansOver, ih, List.filterMap_append, hlast]
    unfold planSettlements
    rw [List.countP_append, Nat.add_assoc]

/-- Every leg has at most as many plans as attempts. -/
theorem plansOver_le {goals : List String} {maxAttempts : Nat} (h : Visits goals maxAttempts state)
    (hwell : WellFormed state) : Pursuit.plansOver state ≤ goals.length * maxAttempts := by
  have hleg : ∀ n ∈ state.ext.legs.map (·.plansOver), n ≤ maxAttempts := by
    intro n hn
    obtain ⟨leg, hleg, rfl⟩ := List.mem_map.mp hn
    have hcount : leg.plansOver ≤ leg.attempts.length := by
      unfold Leg.plansOver
      exact Nat.le_trans List.countP_le_length (Nat.le_of_eq (List.length_map _))
    exact Nat.le_trans hcount (h.maxAttempts leg hleg ▸ (hwell.legs leg hleg).bounded)
  have hsum := List.sum_le_card_nsmul _ _ hleg
  have hlength : state.ext.legs.length ≤ goals.length := by
    have := h.visited.length_le
    rwa [List.length_map] at this
  rw [List.length_map, smul_eq_mul] at hsum
  exact Nat.le_trans hsum (Nat.mul_le_mul_right _ hlength)

end Plans

/-! ## What is left to do -/

/-- What is left to do: legs, attempts of the last leg, the plan of its last attempt, and work items
that wait.  Each counts less than the one before it. -/
def remaining (state : PursuitState) : Nat ×ₗ Nat ×ₗ Nat ×ₗ Nat :=
  match state.ext.legs.getLast? with
  | none => toLex (0, toLex (0, toLex (0, 0)))
  | some leg =>
    let legs :=
      if state.isWorkflowDone then 0
      else state.ext.pursuit.legGoals.length + 1 - state.ext.legs.length
    let plans := if leg.attempts.getLast?.any (·.plan.status = .notStarted) then 1 else 0
    toLex (legs, toLex (leg.maxAttempts - leg.attempts.length, toLex (plans, leg.waiting)))

section Remaining

variable {goals : List String} {maxAttempts : Nat} {host : Host} {stamp : Stamp}
  {state next : PursuitState} {closed : List Leg} {leg leg' : Leg}
  {earlier earlier' : List Attempt} {current current' : Attempt}

theorem remaining_of_open (h : Open state closed leg earlier current) :
    remaining state = toLex (state.ext.pursuit.legGoals.length - closed.length,
      toLex (leg.maxAttempts - (earlier.length + 1),
        toLex (if current.plan.status = .notStarted then 1 else 0, leg.waiting))) := by
  have hlast : state.ext.legs.getLast? = some leg := by
    rw [h.legs, List.getLast?_append, List.getLast?_singleton, Option.some_or]
  have hattempt : leg.attempts.getLast? = some current := by
    rw [h.leg.attempts, List.getLast?_append, List.getLast?_singleton, Option.some_or]
  have hlegs : state.ext.legs.length = closed.length + 1 := by simp [h.legs]
  have hattempts : leg.attempts.length = earlier.length + 1 := by simp [h.leg.attempts]
  unfold remaining
  rw [hlast]
  simp only [h.notDone, Bool.false_eq_true, if_false, hlegs, hattempts, hattempt, Option.any_some,
    decide_eq_true_eq, Nat.add_sub_add_right]

theorem Leg.waiting_of_attempts (h : leg.attempts = earlier ++ [current]) :
    leg.waiting = (earlier.flatMap (·.workItems)).countP (·.waits) +
      current.workItems.countP (·.waits) := by
  unfold Leg.waiting Leg.workItems
  rw [h, List.flatMap_append, List.countP_append, List.flatMap_singleton]

/-- A leg that has advanced is at the same attempt, with the same plan. -/
theorem Leg.Advances.last (h : leg.Advances leg') (hleg : leg.Open earlier current)
    (hleg' : leg'.Open earlier' current') :
    earlier'.length = earlier.length ∧ current'.plan = current.plan := by
  obtain ⟨others, other, hopen, hearlier, hcurrent⟩ := hleg.advances h
  have heq := hopen.attempts.symm.trans hleg'.attempts
  obtain ⟨rfl, hlast⟩ := List.append_inj' heq rfl
  obtain rfl := (List.cons.inj hlast).1
  exact ⟨hearlier.length_eq.symm, hcurrent.plan⟩

/-- **An accepted settlement** uses up the plan of the open leg, or ends a work item of it. -/
theorem Settled.remaining_lt {settled : NodeRunStatus} {metadata : PursuitNodeMetadata}
    (h : Settled state leg earlier current settled metadata leg' earlier' current')
    (hopen : Open state closed leg earlier current) (hnext : Open next closed leg' earlier' current')
    (hon : GoesOn state next) : remaining next < remaining state := by
  have hmax := h.stays.maxAttempts
  rw [remaining_of_open hopen, remaining_of_open hnext, hon.pursuit, hmax]
  cases h with
  | planned planId number hplan hcompleted payload herror =>
    rw [List.length_map, if_pos hplan]
    exact .right _ (.right _ (.left _ _ Nat.zero_lt_one))
  | planFailed planId number hplan reason =>
    rw [if_pos hplan]
    exact .right _ (.right _ (.left _ _ Nat.zero_lt_one))
  | closed number item hfind hwaits status hstatus summary outcome =>
    refine .right _ (.right _ (.right _ ?_))
    rw [Leg.waiting_of_attempts hopen.leg.attempts, Leg.waiting_of_attempts hnext.leg.attempts]
    refine Nat.add_lt_add_left (countP_updateFirst_lt hfind hwaits ?_) _
    exact not_waits_of_ended hstatus

theorem remaining_of_done (h : state.isWorkflowDone = true)
    (hlast : state.ext.legs.getLast? = some leg) :
    ∃ rest, remaining state = toLex (0, rest) := by
  unfold remaining
  rw [hlast, h]
  exact ⟨_, rfl⟩

/-- A decided attempt uses up an attempt of the leg, a leg, or the pursuit. -/
theorem Reconciled.remaining_lt
    (h : Reconciled host stamp state closed leg' earlier' current' next)
    (hopen : Open state closed leg earlier current) (hadvances : leg.Advances leg')
    (hleg : leg'.Open earlier' current') (hvisits : Visits goals maxAttempts state) :
    remaining next < remaining state := by
  have hmax : leg'.maxAttempts = leg.maxAttempts := by rw [hadvances.eq]
  have hearlier := (hadvances.last hopen.leg hleg).1
  -- the open leg is one of the legs that there are goals for
  have hlegs : closed.length + 1 ≤ state.ext.pursuit.legGoals.length := by
    have := hvisits.visited.length_le
    rwa [hopen.legs, List.length_map, List.length_append, ← hvisits.legGoals] at this
  have hends : ∀ {status legs}, EndsAs state next status (closed ++ [legs]) →
      remaining next < remaining state := by
    intro status last hend
    obtain ⟨rest, hrest⟩ := remaining_of_done hend.done (List.getLast?_eq_some_iff.mpr ⟨_, hend.legs⟩)
    rw [remaining_of_open hopen, hrest]
    exact .left _ _ (by omega)
  cases h with
  | retried failureReasons _ hmore retry hretry hnext hon =>
    rw [remaining_of_open hopen, remaining_of_open hnext, hon.pursuit]
    refine .right _ (.left _ _ ?_)
    show leg'.maxAttempts - _ < _
    rw [List.length_append, List.length_singleton, hmax, hearlier]
    rw [hmax, hearlier] at hmore
    omega
  | failed _ _ _ hend => exact hends hend
  | succeeded _ _ input _ hnext hon =>
    rw [remaining_of_open hopen, remaining_of_open hnext, hon.pursuit, List.length_append,
      List.length_singleton]
    exact .left _ _ (by omega)
  | completed _ _ _ hend => exact hends hend

/-- **A call never adds to what is left to do**, and a settlement takes something away. -/
theorem Called.remaining_le {c : Call} (h : Called host state c next)
    (hvisits : Visits goals maxAttempts state) :
    remaining next ≤ remaining state ∧
      (c.settlement?.isSome = true → remaining next < remaining state) := by
  cases h with
  | settled settlement metadata _ _ hopen hsettled _ hnext hon =>
    have hlt := hsettled.remaining_lt hopen hnext hon
    exact ⟨le_of_lt hlt, fun _ => hlt⟩
  | done => exact ⟨le_refl _, fun h => (by cases h)⟩
  | @undecided _ leg leg' _ _ _ _ _ _ _ hopen hadvances hnext hon =>
    refine ⟨?_, fun h => (by cases h)⟩
    obtain ⟨hearlier, hplan⟩ := hadvances.last hopen.leg hnext.leg
    have hmax : leg'.maxAttempts = leg.maxAttempts := by rw [hadvances.eq]
    rw [remaining_of_open hopen, remaining_of_open hnext, hon.pursuit, hearlier, hplan, hmax]
    -- items may have ended, and nothing else has changed
    rcases Nat.lt_or_eq_of_le hadvances.waiting_le with hlt | heq
    · exact le_of_lt (.right _ (.right _ (.right _ hlt)))
    · rw [heq]
  | decided _ _ _ hopen hadvances hleg hdecided =>
    exact ⟨le_of_lt (hdecided.remaining_lt hopen hadvances hleg hvisits), fun h => (by cases h)⟩

/-- Calls never add to what is left to do, and with a settlement they take something away. -/
theorem remaining_of_run {cs : List Call} (hvisits : Visits goals maxAttempts state)
    (hsound : Sound state) (run : Run (call host) Free state cs next) :
    remaining next ≤ remaining state ∧
      (cs.filterMap (·.settlement?) ≠ [] → remaining next < remaining state) := by
  induction run with
  | nil => exact ⟨le_refl _, fun h => absurd rfl h⟩
  | @snoc t u cs c run _ hcall ih =>
    obtain ⟨hle, hlt⟩ := ih
    have hsound' := (hsound.run run).1
    obtain ⟨hle', hlt'⟩ :=
      (called_of_call hsound'.openOrDone hcall).remaining_le (hvisits.run hsound run)
    refine ⟨le_trans hle' hle, fun hne => ?_⟩
    by_cases hsettles : c.settlement?.isSome = true
    · exact lt_of_lt_of_le (hlt' hsettles) hle
    · refine lt_of_le_of_lt hle' (hlt fun hnil => hne ?_)
      rw [List.filterMap_append, hnil, List.nil_append, List.filterMap_cons_none, List.filterMap_nil]
      exact Option.not_isSome_iff_eq_none.mp hsettles

end Remaining

/-! ## Pursuits end -/

section Ends

variable {host : Host} {object : JsonObject} {args : PursuitArgs} {goals : List String}
  {first pursuit : PursuitState} {cs : List Call} {s : WorkflowRunInstance PursuitFields}

theorem planSettlements_le {stamp : Stamp} (hargs : PursuitArgs.parse object = some args)
    (hgoals : args.legGoals = some goals)
    (run : Run (call host) Free (createInitialState host stamp args) cs pursuit) :
    planSettlements (cs.filterMap (·.settlement?)) ≤ goals.length * args.maxAttempts := by
  obtain ⟨hvisits, hsound⟩ := Visits.created hargs hgoals run
  have hle := plansOver_le hvisits hsound.wellFormed
  have hfirst := sound_createInitialState host stamp (PursuitArgs.parse_spec hargs).1
  rw [plansOver_of_run hfirst.openOrDone run] at hle
  exact Nat.le_trans (Nat.le_add_left _ _) hle

/-- A pursuit is behind the run, and so much is left to do in it. -/
def LeftToDo (host : Host) (object : JsonObject) (s : WorkflowRunInstance PursuitFields)
    (left : Nat ×ₗ Nat ×ₗ Nat ×ₗ Nat) : Prop :=
  ∃ first cs pursuit, Follows host object first cs pursuit s ∧ remaining pursuit = left

/-- A run that goes on applies no further settlement, or less is left to do. -/
theorem leftToDo_of_run {definition : WorkflowDefinition}
    {toJsonObject : PursuitState → Except String Json} {ls ms : List Label}
    {t : WorkflowRunInstance PursuitFields} {left : Nat ×ₗ Nat ×ₗ Nat ×ₗ Nat}
    (hargs : PursuitArgs.parse object = some args) (hgoals : args.legGoals = some goals)
    (before : Run (step (pursuitRequest host definition object toJsonObject)) Free initial ls s)
    (run : Run (step (pursuitRequest host definition object toJsonObject)) Free s ms t)
    (h : LeftToDo host object s left) :
    ∃ less, LeftToDo host object t less ∧
      (t.history.filterMap appliedIn = s.history.filterMap appliedIn ∨ less < left) := by
  obtain ⟨first, cs, pursuit, hs, rfl⟩ := h
  obtain ⟨more, after, hmore, ht⟩ := follows_run before hs run
  refine ⟨_, ⟨_, _, _, ht, rfl⟩, ?_⟩
  rw [hs.settlements, ht.settlements, List.filterMap_append]
  by_cases hnil : more.filterMap (·.settlement?) = []
  · left
    rw [hnil, List.append_nil]
  · right
    exact (remaining_of_run (hs.visits hargs hgoals) hs.sound hmore).2 hnil

/-- A pursuit that validates a settlement is the one behind the run. -/
theorem Follows.eq_of_valid {state : PursuitState} {settlement : WorkflowNodeSettlement}
    (h : Follows host object first cs pursuit s) (hstate : s.state = some state)
    (hvalid : validateNodeSettlement host state settlement = .ok .ok) :
    state = pursuit ∧ state.isWorkflowDone = false := by
  have hdone : state.isWorkflowDone = false := by
    by_contra hdone
    unfold validateNodeSettlement at hvalid
    rw [if_pos (by simpa using hdone)] at hvalid
    cases hvalid
  rcases (h.ext hstate).2 with heq | hended
  · exact ⟨heq, hdone⟩
  · rw [hended.done] at hdone
    cases hdone

/-- A settlement that a run shows to its pursuit and that is valid leaves less to do. -/
theorem applied_remaining_lt {definition : WorkflowDefinition}
    {toJsonObject : PursuitState → Except String Json} {ls : List Label} {l : Label}
    {sh : Shown PursuitFields} {state : PursuitState}
    (hargs : PursuitArgs.parse object = some args) (hgoals : args.legGoals = some goals)
    (run : Run (step (pursuitRequest host definition object toJsonObject)) Free initial ls s)
    (hshown : shown s l = some sh) (hstate : s.state = some state)
    (hvalid : validateNodeSettlement host state sh.settlement = .ok .ok) :
    ∃ applied, applyNodeSettlement host state sh.settlement = .ok applied ∧
      remaining applied.state < remaining state := by
  rcases followed_of_run run with hnone | ⟨first, cs, pursuit, h⟩
  · rw [hnone.state] at hstate
    cases hstate
  · obtain ⟨rfl, hdone⟩ := h.eq_of_valid hstate hvalid
    obtain ⟨_, _, _, _, hopen⟩ := (openOrDone_of_follows h).resolve_left (by simp [hdone])
    obtain ⟨applied, happly⟩ := applies_of_shown (served_of_run run) hshown hopen hvalid
    have hcall : call host state (.apply sh.settlement) = some applied.state := by
      simp only [call, hvalid, happly]
      rfl
    have hcalled := called_of_call h.sound.openOrDone hcall
    exact ⟨applied, happly, (hcalled.remaining_le (h.visits hargs hgoals)).2 rfl⟩

end Ends

/-- **A pursuit with predefined goals ends.**  Every settlement that is applied leaves less to do,
in a well-founded order, so no sequence of calls and no run applies settlements for ever; and there
are at most as many settlements of planners as attempts at goals.  Within a run every settlement
that is valid is applied. -/
theorem predefined_terminates (host : Host) {object : JsonObject} {args : PursuitArgs}
    {goals : List String} (hargs : PursuitArgs.parse object = some args)
    (hgoals : args.legGoals = some goals) :
    (∀ stamp cs state, Run (call host) Free (createInitialState host stamp args) cs state →
      planSettlements (cs.filterMap (·.settlement?)) ≤ goals.length * args.maxAttempts ∧
        ∀ c next, call host state c = some next → remaining next ≤ remaining state ∧
          (c.settlement?.isSome = true → remaining next < remaining state)) ∧
    (∀ stamp (f : Nat → PursuitState) (c : Nat → Call),
      f 0 = createInitialState host stamp args →
      (∀ n, call host (f n) (c n) = some (f (n + 1))) →
        ∃ bound, ∀ n, bound ≤ n → (c n).settlement? = none) ∧
    ∀ definition toJsonObject,
      (∀ ls s, Run (step (pursuitRequest host definition object toJsonObject)) Free initial ls s →
        planSettlements (s.history.filterMap appliedIn) ≤ goals.length * args.maxAttempts ∧
          ∀ l sh state, shown s l = some sh → s.state = some state →
            validateNodeSettlement host state sh.settlement = .ok .ok →
              ∃ applied, applyNodeSettlement host state sh.settlement = .ok applied ∧
                remaining applied.state < remaining state) ∧
      ∀ (f : Nat → WorkflowRunInstance PursuitFields) (l : Nat → Label), f 0 = initial →
        (∀ n, step (pursuitRequest host definition object toJsonObject) (f n) (l n) =
          some (f (n + 1))) →
          ∃ bound, ∀ n, bound ≤ n →
            (f n).history.filterMap appliedIn = (f bound).history.filterMap appliedIn := by
  refine ⟨?_, ?_, fun definition toJsonObject => ⟨?_, ?_⟩⟩
  · intro stamp cs state run
    refine ⟨planSettlements_le hargs hgoals run, fun c next hcall => ?_⟩
    obtain ⟨hvisits, hsound⟩ := Visits.created hargs hgoals run
    exact (called_of_call hsound.openOrDone hcall).remaining_le hvisits
  · intro stamp f c hfirst hcalls
    have hcalled : ∀ n, Visits goals args.maxAttempts (f n) ∧ Called host (f n) (c n) (f (n + 1)) := by
      intro n
      obtain ⟨cs, run⟩ := run_between hcalls (Nat.zero_le n)
      rw [hfirst] at run
      obtain ⟨hvisits, hsound⟩ := Visits.created hargs hgoals run
      exact ⟨hvisits, called_of_call hsound.openOrDone (hcalls n)⟩
    -- the rank never grows, and drops with each plan that is settled
    have hrank := fun n => (hcalled n).2.remaining_le (hcalled n).1
    obtain ⟨bound, hbound⟩ := eventually_not_of_rank (fun n => remaining (f n))
      (fun n => (c n).settlement?.isSome = true) (fun n => (hrank n).1) fun n => (hrank n).2
    exact ⟨bound, fun n hn => Option.not_isSome_iff_eq_none.mp (hbound n hn)⟩
  · intro ls s run
    refine ⟨?_, fun l sh state hshown hstate hvalid => ?_⟩
    · rcases followed_of_run run with hnone | ⟨first, cs, pursuit, h⟩
      · rw [hnone.settlements]
        exact Nat.zero_le _
      · obtain ⟨stamp, parsed, hparsed, rfl⟩ := h.created
        obtain rfl : args = parsed := Option.some.inj (hargs.symm.trans hparsed)
        rw [h.settlements]
        exact planSettlements_le hargs hgoals h.run
    · exact applied_remaining_lt hargs hgoals run hshown hstate hvalid
  · intro f l hfirst hsteps
    have hfrom : ∀ n, ∃ ls,
        Run (step (pursuitRequest host definition object toJsonObject)) Free initial ls (f n) := by
      intro n
      rw [← hfirst]
      exact run_between hsteps (Nat.zero_le n)
    -- either the run never gets a pursuit, or it follows one from some point on
    by_cases hnone : ∀ n, NoPursuit (f n)
    · exact ⟨0, fun n _ => by rw [(hnone n).settlements, (hnone 0).settlements]⟩
    · obtain ⟨n, hn⟩ := not_forall.mp hnone
      obtain ⟨ls, run⟩ := hfrom n
      obtain ⟨first, cs, pursuit, h⟩ := (followed_of_run run).resolve_left hn
      refine eventually_same_of_rank (fun n => (f n).history.filterMap appliedIn)
        (fun n => LeftToDo host object (f n)) (fun {n left} m hnm hleft => ?_) (remaining pursuit) n
        ⟨first, cs, pursuit, h, rfl⟩
      obtain ⟨before, hbefore⟩ := hfrom n
      obtain ⟨between, hbetween⟩ := run_between hsteps hnm
      exact leftToDo_of_run hargs hgoals hbefore hbetween hleft

/-- Two goals with one attempt each take two planners. -/
theorem predefined_terminates_two :
    ∃ s, Run (step twoGoals) Free initial bothLegs s ∧
      planSettlements (s.history.filterMap appliedIn) = 2 ∧
      planSettlements (s.history.filterMap appliedIn) ≤ ["build", "test"].length * 1 := by
  obtain ⟨s, hs, hp⟩ := exists_run (step twoGoals) Free initial bothLegs
    (fun s => planSettlements (s.history.filterMap appliedIn) = 2) (by decide +kernel)
  have h := ((predefined_terminates spellingHost rfl rfl).2.2 _ _).1 _ s hs
  exact ⟨s, hs, of_decide_eq_true hp, h.1⟩

end EphemeralAgent.Pursuit
