import EphemeralAgent.Pursuit.Evaluate
import EphemeralAgent.Workflow.Turns

/-!
# A pursuit never deadlocks

An evaluation that leaves the current attempt undecided leaves something to do: a plan to make, a
node that runs, or an item whose dependencies have succeeded.

* `Reachable` — the states that settlements of dispatched nodes lead to
* `Progressing` — what every evaluation leaves
* `Progressing.dispatch_ne_nil` — without a running node `dispatch` returns a node
-/

namespace EphemeralAgent.Pursuit

open EphemeralAgent.Lib EphemeralAgent.Workflow

/-! ## Reachable states -/

/-- The snapshot shows the nodes of these dispatches running. -/
def Shows (runtime : RuntimeSnapshot) (running : List WorkflowNodeDispatch) : Prop :=
  runtime.runningNodes.map (·.metadata) = running.map (·.metadata)

/-- The states of a pursuit, with the dispatches it has returned and the nodes that run. -/
inductive Reachable (host : Host) (definition : WorkflowDefinition) :
    PursuitState → List WorkflowNodeDispatch → List WorkflowNodeDispatch → Prop
  | created (stamp : Stamp) (object : JsonObject) (args : PursuitArgs)
      (hargs : PursuitArgs.parse object = some args) :
      Reachable host definition (createInitialState host stamp args) [] []
  | dispatched {state : PursuitState} {offered running : List WorkflowNodeDispatch}
      (h : Reachable host definition state offered running) (runtime : RuntimeSnapshot)
      (hruntime : Shows runtime running) :
      Reachable host definition state (offered ++ dispatch host definition state runtime) running
  | launched {state : PursuitState} {offered running : List WorkflowNodeDispatch}
      (h : Reachable host definition state offered running) (next : WorkflowNodeDispatch)
      (hnext : next ∈ offered) : Reachable host definition state offered (running ++ [next])
  | settled {state : PursuitState} {offered before after : List WorkflowNodeDispatch}
      {node : WorkflowNodeDispatch}
      (h : Reachable host definition state offered (before ++ node :: after))
      (settlement : WorkflowNodeSettlement) (hmetadata : settlement.metadata = node.metadata)
      (hvalid : validateNodeSettlement host state settlement = .ok .ok)
      (applied : StateTransitionResult PursuitFields)
      (happly : applyNodeSettlement host state settlement = .ok applied)
      (stamp : Stamp) (runtime : RuntimeSnapshot) (hruntime : Shows runtime (before ++ after)) :
      Reachable host definition
        (evaluateWorkflowProgress host stamp applied.state runtime).state offered (before ++ after)

/-! ## What every evaluation leaves -/

/-- The key of the work item that a node is for. -/
def workItemKeyOf (metadata : Option JsonObject) : Option String := do
  let metadata ← metadata
  if Json.stringField metadata "role" = some "worker" then
    Json.stringField metadata "work_item_key"
  else none

theorem runningMetadata_workItems (runtime : RuntimeSnapshot) :
    (runningMetadata runtime).workItems =
      (runtime.runningNodes.map (·.metadata)).filterMap workItemKeyOf := by
  rw [List.filterMap_map]
  rfl

/-- The pursuit is open and its current attempt undecided, while nodes run for these items. -/
def Progressing (state : PursuitState) (keys : List String) : Prop :=
  ∃ closed leg earlier current running, Open state closed leg earlier current ∧
    leg.Unblocked running ∧ nextAttemptStatus leg current running = none ∧
    running.workItems ⊆ keys

theorem Progressing.mono {state : PursuitState} {keys keys' : List String}
    (h : Progressing state keys) (hkeys : keys ⊆ keys') : Progressing state keys' := by
  obtain ⟨closed, leg, earlier, current, running, hopen, hunblocked, hnext, hrunning⟩ := h
  exact ⟨closed, leg, earlier, current, running, hopen, hunblocked, hnext,
    List.Subset.trans hrunning hkeys⟩

/-- A new attempt is undecided, and there is nothing to block beside it. -/
theorem progressing_of_createAttempt {host : Host} {state : PursuitState} {closed : List Leg}
    {leg : Leg} {earlier : List Attempt} {stamp : Stamp} {index sequence version : Nat}
    (h : Open state closed leg earlier (createAttempt host stamp index sequence version))
    (keys : List String) : Progressing state keys := by
  refine ⟨closed, leg, earlier, _, ⟨[], []⟩, h, fun item hitem => ?_, ?_, List.nil_subset _⟩
  · have hwaits : item.waits = false := by
      rcases h.leg.item_cases hitem with hended | hnew
      · exact not_waits_of_ended hended
      · cases hnew
    unfold WorkItem.waits at hwaits
    simp [blockable, hwaits]
  · simp [nextAttemptStatus, createAttempt]

theorem progressing_created (host : Host) (stamp : Stamp) (args : PursuitArgs)
    (keys : List String) : Progressing (createInitialState host stamp args) keys := by
  have hopen : Open (createInitialState host stamp args) []
      ((createInitialState host stamp args).ext.legs.head (by simp [createInitialState])) []
      (createAttempt host stamp 2 1 1) :=
    ⟨rfl, by simp, createLeg_open .., rfl⟩
  exact progressing_of_createAttempt hopen keys

/-- **An evaluation ends the pursuit or leaves it progressing.** -/
theorem Progressing.settle {host : Host} {state : PursuitState} {keys : List String}
    {settlement : WorkflowNodeSettlement} {applied : StateTransitionResult PursuitFields}
    (h : Progressing state keys)
    (hvalid : validateNodeSettlement host state settlement = .ok .ok)
    (happly : applyNodeSettlement host state settlement = .ok applied) (stamp : Stamp)
    (runtime : RuntimeSnapshot) :
    (evaluateWorkflowProgress host stamp applied.state runtime).state.isWorkflowDone = true ∨
      Progressing (evaluateWorkflowProgress host stamp applied.state runtime).state
        (runningMetadata runtime).workItems := by
  obtain ⟨closed, leg, earlier, current, running, hopen, -, -, -⟩ := h
  obtain ⟨metadata, leg', earlier', current', -, hsettled, hlegs, hdone⟩ :=
    settled_of_apply hopen hvalid happly
  have hopen' : Open applied.state closed leg' earlier' current' :=
    ⟨hlegs, hopen.closed, hsettled.open hopen.leg, hdone⟩
  cases evaluated_of_evaluate host stamp hopen' runtime with
  | undecided leg' earlier' current' _ _ _ hopen hunblocked hnext =>
    exact .inr ⟨closed, leg', earlier', current', _, hopen, hunblocked, hnext, fun _ h => h⟩
  | decided leg' earlier' current' _ _ _ _ hdecided =>
    cases hdecided with
    | retried _ _ _ hopen => exact .inr (progressing_of_createAttempt hopen _)
    | succeeded _ _ _ hopen => exact .inr (progressing_of_createAttempt hopen _)
    | done hdone => exact .inl hdone

/-! ## Something to dispatch -/

section Dispatch

variable {host : Host} {state : PursuitState} {closed : List Leg} {leg : Leg}
  {earlier : List Attempt} {current : Attempt} {running : RunningMetadata}

theorem effectiveWorkItemStatus_of_nil (h : running.workItems = []) (item : WorkItem) :
    effectiveWorkItemStatus item running = item.status := by
  unfold effectiveWorkItemStatus
  rw [if_neg (by simp [h])]

/-- An attempt with a plan that is undecided has an item that waits, if no node runs for it. -/
theorem exists_waits (hcurrent : current.Current) (hplan : current.plan.status = .success)
    (hnext : nextAttemptStatus leg current running = none) (hnone : running.workItems = []) :
    ∃ item ∈ current.workItems, item.waits = true := by
  by_contra hall
  have hended : ∀ item ∈ current.workItems, ended item.status = true := by
    intro item hitem
    rcases hcurrent.items item hitem with hwaits | hended
    · exact absurd ⟨item, hitem, hwaits⟩ hall
    · exact hended
  have hitems : current.workItems ≠ [] := by
    rcases hcurrent.plan with ⟨h, _⟩ | ⟨h, _⟩ | ⟨_, h⟩
    · rw [hplan] at h
      cases h
    · rw [hplan] at h
      cases h
    · exact h
  unfold nextAttemptStatus at hnext
  simp only [hplan, effectiveWorkItemStatus_of_nil hnone] at hnext
  rw [if_neg (by simp)] at hnext
  by_cases hsuccess : (current.workItems.all fun item => item.status == .success) = true
  · rw [if_pos ⟨trivial, List.length_pos_iff.mpr hitems, hsuccess⟩] at hnext
    cases hnext
  · rw [if_neg (by simp [hsuccess])] at hnext
    rw [List.all_eq_true] at hsuccess
    have hfailed : (current.workItems.any fun item =>
        item.status == .failed || item.status == .blocked) = true := by
      rw [List.any_eq_true]
      by_contra hno
      refine hsuccess fun item hitem => ?_
      have hitem' := hended item hitem
      by_contra hne
      refine hno ⟨item, hitem, ?_⟩
      cases hs : item.status <;> simp_all [ended]
    have hterminal : (current.workItems.all fun item => isWorkItemTerminal item.status) = true :=
      List.all_eq_true.mpr fun item hitem => terminal_of_ended (hended item hitem)
    rw [if_pos ⟨trivial, hfailed, hterminal⟩] at hnext
    cases hnext

/-- Below every item that waits there is one whose dependencies have succeeded. -/
theorem exists_dispatchable (hleg : leg.Open earlier current) (hunblocked : leg.Unblocked running)
    (hnone : running.workItems = []) {now : RunningMetadata} (hnow : now.workItems = [])
    (rank : String → Nat)
    (hrank : ∀ item ∈ current.workItems, ∀ dependency ∈ item.dependsOn, ∃ target,
      (leg.workItems.find? fun other =>
        other.id = dependency ∧ other.legGoalVersion = item.legGoalVersion) = some target ∧
      (ended target.status = true ∨ rank dependency < rank item.id)) :
    ∀ (bound : Nat) (item : WorkItem), item ∈ current.workItems → item.waits = true →
      rank item.id = bound → ∃ next ∈ current.workItems, dispatchable now leg next = true := by
  intro bound
  induction bound using Nat.strongRecOn with
  | ind bound ih =>
    intro item hitem hwaits hbound
    have hmem : item ∈ leg.workItems :=
      Leg.mem_workItems.mpr ⟨current, by simp [hleg.attempts], hitem⟩
    by_cases hready : dependenciesSucceeded leg item = true
    · refine ⟨item, hitem, ?_⟩
      unfold WorkItem.waits at hwaits
      simp [dispatchable, hwaits, hnow, hready]
    · -- some dependency has not succeeded: it waits below the item, or it would block the item
      obtain ⟨dependency, hdependency, hnot⟩ : ∃ dependency ∈ item.dependsOn,
          (dependencyStatus leg item.legGoalVersion dependency == some .success) = false := by
        by_contra hall
        refine hready (List.all_eq_true.mpr fun dependency hdependency => ?_)
        by_contra hno
        exact hall ⟨dependency, hdependency, by simpa using hno⟩
      obtain ⟨target, htarget, hlow⟩ := hrank item hitem dependency hdependency
      have hstatus : dependencyStatus leg item.legGoalVersion dependency = some target.status := by
        unfold dependencyStatus
        rw [htarget]
        rfl
      have htargetMem : target ∈ leg.workItems := List.mem_of_find?_eq_some htarget
      by_cases hended : ended target.status = true
      · exfalso
        -- an end that is no success would block the item
        have hblocks : dependencyBlocks (some target.status) = true := by
          rw [hstatus] at hnot
          cases hs : target.status <;> simp_all [ended, dependencyBlocks]
        have hin : dependency ∈ blockedBy leg item :=
          List.mem_filter.mpr ⟨hdependency, by rw [hstatus]; exact hblocks⟩
        have hfalse := hunblocked item hmem
        unfold WorkItem.waits at hwaits
        simp only [blockable, hwaits, hnone, Bool.true_and] at hfalse
        have hnil : blockedBy leg item = [] := by simpa using hfalse
        rw [hnil] at hin
        cases hin
      · have hlt := hlow.resolve_left hended
        have hid : target.id = dependency := by
          have := List.find?_some htarget
          simp only [decide_eq_true_eq] at this
          exact this.1
        have hcurrent : target ∈ current.workItems :=
          (hleg.item_cases htargetMem).resolve_left hended
        have htargetWaits := (hleg.current.items target hcurrent).resolve_right hended
        -- the dependency waits with a lower rank
        exact ih (rank target.id) (by rw [hid]; omega) target hcurrent htargetWaits rfl

/-- **A progressing pursuit without running nodes has something to dispatch.** -/
theorem Progressing.dispatch_ne_nil {definition : WorkflowDefinition} {bindings : NodeBindings}
    (h : Progressing state []) (hbindings : nodeBindings definition = some bindings)
    {runtime : RuntimeSnapshot} (hruntime : runtime.runningNodes = []) :
    dispatch host definition state runtime ≠ [] := by
  obtain ⟨closed, leg, earlier, current, running, hopen, hunblocked, hnext, hkeys⟩ := h
  have hnone : running.workItems = [] := List.subset_nil.mp hkeys
  have hplans : (runningMetadata runtime).plans = [] := by simp [runningMetadata, hruntime]
  have hitems : (runningMetadata runtime).workItems = [] := by simp [runningMetadata, hruntime]
  have hlast : leg.attempts.getLast? = some current := by
    rw [hopen.leg.attempts, List.getLast?_append, List.getLast?_singleton, Option.some_or]
  suffices hleg : dispatchLeg host (nodeBindings definition) (runningMetadata runtime) state leg ≠ []
      by
    unfold dispatch
    rw [if_neg (by simp [hopen.notDone])]
    intro hnil
    rw [List.flatMap_eq_nil_iff] at hnil
    exact hleg (hnil leg (by simp [hopen.legs]))
  unfold dispatchLeg
  rw [if_neg (by simp [hopen.leg.running]), hlast]
  simp only
  rw [if_neg (by simp [hopen.leg.current.running]), hbindings, hplans]
  rcases hopen.leg.current.plan with ⟨hplan, _⟩ | ⟨hplan, _⟩ | ⟨hplan, _⟩
  · simp [hplan]
  · exfalso
    unfold nextAttemptStatus at hnext
    rw [if_pos hplan] at hnext
    cases hnext
  · obtain ⟨item, hitem, hwaits⟩ := exists_waits hopen.leg.current hplan hnext hnone
    obtain ⟨rank, hrank⟩ := hopen.leg.resolved
    obtain ⟨next, hmem, hready⟩ :=
      exists_dispatchable hopen.leg hunblocked hnone hitems rank hrank _ item hitem hwaits rfl
    rw [if_neg (by simp [hplan]), if_neg (by simp [hplan])]
    simp only [ne_eq, List.map_eq_nil_iff]
    intro hnil
    have hin := List.mem_filter.mpr ⟨hmem, hready⟩
    rw [hnil] at hin
    cases hin

end Dispatch

/-- What every reachable state satisfies. -/
theorem progressing_of_reachable {host : Host} {definition : WorkflowDefinition}
    {state : PursuitState} {offered running : List WorkflowNodeDispatch}
    (h : Reachable host definition state offered running) :
    state.isWorkflowDone = true ∨
      Progressing state ((running.map (·.metadata)).filterMap workItemKeyOf) := by
  induction h with
  | created stamp object args hargs => exact .inr (progressing_created host stamp args _)
  | dispatched _ runtime hruntime ih => exact ih
  | launched _ next hnext ih =>
    refine ih.imp id fun hprogressing => hprogressing.mono ?_
    rw [List.map_append, List.filterMap_append]
    exact List.subset_append_left _ _
  | settled _ settlement hmetadata hvalid applied happly stamp runtime hruntime ih =>
    rcases ih with hdone | hprogressing
    · -- a state that is done refuses every settlement
      unfold validateNodeSettlement at hvalid
      rw [if_pos hdone] at hvalid
      cases hvalid
    · have hsettle := hprogressing.settle hvalid happly stamp runtime
      rw [runningMetadata_workItems, hruntime] at hsettle
      exact hsettle

end EphemeralAgent.Pursuit
