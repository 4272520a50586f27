import EphemeralAgent.Pursuit.Deadlock
import EphemeralAgent.Workflow.Labelled
import EphemeralAgent.Workflow.Serial

/-!
# Pursuits under the workflow runtime

Every node that a run of the pursuit module launches is for a plan or for a work item, and every
settlement that the module is shown carries the metadata of its node.  So the runtime takes the
pursuit through reachable states only.

* `Served` — what the entries, the suspended calls and the queue of a run carry
* `settlement_of_shown` — the settlement that the module is shown is for the target of its node
* `pursuit_never_deadlocks` — no pursuit deadlocks, under any schedule of the runtime
-/

namespace EphemeralAgent.Pursuit

open EphemeralAgent.Lib EphemeralAgent.Workflow

/-- A run of the pursuit module. -/
def pursuitRequest (host : Host) (definition : WorkflowDefinition) (args : JsonObject)
    (toJsonObject : PursuitState → Except String Json) : WorkflowStartRequest PursuitFields where
  definition := definition
  implementation := pursuitImplementation host
  args := args
  toJsonObject := toJsonObject

/-! ## Targets -/

def contractFor (host : Host) : PursuitNodeMetadata → NodeOutcomeContract
  | .planner .. => plannerContract host
  | .worker .. => workerContract host

/-- A node is started for this target. -/
structure For (host : Host) (target : PursuitNodeMetadata)
    (label : NodeStartSpec × Option JsonObject) : Prop where
  metadata : label.2 = some target.toJson
  outcome : label.1.outcome = contractFor host target

/-- What `dispatch` asks for: the plan or the items of the current attempt of a running leg. -/
inductive Asks (host : Host) (state : PursuitState) (running : RunningMetadata)
    (next : WorkflowNodeDispatch) : Prop
  | planner (leg : Leg) (current : Attempt) (hleg : leg ∈ state.ext.legs)
      (hrunning : leg.status = .running) (hlast : leg.attempts.getLast? = some current)
      (hplan : current.plan.status = .notStarted) (hnew : current.plan.id ∉ running.plans)
      (hfor : For host (plannerMetadata leg current) (labelOf next))
  | worker (leg : Leg) (current : Attempt) (item : WorkItem) (hleg : leg ∈ state.ext.legs)
      (hrunning : leg.status = .running) (hlast : leg.attempts.getLast? = some current)
      (hplan : current.plan.status = .success) (hitem : item ∈ current.workItems)
      (hready : dispatchable running leg item = true)
      (hfor : For host (workerMetadata leg current item) (labelOf next))

/-- **A dispatch is for the plan or for an item of the current attempt of a running leg.** -/
theorem mem_dispatch_cases {host : Host} {definition : WorkflowDefinition} {state : PursuitState}
    {runtime : RuntimeSnapshot} {next : WorkflowNodeDispatch}
    (h : next ∈ dispatch host definition state runtime) :
    ∃ leg ∈ state.ext.legs, ∃ current, leg.status = .running ∧
      leg.attempts.getLast? = some current ∧
      ((∃ node, current.plan.status = .notStarted ∧
          current.plan.id ∉ (runningMetadata runtime).plans ∧
          next = plannerDispatch host state leg current node) ∨
        ∃ node, ∃ item ∈ current.workItems, current.plan.status = .success ∧
          dispatchable (runningMetadata runtime) leg item = true ∧
          next = workerDispatch host state leg current item node) := by
  unfold dispatch at h
  split at h
  · cases h
  · obtain ⟨leg, hleg, hnext⟩ := List.mem_flatMap.mp h
    unfold dispatchLeg at hnext
    split at hnext
    · cases hnext
    · next hrunning =>
      split at hnext
      · cases hnext
      · next current hlast =>
        refine ⟨leg, hleg, current, not_not.mp hrunning, hlast, ?_⟩
        split at hnext
        · cases hnext
        · split at hnext
          · next hplan =>
            split at hnext
            · cases hnext
            · next hnew =>
              split at hnext
              · next bindings _ =>
                exact .inl ⟨bindings.planner, hplan, by simpa using hnew,
                  List.mem_singleton.mp hnext⟩
              · cases hnext
          · split at hnext
            · cases hnext
            · next hplan =>
              split at hnext
              · next bindings _ =>
                obtain ⟨item, hitem, rfl⟩ := List.mem_map.mp hnext
                obtain ⟨hitem, hready⟩ := List.mem_filter.mp hitem
                exact .inr ⟨bindings.worker, item, hitem, not_not.mp hplan, hready, rfl⟩
              · cases hnext

theorem asks_of_mem_dispatch {host : Host} {definition : WorkflowDefinition} {state : PursuitState}
    {runtime : RuntimeSnapshot} {next : WorkflowNodeDispatch}
    (h : next ∈ dispatch host definition state runtime) :
    Asks host state (runningMetadata runtime) next := by
  obtain ⟨leg, hleg, current, hrunning, hlast, hcases⟩ := mem_dispatch_cases h
  rcases hcases with ⟨node, hplan, hnew, rfl⟩ | ⟨node, item, hitem, hplan, hready, rfl⟩
  · exact .planner leg current hleg hrunning hlast hplan hnew ⟨rfl, rfl⟩
  · exact .worker leg current item hleg hrunning hlast hplan hitem hready ⟨rfl, rfl⟩

theorem Asks.target {host : Host} {state : PursuitState} {running : RunningMetadata}
    {next : WorkflowNodeDispatch} (h : Asks host state running next) :
    ∃ target, For host target (labelOf next) := by
  cases h with
  | planner _ _ _ _ _ _ _ hfor => exact ⟨_, hfor⟩
  | worker _ _ _ _ _ _ _ _ _ hfor => exact ⟨_, hfor⟩

/-! ## What a run carries -/

/-- Every node is for a target, and so is every dispatch that is still to be launched; settlements
in the queue carry the metadata of their node. -/
structure Served (host : Host) (s : WorkflowRunInstance PursuitFields) : Prop where
  nodes : ∀ label ∈ s.labels, ∃ target, For host target label
  frames : ∀ flow, ∀ frame ∈ s.frames flow, ∀ next ∈ frame.remaining, ∃ target,
    For host target (labelOf next)
  queue : ∀ index settlement, .settle index settlement ∈ s.queue →
    s.labels[index]?.map (·.2) = some settlement.metadata

theorem served_iff {host : Host} {s : WorkflowRunInstance PursuitFields} :
    Served host s ↔ Labelled (fun label => ∃ target, For host target label) s :=
  ⟨fun h => ⟨h.nodes, h.frames, h.queue⟩, fun h => ⟨h.nodes, h.frames, h.queue⟩⟩

theorem served_initial (host : Host) : Served host initial :=
  served_iff.mpr (labelled_initial _)

section Served

variable {host : Host} {definition : WorkflowDefinition} {args : JsonObject}
  {toJsonObject : PursuitState → Except String Json} {s t u : WorkflowRunInstance PursuitFields}

theorem created_of_ok {stamp : Stamp} {state : PursuitState}
    (h : (pursuitImplementation host).createInitialState stamp definition args = .ok state) :
    ∃ parsed, PursuitArgs.parse args = some parsed ∧
      state = createInitialState host stamp parsed := by
  unfold pursuitImplementation at h
  simp only at h
  cases hargs : PursuitArgs.parse args with
  | none =>
    rw [hargs] at h
    cases h
  | some parsed =>
    rw [hargs] at h
    exact ⟨parsed, rfl, (Except.ok.inj h).symm⟩

/-- A pursuit dispatches for its targets only. -/
theorem pursuit_dispatches :
    Dispatches (pursuitRequest host definition args toJsonObject)
      fun label => ∃ target, For host target label := by
  intro stamp state runtime dispatches hdispatch next hnext
  obtain rfl : Pursuit.dispatch host definition state runtime = dispatches := Except.ok.inj hdispatch
  exact (asks_of_mem_dispatch hnext).target

theorem served_step {l : Label} (hwell : WellStarted s) (h : Served host s)
    (hstep : step (pursuitRequest host definition args toJsonObject) s l = some t) :
    Served host t :=
  served_iff.mpr (labelled_step pursuit_dispatches hwell (served_iff.mp h) hstep)

/-- A shown settlement is for the target of its node, and a worker's outcome parses. -/
theorem settlement_of_shown {l : Label} {sh : Shown PursuitFields} (h : Served host s)
    (hshown : shown s l = some sh) :
    ∃ entry target, s.nodes[sh.entry]? = some entry ∧ entry.status = .running ∧
      For host target (entry.start, entry.metadata) ∧
      settlementMetadata sh.settlement = some target ∧
      ∀ legId attemptId workItemId workItemKey number,
        target = .worker legId attemptId workItemId workItemKey number →
        ∀ accepted, sh.settlement = .completed accepted →
          ∃ payload, WorkerOutcomePayload.parse accepted.outcome = some payload := by
  obtain ⟨entry, hentry, hrunning, ⟨target, hfor⟩, hmetadata, hparses⟩ :=
    (served_iff.mp h).of_shown hshown
  refine ⟨entry, target, hentry, hrunning, hfor, ?_, ?_⟩
  · have hentryMetadata : entry.metadata = some target.toJson := hfor.metadata
    rw [settlementMetadata, hmetadata, hentryMetadata]
    exact PursuitNodeMetadata.parse_toJson target
  · rintro legId attemptId workItemId workItemKey number rfl accepted haccepted
    obtain ⟨payload, hparse⟩ := hparses accepted haccepted
    have hcontract : entry.start.outcome = workerContract host := hfor.outcome
    rw [hcontract] at hparse
    simp only [workerContract] at hparse
    cases hworker : WorkerOutcomePayload.parse payload with
    | none =>
      simp only [parseOrThrow, hworker] at hparse
      cases hparse
    | some worker =>
      simp only [parseOrThrow, hworker, Except.map, Except.ok.injEq] at hparse
      exact ⟨worker, by rw [← hparse]; exact WorkerOutcomePayload.parse_toJson worker⟩

/-- An accepted settlement is applied without an exception. -/
theorem applies_of_shown {l : Label} {sh : Shown PursuitFields} {state : PursuitState}
    {closed : List Leg} {leg : Leg} {earlier : List Attempt} {current : Attempt}
    (h : Served host s) (hshown : shown s l = some sh)
    (hopen : Open state closed leg earlier current)
    (hvalid : validateNodeSettlement host state sh.settlement = .ok .ok) :
    ∃ applied, applyNodeSettlement host state sh.settlement = .ok applied := by
  obtain ⟨entry, target, -, -, -, hmetadata, hworker⟩ := settlement_of_shown h hshown
  exact hopen.applies hvalid fun legId attemptId workItemId workItemKey number hmeta =>
    hworker legId attemptId workItemId workItemKey number
      (Option.some.inj (hmetadata.symm.trans hmeta))

/-- **An accepted settlement is applied and evaluated**, and the run goes on from there. -/
theorem evaluated_of_applied {l : Label} {sh : Shown PursuitFields} {state : PursuitState}
    {closed : List Leg} {leg : Leg} {earlier : List Attempt} {current : Attempt}
    {r : Except Fault (Option Frame)} (h : Served host s) (hshown : shown s l = some sh)
    (hopen : Open state closed leg earlier current)
    (hvalid : validateNodeSettlement host state sh.settlement = .ok .ok)
    (hu : Applied (pursuitRequest host definition args toJsonObject) sh.entry sh.settlement state
      sh.closed r u) :
    ∃ applied stamp runtime v, applyNodeSettlement host state sh.settlement = .ok applied ∧
      stamp = (evaluating sh.entry sh.settlement applied sh.closed).clock ∧
      runtime.runningNodes = sh.closed.runningNodes ∧ v.nodes = sh.closed.nodes ∧
      v.outcome = sh.closed.outcome ∧ .evaluateCalled stamp runtime ∈ u.history ∧
      v.state = some (evaluateWorkflowProgress host stamp applied.state runtime).state ∧
      Ended (pursuitRequest host definition args toJsonObject)
        (evaluateWorkflowProgress host stamp applied.state runtime).state v r u := by
  cases hu with
  | applyThrew message clock happly =>
    exfalso
    obtain ⟨applied, happlied⟩ := applies_of_shown h hshown hopen hvalid
    have hthrow : applyNodeSettlement host state sh.settlement = .error message := happly
    rw [happlied] at hthrow
    cases hthrow
  | evaluateThrew _ _ _ _ _ _ _ hevaluate => cases hevaluate
  | evaluated applied happly stamp hstamp runtime hruntime evaluated hevaluate clock events _ _ ht =>
    obtain rfl : evaluateWorkflowProgress host stamp applied.state runtime = evaluated :=
      Except.ok.inj hevaluate
    refine ⟨applied, stamp, runtime, _, happly, hstamp, ?_, ?_, ?_, ?_, ?_, ht.ended⟩
    · rw [hruntime]
      exact evaluating_runningNodes _ _ _
    · rfl
    · rfl
    · exact ht.extends.mem (List.mem_append_right _ (List.mem_singleton_self _))
    · rfl

end Served

/-! ## No deadlock -/

/-- The run has not deadlocked, and its pursuit is done or progressing. -/
structure Alive (host : Host) (s : WorkflowRunInstance PursuitFields) : Prop where
  served : Served host s
  progress : ∀ state, s.state = some state →
    state.isWorkflowDone = true ∨ Progressing state (s.runningLabels.filterMap workItemKeyOf)
  outcome : ∀ reason report, s.outcome ≠ some (.deadlocked reason report)

theorem served_of_run {ls : List Label} {s : WorkflowRunInstance PursuitFields} {host : Host}
    {definition : WorkflowDefinition} {args : JsonObject}
    {toJsonObject : PursuitState → Except String Json}
    {ok : WorkflowRunInstance PursuitFields → Label → Prop}
    (run : Run (step (pursuitRequest host definition args toJsonObject)) ok initial ls s) :
    Served host s :=
  run.invariant_of wellStarted_of_run (served_initial host)
    fun _ _ _ _ hwell h hstep => served_step hwell h hstep

section Alive

variable {host : Host} {definition : WorkflowDefinition} {args : JsonObject}
  {toJsonObject : PursuitState → Except String Json} {s t u : WorkflowRunInstance PursuitFields}
  {bindings : NodeBindings}

theorem workflowOutcome_not_deadlocked {state : PursuitState} (hdone : state.isWorkflowDone = true)
    (reason : String) (report : Option JsonObject) :
    (workflowOutcome state).getD (defaultOutcome state) ≠ .deadlocked reason report := by
  unfold workflowOutcome
  rw [if_neg (by simp [hdone])]
  simp only
  split <;> simp

/-- What the code after a snapshot does to a pursuit that is done or progressing. -/
theorem ended_alive (hbindings : nodeBindings definition = some bindings) {state : PursuitState}
    {r : Except Fault (Option Frame)}
    (h : Ended (pursuitRequest host definition args toJsonObject) state s r t)
    (hstate : s.state = some state)
    (hprogress : state.isWorkflowDone = true ∨
      Progressing state (s.runningLabels.filterMap workItemKeyOf))
    (houtcome : ∀ reason report, s.outcome ≠ some (.deadlocked reason report)) :
    (∀ next, t.state = some next →
      next.isWorkflowDone = true ∨ Progressing next (t.runningLabels.filterMap workItemKeyOf)) ∧
      ∀ reason report, t.outcome ≠ some (.deadlocked reason report) := by
  cases h with
  | quiet hs hnodes hr ho =>
    refine ⟨fun next hnext => ?_, fun reason report hdead => ?_⟩
    · rw [hs, hstate, Option.some.injEq] at hnext
      rw [runningLabels_of_nodes hnodes, ← hnext]
      exact hprogress
    · rcases ho with ho | ⟨hdone, stamp, answer, hanswer, ho⟩
      · exact houtcome reason report (ho ▸ hdead)
      · obtain rfl : workflowOutcome state = answer := Except.ok.inj hanswer
        rw [ho, Option.some.injEq] at hdead
        exact workflowOutcome_not_deadlocked hdone reason report hdead
  | deadlocked hdone hidle stamp runtime hruntime hdispatch =>
    exfalso
    have hprogress' : Progressing state [] := by
      rcases hprogress with hd | hprogress
      · rw [hdone] at hd
        cases hd
      · rwa [WorkflowRunInstance.runningLabels, hidle] at hprogress
    exact hprogress'.dispatch_ne_nil hbindings hruntime (Except.ok.inj hdispatch)
  | launched hdone stamp runtime hruntime first rest hdispatch startedAt hs hnodes hr ho =>
    refine ⟨fun next hnext => ?_, fun reason report hdead => houtcome reason report (ho ▸ hdead)⟩
    rw [hs, hstate, Option.some.injEq] at hnext
    rw [runningLabels_launched hnodes rfl, ← hnext, List.filterMap_append]
    exact hprogress.imp id fun h => h.mono (List.subset_append_left _ _)

theorem alive_initial (host : Host) : Alive host initial :=
  ⟨served_initial host, fun _ h => (by cases h), fun _ _ h => by cases h⟩

theorem alive_step (hbindings : nodeBindings definition = some bindings) {l : Label}
    (hwell : WellStarted s) (h : Alive host s)
    (hstep : step (pursuitRequest host definition args toJsonObject) s l = some t) :
    Alive host t := by
  have hserved := served_step hwell h.served hstep
  -- control moves neither the state nor the nodes that run
  have hcontrol : ∀ {faults u}, Control faults u t →
      ((∀ next, u.state = some next →
        next.isWorkflowDone = true ∨ Progressing next (u.runningLabels.filterMap workItemKeyOf)) ∧
        ∀ reason report, u.outcome ≠ some (.deadlocked reason report)) → Alive host t := by
    intro faults u ht hu
    refine ⟨hserved, fun next hnext => ?_, fun reason report hdead => ?_⟩
    · rw [ht.runningLabels]
      exact hu.1 next (ht.state ▸ hnext)
    · exact hu.2 reason report (ht.outcome ▸ hdead)
  cases stepped_of_step hwell hstep with
  | control faults hfaults ht => exact hcontrol ht ⟨h.progress, h.outcome⟩
  | started hidle r u _ hu ht =>
    cases hu with
    | threw message clock => exact hcontrol ht ⟨h.progress, h.outcome⟩
    | created state hcreate clock events _ _ hu =>
      refine hcontrol ht (ended_alive hbindings hu.ended rfl ?_ h.outcome)
      obtain ⟨parsed, -, rfl⟩ := created_of_ok hcreate
      exact .inr (progressing_created host _ parsed _)
  | launched flow next rest outer hframes clock startedAt ht =>
    refine hcontrol ht ⟨fun state hstate => ?_, h.outcome⟩
    refine (h.progress state hstate).imp id fun hprogress => hprogress.mono ?_
    rw [runningLabels_eq, runningLabels_eq, List.filter_append, List.map_append,
      List.filterMap_append]
    exact List.subset_append_left _ _
  | settled sh hshown state hstate hverdict r u _ hu ht =>
    obtain ⟨queue, hin⟩ := shownIn_of_shown hshown
    have hvalid : validateNodeSettlement host state sh.settlement = .ok .ok := hverdict
    rcases h.progress state hstate with hdone | hprogress
    · unfold validateNodeSettlement at hvalid
      rw [if_pos hdone] at hvalid
      cases hvalid
    · obtain ⟨closed, leg, earlier, current, running, hopen, -, -, -⟩ := id hprogress
      obtain ⟨applied, stamp, runtime, v, happly, -, hruntime, hnodes, houtcome, -, hv, hended⟩ :=
        evaluated_of_applied h.served hshown hopen hvalid hu
      refine hcontrol ht (ended_alive hbindings hended hv ?_ ?_)
      · have hsettle := hprogress.settle hvalid happly stamp runtime
        rw [runningMetadata_workItems, hruntime] at hsettle
        rw [WorkflowRunInstance.runningLabels, WorkflowRunInstance.runningNodes, hnodes]
        exact hsettle
      · intro reason report hdead
        obtain ⟨_, _, _, hclosed, _⟩ := hin.closed
        rw [houtcome, hclosed] at hdead
        exact h.outcome reason report hdead
  | interrupted reason running hactive state hstate r u _ hu ht =>
    obtain ⟨hstate', -, houtcome⟩ := hu.view
    refine hcontrol ht ⟨fun next hnext => ?_, fun reason' report hdead => ?_⟩
    · rw [hstate', Option.some.injEq] at hnext
      exact .inl (hnext ▸ rfl)
    · rcases houtcome with ho | ho
      · exact h.outcome reason' report (ho ▸ hdead)
      · rw [ho] at hdead
        cases hdead

end Alive

/-- **A pursuit never deadlocks.**  In every reachable state that is not done and has no running
node, `dispatch` returns a node; and no run of the workflow runtime ends as deadlocked. -/
theorem pursuit_never_deadlocks (host : Host) (definition : WorkflowDefinition)
    (bindings : NodeBindings) (hbindings : nodeBindings definition = some bindings) :
    (∀ state offered, Reachable host definition state offered [] →
      state.isWorkflowDone = false → ∀ runtime, Shows runtime [] →
        dispatch host definition state runtime ≠ []) ∧
    ∀ args toJsonObject ls s,
      Run (step (pursuitRequest host definition args toJsonObject)) Free initial ls s →
        ∀ reason report, s.outcome ≠ some (.deadlocked reason report) := by
  refine ⟨fun state offered hreach hdone runtime hruntime => ?_, ?_⟩
  · have hprogress : Progressing state [] := by
      rcases progressing_of_reachable hreach with hd | hprogress
      · rw [hdone] at hd
        cases hd
      · exact hprogress
    exact hprogress.dispatch_ne_nil hbindings (List.map_eq_nil_iff.mp hruntime)
  · intro args toJsonObject ls s run
    have halive : Alive host s := run.invariant_of wellStarted_of_run (alive_initial host)
      fun _ _ _ _ hwell h hstep => alive_step hbindings hwell h hstep
    exact halive.outcome

/-- A host whose identifiers spell their stamp and their index. -/
def spellingHost : Host where
  randomUUID stamp index :=
    String.ofList (List.replicate stamp 'a' ++ 'b' :: List.replicate index 'c')
  now _ := "now"
  zodMessage _ := "invalid"

def agentBindings : NodeBindings where
  planner := { kind := .agent, name := "planner" }
  worker := { kind := .agent, name := "worker" }

/-- A definition that binds both roles to agents. -/
def boundDefinition : WorkflowDefinition where
  metadata := some
    [("nodeBindings", .obj
      [("planner", .obj [("kind", .str "agent"), ("name", .str "planner")]),
        ("worker", .obj [("kind", .str "agent"), ("name", .str "worker")])])]

theorem pursuit_never_deadlocks_bound :
    dispatch spellingHost boundDefinition
        (createInitialState spellingHost 0 { pursuitGoal := "ship", legGoals := none, maxAttempts := 2 })
        { runningNodes := [], finishedNodes := [], timeline := [] } ≠ [] ∧
      ∀ toJsonObject ls s,
        Run (step (pursuitRequest spellingHost boundDefinition [("pursuit_goal", .str "ship")]
          toJsonObject)) Free initial ls s →
          ∀ reason report, s.outcome ≠ some (.deadlocked reason report) := by
  have h := pursuit_never_deadlocks spellingHost boundDefinition agentBindings rfl
  exact ⟨h.1 _ _ (.created 0 [("pursuit_goal", .str "ship")] _ rfl) rfl _ rfl, h.2 _⟩

end EphemeralAgent.Pursuit
