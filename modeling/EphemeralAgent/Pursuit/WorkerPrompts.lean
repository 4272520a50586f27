import Mathlib.Data.List.Find
import EphemeralAgent.Pursuit.Predefined
import EphemeralAgent.Pursuit.References
import EphemeralAgent.Pursuit.Validation

/-!
# The prompts of workers

A worker is dispatched once `dependencyStatus` has found its dependencies succeeded, in the
worker's own goal version.  The variable reference map reports the same items.  The prompt takes
the first item of the leg that has succeeded under the id, whatever its version.

* `certified` — the items that let the worker start
* `worker_dependencies` — the prompt carries them exactly when no id has two successes
* `superseded_dependency` — a run in which a worker gets the result of a superseded goal
-/

namespace EphemeralAgent.Pursuit

open EphemeralAgent.Lib EphemeralAgent.Workflow

/-! ## What a prompt carries -/

/-- The items whose sections `workerMessages` writes. -/
def promptDependencies (leg : Leg) (attempt : Attempt) (item : WorkItem) : List WorkItem :=
  item.dependsOn.filterMap (workItemById leg attempt)

/-- The section of a dependency. -/
def dependencySection (dependency : WorkItem) : String :=
  String.intercalate "\n"
    ["## work_item_" ++ dependency.id, dependency.summary.getD "(no summary)",
      dependency.outcome.getD "(no outcome)"]

/-- The prompt of a worker with the sections of these items. -/
def workerPrompt (state : PursuitState) (leg : Leg) (item : WorkItem)
    (dependencies : List WorkItem) : List Message :=
  let sections := String.intercalate "\n\n" (dependencies.map dependencySection)
  [userMessage
    ["# Pursuit goal", state.ext.pursuit.goal, "# Current leg goal", leg.legGoal, "# Work item",
      "work_item_" ++ item.id ++ ": " ++ item.title, item.spec,
      if sections = "" then "" else "# Completed dependencies\n" ++ sections,
      "# Worker task",
      "Complete only this work item, then submit whether it passed, a concise summary, and the outcome."]]

/-- The items that `dependencyStatus` certifies as a success for the worker, in the order of
`depends_on`. -/
def certified (leg : Leg) (item : WorkItem) : List WorkItem :=
  item.dependsOn.filterMap fun id =>
    (leg.workItems.find? fun other =>
      other.id = id ∧ other.legGoalVersion = item.legGoalVersion).filter (·.status == .success)

/-- A dependency in the variable reference map. -/
def outcomeOf (item : WorkItem) : Json :=
  .obj
    [("id", .str item.id), ("title", .str item.title), ("status", .str "Success"),
      ("summary", nullable item.summary), ("outcome", nullable item.outcome)]

/-- The prompt and the variable reference map carry the certified items. -/
structure CarriesDependencies (state : PursuitState) (leg : Leg) (attempt : Attempt)
    (item : WorkItem) : Prop where
  prompt : promptDependencies leg attempt item = certified leg item
  references : dependencyOutcomes (workerArgs state leg attempt item) =
    (certified leg item).map outcomeOf

/-- No dependency of the item has succeeded under another goal version as well. -/
def NoNamesake (leg : Leg) (item : WorkItem) : Prop :=
  ∀ id ∈ item.dependsOn, ∀ other ∈ leg.workItems, other.id = id → other.status = .success →
    other.legGoalVersion = item.legGoalVersion

/-! ## The lookups of a worker that is dispatched -/

/-- Lookups that all hit can be compared one by one. -/
theorem filterMap_inj_of_isSome {α β : Type*} {f g : α → Option β} {xs : List α}
    (hf : ∀ a ∈ xs, (f a).isSome = true) (hg : ∀ a ∈ xs, (g a).isSome = true) :
    xs.filterMap f = xs.filterMap g ↔ ∀ a ∈ xs, f a = g a := by
  induction xs with
  | nil => simp
  | cons a rest ih =>
    obtain ⟨b, hb⟩ := Option.isSome_iff_exists.mp (hf a List.mem_cons_self)
    obtain ⟨c, hc⟩ := Option.isSome_iff_exists.mp (hg a List.mem_cons_self)
    rw [List.filterMap_cons_some hb, List.filterMap_cons_some hc, List.forall_mem_cons,
      List.cons.injEq, ih (fun x hx => hf x (List.mem_cons_of_mem _ hx))
        fun x hx => hg x (List.mem_cons_of_mem _ hx), hb, hc, Option.some.injEq]

section Worker

variable {state : PursuitState} {leg : Leg} {earlier : List Attempt} {current : Attempt}
  {item target : WorkItem} {id : String}

/-- A certified dependency is an item of the worker's version that has succeeded. -/
theorem exists_certified (hready : dependenciesSucceeded leg item = true)
    (hid : id ∈ item.dependsOn) :
    ∃ target, (leg.workItems.find? fun other =>
        other.id = id ∧ other.legGoalVersion = item.legGoalVersion) = some target ∧
      target ∈ leg.workItems ∧ target.id = id ∧ target.legGoalVersion = item.legGoalVersion ∧
      target.status = .success := by
  have hstatus := beq_iff_eq.mp (List.all_eq_true.mp hready id hid)
  obtain ⟨target, hfind, hsuccess⟩ := Option.map_eq_some_iff.mp hstatus
  have hfields := List.find?_some hfind
  simp only [decide_eq_true_eq] at hfields
  exact ⟨target, hfind, List.mem_of_find?_eq_some hfind, hfields.1, hfields.2, hsuccess⟩

/-- Every dependency of the worker is certified. -/
theorem certified_ids (hready : dependenciesSucceeded leg item = true) :
    (certified leg item).map (·.id) = item.dependsOn := by
  unfold certified
  rw [List.map_filterMap]
  refine (List.filterMap_congr fun id hid => ?_).trans (List.filterMap_some ..)
  obtain ⟨target, hfind, -, htargetId, -, hsuccess⟩ := exists_certified hready hid
  rw [hfind, Option.filter_some, if_pos (beq_iff_eq.mpr hsuccess), Option.map_some, htargetId]

/-- The prompt looks through the whole leg. -/
theorem workItemById_of_latest (hwell : leg.WellFormed) (hlatest : leg.Latest earlier current) :
    workItemById leg current id = leg.workItems.find? fun other =>
      other.id == id && other.status == .success := by
  have hshape := (Leg.wellFormed_iff hlatest.attempts).mp hwell
  have hall : leg.attempts.filter (·.sequence ≤ current.sequence) = leg.attempts := by
    rw [List.filter_eq_self, hlatest.attempts]
    intro attempt hattempt
    rw [decide_eq_true_eq]
    rcases List.mem_append.mp hattempt with hattempt | hattempt
    · have hnumber := List.mem_map_of_mem (f := fun a : Attempt => a.sequence) hattempt
      rw [hshape.numbered, List.mem_range'_1] at hnumber
      have hlast := hshape.number
      omega
    · rw [List.mem_singleton.mp hattempt]
  unfold workItemById
  rw [hall]
  rfl

/-- **The prompt finds the certified item exactly when the id has succeeded in no other version.** -/
theorem workItemById_eq_iff (h : leg.Coherent) (hwell : leg.WellFormed)
    (hlatest : leg.Latest earlier current) (hversion : item.legGoalVersion = leg.legGoalVersion)
    (htarget : target ∈ leg.workItems) (htargetId : target.id = id)
    (htargetVersion : target.legGoalVersion = item.legGoalVersion)
    (hsuccess : target.status = .success) :
    workItemById leg current id = some target ↔
      ∀ other ∈ leg.workItems, other.id = id → other.status = .success →
        other.legGoalVersion = item.legGoalVersion := by
  rw [workItemById_of_latest hwell hlatest]
  constructor
  · intro hfind other hother hotherId hotherSuccess
    obtain ⟨-, before, after, hsplit, hbefore⟩ := List.find?_eq_some_iff_append.mp hfind
    have hhit : (other.id == id && other.status == .success) = true := by
      simp [hotherId, hotherSuccess]
    rw [hsplit] at hother
    rcases List.mem_append.mp hother with hmem | hmem
    · have hmiss := hbefore other hmem
      rw [hhit] at hmiss
      cases hmiss
    · rcases List.mem_cons.mp hmem with rfl | hmem
      · exact htargetVersion
      · -- what comes after the target has no earlier version
        have hordered := h.ordered
        rw [hsplit, List.map_append, List.map_cons, List.pairwise_append,
          List.pairwise_cons] at hordered
        have hle := hordered.2.1.1 _ (List.mem_map_of_mem hmem)
        have hbound := h.version_le hwell (hsplit ▸ hother)
        omega
  · intro hall
    have hsome : (leg.workItems.find? fun other =>
        other.id == id && other.status == .success).isSome = true := by
      rw [List.find?_isSome]
      exact ⟨target, htarget, by simp [htargetId, hsuccess]⟩
    obtain ⟨found, hfound⟩ := Option.isSome_iff_exists.mp hsome
    have hmem := List.mem_of_find?_eq_some hfound
    have hfields := List.find?_some hfound
    simp only [Bool.and_eq_true, beq_iff_eq] at hfields
    have hfoundVersion := hall found hmem hfields.1 hfields.2
    rw [hfound, Option.some.injEq]
    exact eq_of_key_eq h.distinct hmem htarget
      (Prod.ext (hfoundVersion.trans htargetVersion.symm) (hfields.1.trans htargetId.symm))

theorem Leg.workItems_eq_allExisting (leg : Leg) :
    leg.workItems = (allExisting leg).map (·.item) := by
  unfold Leg.workItems allExisting
  rw [List.map_flatMap]
  simp [Function.comp_def]

/-- The script finds the certified item as well. -/
theorem exists_reference (h : leg.Coherent) (hwell : leg.WellFormed)
    (hlatest : leg.Latest earlier current) (hversion : item.legGoalVersion = leg.legGoalVersion)
    (hleg : state.ext.legs.find? (·.id == leg.id) = some leg)
    (hcurrent : leg.attempts.find? (·.id == current.id) = some current)
    (hfind : (leg.workItems.find? fun other =>
      other.id = id ∧ other.legGoalVersion = item.legGoalVersion) = some target) :
    ∃ attempt, ((sameVersionWorkItems (workerArgs state leg current item)).find? fun json =>
        strictEquals (member json "id") (some (.str id))) =
      some (snapshotWorkItem (pursuitRootPath state.ext.pursuit.id) leg attempt target) := by
  rw [Leg.workItems_eq_allExisting, List.find?_map] at hfind
  obtain ⟨entry, hentry, rfl⟩ := Option.map_eq_some_iff.mp hfind
  refine ⟨entry.attempt, ?_⟩
  rw [sameVersionWorkItems_workerArgs hleg hcurrent, List.find?_map, List.find?_filter]
  have hsame : ((allExisting leg).find? fun other =>
      decide ((other.attempt.isConsistentWithLegGoal &&
        other.item.legGoalVersion == current.legGoalVersion) = true ∧
          (other.item.id == id) = true)) = some entry := by
    rw [← hentry]
    refine List.find?_congr fun other hother => ?_
    obtain ⟨hattempt, hitem⟩ := mem_allExisting.mp hother
    have hin := h.inVersion hwell hattempt hitem
    rw [hlatest.version, hversion]
    show decide (ExistingItem.inVersion leg other = true ∧ (other.item.id == id) = true) =
      decide (other.item.id = id ∧ other.item.legGoalVersion = leg.legGoalVersion)
    exact decide_eq_decide.mpr (by rw [hin, beq_iff_eq, and_comm])
  exact congrArg (Option.map _) hsame

/-- References to successes are reported as they are, in their order. -/
theorem outcomes_of_hits (root : String) (leg : Leg) {ids : List String} {look : String → Json}
    {find : String → Option WorkItem}
    (h : ∀ id ∈ ids, ∃ attempt target, find id = some target ∧
      look id = snapshotWorkItem root leg attempt target ∧ target.status = .success) :
    ((ids.map look).filter fun json =>
      strictEquals (member json "status") (some (.str "Success"))).map (fun json =>
        Json.obj
          [("id", orNull (member json "id")), ("title", orNull (member json "title")),
            ("status", (member json "status").getD (.str "Unknown")),
            ("summary", orNull (member json "summary")),
            ("outcome", orNull (member json "outcome"))]) =
      (ids.filterMap find).map outcomeOf := by
  induction ids with
  | nil => rfl
  | cons id rest ih =>
    obtain ⟨attempt, target, hfind, hlook, hsuccess⟩ := h id List.mem_cons_self
    rw [List.filterMap_cons_some hfind, List.map_cons, List.map_cons, hlook,
      List.filter_cons_of_pos, List.map_cons, ih fun other hother =>
        h other (List.mem_cons_of_mem _ hother)]
    · -- the snapshot has the fields that are reported
      congr 1
      show Json.obj [("id", .str target.id), ("title", .str target.title),
        ("status", .str target.status.toString), ("summary", nullable target.summary),
        ("outcome", nullable target.outcome)] = outcomeOf target
      rw [hsuccess]
      rfl
    · show strictEquals (some (.str target.status.toString)) (some (.str "Success")) = true
      rw [hsuccess]
      rfl

/-- **The variable reference map reports the certified items.** -/
theorem dependencyOutcomes_eq (h : leg.Coherent) (hwell : leg.WellFormed)
    (hlatest : leg.Latest earlier current) (hversion : item.legGoalVersion = leg.legGoalVersion)
    (hleg : state.ext.legs.find? (·.id == leg.id) = some leg)
    (hcurrent : leg.attempts.find? (·.id == current.id) = some current)
    (hitem : current.workItems.find? (·.id == item.id) = some item)
    (hready : dependenciesSucceeded leg item = true) :
    dependencyOutcomes (workerArgs state leg current item) =
      (certified leg item).map outcomeOf := by
  have hworkItems : dependencyWorkItems (workerArgs state leg current item) =
      item.dependsOn.map fun id =>
        ((sameVersionWorkItems (workerArgs state leg current item)).find? fun json =>
          strictEquals (member json "id") (some (.str id))).getD (.obj [("id", .str id)]) := by
    unfold dependencyWorkItems
    rw [currentWorkItem_workerArgs hleg hcurrent hitem]
    show (item.dependsOn.map Json.str).map _ = _
    rw [List.map_map]
    rfl
  unfold dependencyOutcomes certified
  rw [hworkItems]
  refine outcomes_of_hits (pursuitRootPath state.ext.pursuit.id) leg fun id hid => ?_
  obtain ⟨target, hfind, -, -, -, hsuccess⟩ := exists_certified hready hid
  obtain ⟨attempt, hreference⟩ := exists_reference h hwell hlatest hversion hleg hcurrent hfind
  refine ⟨attempt, target, ?_, ?_, hsuccess⟩
  · rw [hfind, Option.filter_some, if_pos (beq_iff_eq.mpr hsuccess)]
  · rw [hreference]
    rfl

/-- An attempt of a coherent leg finds its items by their ids. -/
theorem Leg.Coherent.find?_item (h : leg.Coherent) (hcurrent : current ∈ leg.attempts)
    (hitem : item ∈ current.workItems) :
    current.workItems.find? (·.id == item.id) = some item := by
  have hsublist : current.workItems.Sublist leg.workItems := by
    unfold Leg.workItems
    rw [List.flatMap_def]
    exact List.sublist_flatten_of_mem (List.mem_map_of_mem hcurrent)
  have hnodup := h.distinct.sublist (hsublist.map _)
  have hpairs : current.workItems.map (·.versionedId) =
      (current.workItems.map (·.id)).map (Prod.mk current.legGoalVersion) := by
    rw [List.map_map]
    refine List.map_congr_left fun other hother => ?_
    show (other.legGoalVersion, other.id) = (current.legGoalVersion, other.id)
    rw [h.versions current hcurrent other hother]
  rw [hpairs] at hnodup
  exact find?_of_nodup hnodup.of_map hitem

/-- **A worker that is dispatched gets the certified items exactly when none has a namesake.** -/
theorem carriesDependencies_iff {host : Host} {clock : Stamp} (h : leg.Coherent)
    (hwell : leg.WellFormed) (hdated : Dated host clock state) (hleg : leg ∈ state.ext.legs)
    (hlast : leg.attempts.getLast? = some current) (hitem : item ∈ current.workItems)
    (hready : dependenciesSucceeded leg item = true) :
    CarriesDependencies state leg current item ↔ NoNamesake leg item := by
  obtain ⟨earlier, latest, hlatest⟩ := h.latest
  obtain rfl : latest = current := by
    rw [hlatest.attempts, List.getLast?_append, List.getLast?_singleton, Option.some_or,
      Option.some.injEq] at hlast
    exact hlast
  have hcurrent : latest ∈ leg.attempts := List.mem_of_getLast? hlast
  have hversion : item.legGoalVersion = leg.legGoalVersion :=
    (h.versions latest hcurrent item hitem).trans hlatest.version
  obtain ⟨hfindLeg, hfindAttempt, -⟩ := findAttempt_of_dated hdated hleg hcurrent
  have hreferences := dependencyOutcomes_eq h hwell hlatest hversion hfindLeg hfindAttempt
    (h.find?_item hcurrent hitem) hready
  -- each dependency is looked up in three ways
  have hlookups : promptDependencies leg latest item = certified leg item ↔
      NoNamesake leg item := by
    unfold promptDependencies certified NoNamesake
    rw [filterMap_inj_of_isSome]
    · refine forall₂_congr fun id hid => ?_
      obtain ⟨target, hfind, hmem, htargetId, htargetVersion, hsuccess⟩ :=
        exists_certified hready hid
      rw [hfind, Option.filter_some, if_pos (beq_iff_eq.mpr hsuccess)]
      exact workItemById_eq_iff h hwell hlatest hversion hmem htargetId htargetVersion hsuccess
    · intro id hid
      obtain ⟨target, -, hmem, htargetId, -, hsuccess⟩ := exists_certified hready hid
      rw [workItemById_of_latest hwell hlatest, List.find?_isSome]
      exact ⟨target, hmem, by simp [htargetId, hsuccess]⟩
    · intro id hid
      obtain ⟨target, hfind, -, -, -, hsuccess⟩ := exists_certified hready hid
      rw [hfind, Option.filter_some, if_pos (beq_iff_eq.mpr hsuccess)]
      rfl
  constructor
  · exact fun hcarries => hlookups.mp hcarries.prompt
  · exact fun hnone => ⟨hlookups.mpr hnone, hreferences⟩

end Worker

/-- **The prompts of workers**: whatever a pursuit dispatches in a run is for a plan, or for a work
item; the worker of an item gets its certified dependencies exactly when none of their ids has
succeeded under another goal version too. -/
theorem worker_dependencies (host : Host) (hhost : host.Random) (definition : WorkflowDefinition)
    (args : JsonObject) (toJsonObject : PursuitState → Except String Json) {ls : List Label}
    {s : WorkflowRunInstance PursuitFields}
    (run : Run (step (pursuitRequest host definition args toJsonObject)) Free initial ls s)
    {state : PursuitState} (hstate : s.state = some state) (runtime : RuntimeSnapshot)
    {next : WorkflowNodeDispatch} (hnext : next ∈ dispatch host definition state runtime) :
    (∃ leg ∈ state.ext.legs, ∃ attempt ∈ leg.attempts, ∃ node,
      next = plannerDispatch host state leg attempt node) ∨
    ∃ leg ∈ state.ext.legs, ∃ attempt ∈ leg.attempts, ∃ item ∈ attempt.workItems, ∃ node,
      next = workerDispatch host state leg attempt item node ∧
      (certified leg item).map (·.id) = item.dependsOn ∧
      workerMessages state leg attempt item =
        workerPrompt state leg item (promptDependencies leg attempt item) ∧
      (CarriesDependencies state leg attempt item ↔ NoNamesake leg item) := by
  obtain ⟨hwell, hcoherent, hdated⟩ := coherent_of_state hhost run hstate
  obtain ⟨leg, hleg, current, -, hlast, hcases⟩ := mem_dispatch_cases hnext
  have hcurrent : current ∈ leg.attempts := List.mem_of_getLast? hlast
  rcases hcases with ⟨node, -, -, rfl⟩ | ⟨node, item, hitem, -, hdispatchable, rfl⟩
  · exact .inl ⟨leg, hleg, current, hcurrent, node, rfl⟩
  · have hready : dependenciesSucceeded leg item = true :=
      (Bool.and_eq_true_iff.mp hdispatchable).2
    refine .inr ⟨leg, hleg, current, hcurrent, item, hitem, node, rfl, ?_, rfl,
      carriesDependencies_iff (hcoherent leg hleg) (hwell.legs leg hleg) hdated hleg hlast hitem
        hready⟩
    exact certified_ids hready

/-! ## A goal that is replaced -/

/-- Items that can be dispatched are dispatched. -/
theorem workerDispatch_mem {host : Host} {definition : WorkflowDefinition}
    {bindings : NodeBindings} (hbindings : nodeBindings definition = some bindings)
    {state : PursuitState} {runtime : RuntimeSnapshot} (hdone : state.isWorkflowDone = false)
    {leg : Leg} (hleg : leg ∈ state.ext.legs) (hrunning : leg.status = .running)
    {attempt : Attempt} (hlast : leg.attempts.getLast? = some attempt)
    (hattempt : attempt.status = .running) (hplan : attempt.plan.status = .success)
    {item : WorkItem} (hitem : item ∈ attempt.workItems)
    (hready : dispatchable (runningMetadata runtime) leg item = true) :
    workerDispatch host state leg attempt item bindings.worker ∈
      dispatch host definition state runtime := by
  unfold dispatch
  rw [if_neg (by simp [hdone])]
  refine List.mem_flatMap.mpr ⟨leg, hleg, ?_⟩
  unfold dispatchLeg
  simp only [hrunning, hlast, hattempt, hplan, hbindings]
  exact List.mem_map_of_mem (List.mem_filter.mpr ⟨hitem, hready⟩)

/-- Nothing runs. -/
def idleRuntime : RuntimeSnapshot where
  runningNodes := []
  finishedNodes := []
  timeline := []

def failedItem : Json :=
  .obj [("summary", .str "b"), ("is_pass", .bool false), ("outcome", .str "broken")]

def passedAnew : Json :=
  .obj [("summary", .str "a"), ("is_pass", .bool true), ("outcome", .str "done anew")]

/-- The outcome of a planner that replaces the goal, with an item that depends on a new one. -/
def refocus : Json :=
  .obj
    [("summary", .str "start over"), ("leg_goal", .str "less"),
      ("work_items", .arr
        [.obj
          [("id", .str "a"), ("agent_name", .str "worker"), ("title", .str "A"),
            ("spec", .str "do a")],
        .obj
          [("id", .str "c"), ("agent_name", .str "worker"), ("title", .str "C"),
            ("spec", .str "do c"), ("depends_on", .arr [.str "a"])]])]

/-- The first attempt fails after its item "a" has passed; the second replaces the goal and does an
item "a" of its own. -/
def refocused : List Label :=
  twoLaunches ++
    [.launchResolved .queue, .resume .queue, .submit 1 passed, .dequeue, .submit 2 failedItem,
      .dequeue, .launchResolved .queue, .resume .queue, .submit 3 refocus, .dequeue,
      .launchResolved .queue, .resume .queue, .submit 4 passedAnew, .dequeue]

/-- The worker of "c" can be dispatched then; its prompt and its gate mean different items. -/
theorem refocused_run :
    ∃ s state leg attempt item, Run (step boundRequest) Free initial refocused s ∧
      s.state = some state ∧
      workerDispatch spellingHost state leg attempt item agentBindings.worker ∈
        dispatch spellingHost boundDefinition state idleRuntime ∧
      (promptDependencies leg attempt item).map (·.outcome) = [some "done"] ∧
      (certified leg item).map (·.outcome) = [some "done anew"] := by
  obtain ⟨s, hs, hp⟩ := exists_run (step boundRequest) Free initial refocused
    (fun s => s.state.any fun state => state.isWorkflowDone = false ∧
      state.ext.legs.any fun leg => leg.status = .running ∧
        leg.attempts.getLast?.any fun attempt =>
          attempt.status = .running ∧ attempt.plan.status = .success ∧
          attempt.workItems.any fun item =>
            dispatchable (runningMetadata idleRuntime) leg item = true ∧
            (promptDependencies leg attempt item).map (·.outcome) = [some "done"] ∧
            (certified leg item).map (·.outcome) = [some "done anew"]) (by decide +kernel)
  obtain ⟨state, hstate, hfields⟩ := (Option.any_eq_true _ _).mp hp
  obtain ⟨hdone, hlegs⟩ := of_decide_eq_true hfields
  obtain ⟨leg, hleg, hfields⟩ := List.any_eq_true.mp hlegs
  obtain ⟨hrunning, hlasts⟩ := of_decide_eq_true hfields
  obtain ⟨attempt, hlast, hfields⟩ := (Option.any_eq_true _ _).mp hlasts
  obtain ⟨hattempt, hplan, hitems⟩ := of_decide_eq_true hfields
  obtain ⟨item, hitem, hfields⟩ := List.any_eq_true.mp hitems
  obtain ⟨hready, hprompt, hcertified⟩ := of_decide_eq_true hfields
  exact ⟨s, state, leg, attempt, item, hs, hstate,
    workerDispatch_mem rfl hdone hleg hrunning hlast hattempt hplan hitem hready, hprompt,
    hcertified⟩

theorem worker_dependencies_refocused :
    ∃ s state, Run (step boundRequest) Free initial refocused s ∧ s.state = some state ∧
      ∃ next ∈ dispatch spellingHost boundDefinition state idleRuntime,
        (∃ leg ∈ state.ext.legs, ∃ attempt ∈ leg.attempts, ∃ node,
          next = plannerDispatch spellingHost state leg attempt node) ∨
        ∃ leg ∈ state.ext.legs, ∃ attempt ∈ leg.attempts, ∃ item ∈ attempt.workItems, ∃ node,
          next = workerDispatch spellingHost state leg attempt item node ∧
          (certified leg item).map (·.id) = item.dependsOn ∧
          workerMessages state leg attempt item =
            workerPrompt state leg item (promptDependencies leg attempt item) ∧
          (CarriesDependencies state leg attempt item ↔ NoNamesake leg item) := by
  obtain ⟨s, state, leg, attempt, item, hs, hstate, hmem, -⟩ := refocused_run
  exact ⟨s, state, hs, hstate, _, hmem, worker_dependencies spellingHost spellingHost_random
    boundDefinition _ _ hs hstate idleRuntime hmem⟩

/-- **A worker gets the result of a superseded goal**: in the run, the item that lets "c" start is
the new "a", and the prompt of "c" carries the old one. -/
theorem superseded_dependency :
    ∃ s state leg attempt item, Run (step boundRequest) Free initial refocused s ∧
      s.state = some state ∧
      workerDispatch spellingHost state leg attempt item agentBindings.worker ∈
        dispatch spellingHost boundDefinition state idleRuntime ∧
      (promptDependencies leg attempt item).map (·.outcome) = [some "done"] ∧
      (certified leg item).map (·.outcome) = [some "done anew"] ∧
      ¬ CarriesDependencies state leg attempt item := by
  obtain ⟨s, state, leg, attempt, item, hs, hstate, hmem, hprompt, hcertified⟩ := refocused_run
  refine ⟨s, state, leg, attempt, item, hs, hstate, hmem, hprompt, hcertified, fun h => ?_⟩
  rw [h.prompt, hcertified] at hprompt
  exact absurd hprompt (by decide)

end EphemeralAgent.Pursuit
