import EphemeralAgent.Pursuit.ContextPaths
import EphemeralAgent.Pursuit.ContextSearch

/-!
# The context stores of the workflows

`composeAgenticWorkflowContextStores`: every store is told of every run that is started and asked
about every run, and the answers follow one another.

* `World` — what the objects that a store refers to answer at the moment of a request
* `ContextStore` — the store of a pursuit module, or one of another module
* `listContext`, `queryContext` — of one store, and of the composed ones
* `once_iff` — the composed rows are the own ones, once each, when nobody else answers
-/

namespace EphemeralAgent.AgenticWorkflows

open Lib Workflow Pursuit

/-- Who asks for context. -/
structure AgenticWorkflowToolCaller where
  agentName : String
  agentRunId : Option String

/-- What is behind a reference at the moment of a request: the handles of runs, the function
`readLatestSnapshot` of a run store, which the pursuit calls without its store, and the stores of
modules whose source is not here. -/
structure World (H R E : Type) where
  snapshot : H → WorkflowRunSnapshot
  readLatestSnapshot : R → String → Option WorkflowRunSnapshot
  listContext : E → AgenticWorkflowToolCaller → String → List JsonObject
  queryContext : E → AgenticWorkflowToolCaller → String → String → List JsonObject

/-- What a store is told of a run that has started. -/
structure InitialContext (H : Type) where
  workflowRunId : String
  workflowName : String
  args : JsonObject
  handle : H

/-- A store of `createPursuitContextStore` with its handles, or one of another module. -/
inductive ContextStore (H R E : Type) where
  | pursuit (handles : List (String × H)) (readLatestSnapshot : Option R)
  | external (store : E)

variable {H R E : Type}

/-! ## One store -/

/-- `createPursuitContextStore`. -/
def createPursuitContextStore (workflowRunStore : Option R) : ContextStore H R E :=
  .pursuit [] workflowRunStore

namespace ContextStore

/-- `projectInitialContext`; what another module makes of it shows in its answers. -/
def projectInitialContext (input : InitialContext H) : ContextStore H R E → ContextStore H R E
  | .pursuit handles readLatestSnapshot =>
    .pursuit (setEntry handles (input.workflowRunId, input.handle)) readLatestSnapshot
  | .external store => .external store

variable (world : World H R E)

/-- The context that the store of a pursuit has for a run. -/
def contextFor (handles : List (String × H)) (readLatestSnapshot : Option R)
    (workflowRecordId : String) : Option PursuitContext :=
  contextForWorkflowRun (handles.map fun entry => (entry.1, world.snapshot entry.2))
    workflowRecordId (readLatestSnapshot.map world.readLatestSnapshot)

def listContext (locale : Pursuit.Locale) (caller : AgenticWorkflowToolCaller)
    (workflowRecordId : String) : ContextStore H R E → List JsonObject
  | .pursuit handles readLatestSnapshot =>
    match contextFor world handles readLatestSnapshot workflowRecordId with
    | none => []
    | some context => listContextRows locale context
  | .external store => world.listContext store caller workflowRecordId

def queryContext (locale : Pursuit.Locale) (caller : AgenticWorkflowToolCaller)
    (workflowRecordId text : String) : ContextStore H R E → List JsonObject
  | .pursuit handles readLatestSnapshot =>
    match contextFor world handles readLatestSnapshot workflowRecordId with
    | none => []
    | some context => searchContextRows locale context text
  | .external store => world.queryContext store caller workflowRecordId text

end ContextStore

/-! ## The composed stores -/

/-- `projectInitialContext` of the composed stores: every store is told. -/
def projectInitialContext (stores : List (ContextStore H R E)) (input : InitialContext H) :
    List (ContextStore H R E) :=
  stores.map (·.projectInitialContext input)

/-- `listContext` of the composed stores; without a store it is the one that does nothing. -/
def listContext (world : World H R E) (locale : Pursuit.Locale) (caller : AgenticWorkflowToolCaller)
    (workflowRecordId : String) (stores : List (ContextStore H R E)) : List JsonObject :=
  if stores.length = 0 then []
  else stores.flatMap (·.listContext world locale caller workflowRecordId)

/-- `queryContext` of the composed stores. -/
def queryContext (world : World H R E) (locale : Pursuit.Locale)
    (caller : AgenticWorkflowToolCaller) (workflowRecordId text : String)
    (stores : List (ContextStore H R E)) : List JsonObject :=
  if stores.length = 0 then []
  else stores.flatMap (·.queryContext world locale caller workflowRecordId text)

/-- The store after the runs that have been started. -/
def ContextStore.projected (inputs : List (InitialContext H)) (store : ContextStore H R E) :
    ContextStore H R E :=
  inputs.foldl (fun store input => store.projectInitialContext input) store

/-- The composed stores are told of every run alike. -/
theorem foldl_projectInitialContext (inputs : List (InitialContext H))
    (stores : List (ContextStore H R E)) :
    inputs.foldl projectInitialContext stores = stores.map (·.projected inputs) := by
  induction inputs generalizing stores with
  | nil => exact (List.map_id stores).symm
  | cons input rest ih =>
    rw [List.foldl_cons, ih]
    unfold projectInitialContext
    rw [List.map_map]
    rfl

theorem listContext_eq (world : World H R E) (locale : Pursuit.Locale)
    (caller : AgenticWorkflowToolCaller) (workflowRecordId : String)
    (stores : List (ContextStore H R E)) :
    listContext world locale caller workflowRecordId stores =
      stores.flatMap (·.listContext world locale caller workflowRecordId) := by
  unfold listContext
  split
  · next h => rw [List.length_eq_zero_iff.mp h, List.flatMap_nil]
  · rfl

theorem queryContext_eq (world : World H R E) (locale : Pursuit.Locale)
    (caller : AgenticWorkflowToolCaller) (workflowRecordId text : String)
    (stores : List (ContextStore H R E)) :
    queryContext world locale caller workflowRecordId text stores =
      stores.flatMap (·.queryContext world locale caller workflowRecordId text) := by
  unfold queryContext
  split
  · next h => rw [List.length_eq_zero_iff.mp h, List.flatMap_nil]
  · rfl

/-! ## Every row once -/

/-- The rows are the own ones, and no path comes twice. -/
structure OnceEach (rows own : List JsonObject) : Prop where
  paths : (rows.map rowPath).Nodup
  rows : ∀ row, row ∈ rows ↔ row ∈ own

/-- Answers that follow one another have the own rows once each when those have paths of their own
and nobody else answers. -/
theorem once_iff {A : Type} (answer : A → List JsonObject) (before own after : List A) :
    OnceEach ((before ++ own ++ after).flatMap answer) (own.flatMap answer) ↔
      ((own.flatMap answer).map rowPath).Nodup ∧ ∀ other ∈ before ++ after, answer other = [] := by
  have hperm : ((before ++ own ++ after).flatMap answer).Perm
      (own.flatMap answer ++ (before ++ after).flatMap answer) := by
    rw [← List.flatMap_append, ← List.append_assoc]
    exact (List.perm_append_comm.append_right after).flatMap_right answer
  constructor
  · intro h
    have hnodup := ((hperm.map rowPath).nodup_iff.mp h.paths)
    rw [List.map_append, List.nodup_append] at hnodup
    refine ⟨hnodup.1, fun other hother => List.eq_nil_iff_forall_not_mem.mpr fun row hrow => ?_⟩
    -- the row of another store is an own one, so that its path comes twice
    have hothers : row ∈ (before ++ after).flatMap answer :=
      List.mem_flatMap.mpr ⟨other, hother, hrow⟩
    have hown : row ∈ own.flatMap answer :=
      (h.rows row).mp (hperm.mem_iff.mpr (List.mem_append_right _ hothers))
    exact hnodup.2.2 _ (List.mem_map_of_mem hown) _ (List.mem_map_of_mem hothers) rfl
  · rintro ⟨hnodup, hsilent⟩
    have hothers : (before ++ after).flatMap answer = [] := List.flatMap_eq_nil_iff.mpr hsilent
    rw [hothers, List.append_nil] at hperm
    exact ⟨(hperm.map rowPath).nodup_iff.mpr hnodup, fun row => hperm.mem_iff⟩

/-! ## Which stores answer -/

/-- The snapshot that the store of a pursuit finds for a run. -/
def snapshotFor (world : World H R E) (handles : List (String × H)) (readLatestSnapshot : Option R)
    (workflowRecordId : String) : Option WorkflowRunSnapshot :=
  match handles.lookup workflowRecordId with
  | some handle => some (world.snapshot handle)
  | none => readLatestSnapshot.bind fun store => world.readLatestSnapshot store workflowRecordId

/-- The state of a pursuit that the store finds for a run. -/
def stateFor (world : World H R E) (handles : List (String × H)) (readLatestSnapshot : Option R)
    (workflowRecordId : String) : Option PursuitState :=
  (snapshotFor world handles readLatestSnapshot workflowRecordId).bind fun snapshot =>
    pursuitStateFromSnapshot snapshot.state

namespace ContextStore

variable (world : World H R E) (caller : AgenticWorkflowToolCaller) (workflowRecordId : String)

/-- The store does not take the run for one of its own. -/
def Silent : ContextStore H R E → Prop
  | .pursuit handles readLatestSnapshot =>
    stateFor world handles readLatestSnapshot workflowRecordId = none
  | .external store =>
    world.listContext store caller workflowRecordId = [] ∧
      ∀ text, world.queryContext store caller workflowRecordId text = []

/-- The paths of a run's own rows are distinct: no work item of the pursuit imitates a file, or the
other module sees to it. -/
def Distinct : ContextStore H R E → Prop
  | .pursuit handles readLatestSnapshot =>
    ∀ state, stateFor world handles readLatestSnapshot workflowRecordId = some state →
      NoImitation state
  | .external store =>
    ((world.listContext store caller workflowRecordId).map rowPath).Nodup ∧
      ∀ text, ((world.queryContext store caller workflowRecordId text).map rowPath).Nodup

/-- What a pursuit's store takes for the state of a pursuit is one that some run has reached. -/
def Genuine (host : Host) : ContextStore H R E → Prop
  | .pursuit handles readLatestSnapshot =>
    ∀ state, stateFor world handles readLatestSnapshot workflowRecordId = some state →
      ∃ definition args toJsonObject ls s,
        Run (step (pursuitRequest host definition args toJsonObject)) Free initial ls s ∧
          s.state = some state
  | .external _ => True

end ContextStore

section Answers

variable {world : World H R E} {locale : Pursuit.Locale} {caller : AgenticWorkflowToolCaller}
  {workflowRecordId : String} {host : Host}

theorem lookup_map_snapshot (world : World H R E) (handles : List (String × H)) (id : String) :
    (handles.map fun entry => (entry.1, world.snapshot entry.2)).lookup id =
      (handles.lookup id).map world.snapshot := by
  induction handles with
  | nil => rfl
  | cons entry rest ih =>
    rw [List.map_cons, List.lookup_cons, List.lookup_cons]
    cases id == entry.1 with
    | true => rfl
    | false => exact ih

/-- There is a context just for a run that shows the state of a pursuit, and it is the one of that
state. -/
theorem contextFor_cases (world : World H R E) (handles : List (String × H))
    (readLatestSnapshot : Option R) (workflowRecordId : String) :
    (stateFor world handles readLatestSnapshot workflowRecordId = none ∧
      ContextStore.contextFor world handles readLatestSnapshot workflowRecordId = none) ∨
    ∃ state running, stateFor world handles readLatestSnapshot workflowRecordId = some state ∧
      ContextStore.contextFor world handles readLatestSnapshot workflowRecordId =
        some (buildPursuitContext state running) := by
  have hcontext : ContextStore.contextFor world handles readLatestSnapshot workflowRecordId =
      (snapshotFor world handles readLatestSnapshot workflowRecordId).bind fun snapshot =>
        (pursuitStateFromSnapshot snapshot.state).map fun state =>
          buildPursuitContext state (runningMetadata snapshot.runtime) := by
    unfold ContextStore.contextFor contextForWorkflowRun snapshotFor
    rw [lookup_map_snapshot]
    cases handles.lookup workflowRecordId with
    | some handle => rfl
    | none =>
      cases readLatestSnapshot with
      | none => rfl
      | some store => rfl
  rw [hcontext]
  unfold stateFor
  cases snapshotFor world handles readLatestSnapshot workflowRecordId with
  | none => exact .inl ⟨rfl, rfl⟩
  | some snapshot =>
    cases hstate : pursuitStateFromSnapshot snapshot.state with
    | none => exact .inl ⟨hstate, by simp [hstate]⟩
    | some state => exact .inr ⟨state, _, hstate, by simp [hstate]; rfl⟩

/-- A listing begins at the root of the tree. -/
theorem listContextRows_ne_nil (locale : Pursuit.Locale) (state : PursuitState)
    (running : RunningMetadata) :
    listContextRows locale (buildPursuitContext state running) ≠ [] := by
  intro h
  have hperm := listContextRows_perm locale (buildPursuitContext state running)
  rw [h, List.nil_perm, List.append_eq_nil_iff, List.map_eq_nil_iff] at hperm
  exact setEntries_ne_nil (List.cons_ne_nil _ _) hperm.1

/-- What a search finds has the paths of files, which are distinct in every tree. -/
theorem nodup_searchContextRows (locale : Pursuit.Locale) (state : PursuitState)
    (running : RunningMetadata) (text : String) :
    ((searchContextRows locale (buildPursuitContext state running) text).map rowPath).Nodup := by
  rw [map_rowPath_searchContextRows]
  have hkeys : ((buildPursuitContext state running).files.map (·.1)).Nodup :=
    nodup_keys_setEntries _
  have hpaths := hkeys.map
    (f := fun key => (buildPursuitContext state running).rootPath ++ "/" ++ key)
      fun _ _ => slash_append_inj
  rw [List.map_map] at hpaths
  exact hpaths.sublist (List.filter_sublist.map _)

/-- A store is silent just when it has no rows for the run. -/
theorem ContextStore.silent_iff (store : ContextStore H R E) (locale : Pursuit.Locale) :
    store.Silent world caller workflowRecordId ↔
      store.listContext world locale caller workflowRecordId = [] ∧
        ∀ text, store.queryContext world locale caller workflowRecordId text = [] := by
  cases store with
  | external store => rfl
  | pursuit handles readLatestSnapshot =>
    unfold Silent listContext queryContext
    rcases contextFor_cases world handles readLatestSnapshot workflowRecordId with
      ⟨hstate, hcontext⟩ | ⟨state, running, hstate, hcontext⟩
    · simp [hstate, hcontext]
    · simp [hstate, hcontext, listContextRows_ne_nil]

/-- The rows of a run have distinct paths just when its store keeps them distinct. -/
theorem ContextStore.distinct_iff (hhost : host.Uuids) {store : ContextStore H R E}
    (hgenuine : store.Genuine world workflowRecordId host) :
    store.Distinct world caller workflowRecordId ↔
      ((store.listContext world locale caller workflowRecordId).map rowPath).Nodup ∧
        ∀ text, ((store.queryContext world locale caller workflowRecordId text).map
          rowPath).Nodup := by
  cases store with
  | external store => rfl
  | pursuit handles readLatestSnapshot =>
    unfold Distinct listContext queryContext
    rcases contextFor_cases world handles readLatestSnapshot workflowRecordId with
      ⟨hstate, hcontext⟩ | ⟨state, running, hstate, hcontext⟩
    · simp [hstate, hcontext]
    · obtain ⟨definition, args, toJsonObject, ls, s, run, hs⟩ := hgenuine state hstate
      have haddressed := addressed_of_state hhost run hs
      simp only [hstate, hcontext, Option.some.injEq, forall_eq', haddressed.nodup_rows_iff]
      exact (and_iff_left fun text => nodup_searchContextRows locale state running text).symm

end Answers

end EphemeralAgent.AgenticWorkflows
