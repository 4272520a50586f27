import EphemeralAgent.AgenticWorkflows.ContextStores
import EphemeralAgent.AgenticWorkflows.ToolService

/-!
# Loading the modules of the workflows

`loadAgenticWorkflowModules` imports the module of every config and composes the context stores
that the modules come with.  A module that two configs name is imported twice, and a module that
makes its store on demand makes one for each of them.

* `loadAgenticWorkflowModules` — the loader, with its errors
* `pursuitExports`, `ralphLoopExports` — the modules of this repository
* `contextStores_of_load` — the stores that have been composed, config by config
* `composed_context_iff` — when the composed context of a run is its own, each row once
-/

namespace EphemeralAgent.AgenticWorkflows

open Lib Workflow Pursuit

/-! ## The loader -/

/-- `AgenticWorkflowConfig` with the module that it declares. -/
structure AgenticWorkflowModuleConfig extends AgenticWorkflowConfig where
  modulePath : Option String

/-- `AgenticWorkflowModule`, as far as the loader compares it. -/
structure AgenticWorkflowModule where
  type : String

structure LoadAgenticWorkflowModulesOptions (R : Type) where
  workflowRunStore : Option R

/-- A value that a module exports: what it is as a workflow module, and as a context store. -/
structure ExportedValue (H R E : Type) where
  asModule : Option AgenticWorkflowModule
  asContextStore : Option (ContextStore H R E)

/-- `ScriptModuleExports`; `exportedModule` is its `module`, and `values` are all its values. -/
structure ScriptModuleExports (H R E : Type) where
  default : Option (ExportedValue H R E)
  exportedModule : Option (ExportedValue H R E)
  agenticWorkflow : Option (ExportedValue H R E)
  values : List (ExportedValue H R E)
  contextStore : Option (ExportedValue H R E)
  createContextStore :
    Option (LoadAgenticWorkflowModulesOptions R → Except String (ExportedValue H R E))

/-- `resolve` against the working directory, and `import` of an absolute path. -/
structure ModuleSystem (H R E : Type) where
  resolve : String → String
  load : String → Except String (ScriptModuleExports H R E)

structure LoadedAgenticWorkflowModules (H R E : Type) where
  modules : List AgenticWorkflowModule
  contextStores : List (ContextStore H R E)

section Loader

variable {H R E : Type}

/-- `modulePath`. -/
def ModuleSystem.modulePath (system : ModuleSystem H R E) (path : String) : String :=
  if path.toList.head? = some '/' then path else system.resolve path

/-- `moduleFromExports`. -/
def moduleFromExports (exports : ScriptModuleExports H R E) (config : AgenticWorkflowModuleConfig) :
    Except String AgenticWorkflowModule :=
  let candidates := exports.default.toList ++ exports.exportedModule.toList ++
    exports.agenticWorkflow.toList ++ exports.values
  match candidates.findSome? (·.asModule) with
  | none =>
    .error s!"agentic workflow \"{config.name}\" module did not export a workflow module"
  | some loaded =>
    if loaded.type ≠ config.type then
      .error (s!"agentic workflow \"{config.name}\" expected module type \"{config.type}\"" ++
        s!" but loaded \"{loaded.type}\"")
    else .ok loaded

/-- `contextStoreFromExports`. -/
def contextStoreFromExports (exports : ScriptModuleExports H R E)
    (options : LoadAgenticWorkflowModulesOptions R) : Except String (Option (ContextStore H R E)) :=
  match exports.contextStore.bind (·.asContextStore) with
  | some store => .ok (some store)
  | none =>
    match exports.createContextStore with
    | none => .ok none
    | some create => do
      match (← create options).asContextStore with
      | some store => return some store
      | none =>
        throw "createContextStore() did not return an agentic workflow context store"

variable (system : ModuleSystem H R E) (options : LoadAgenticWorkflowModulesOptions R)

/-- What the loader makes of one config. -/
def loadAgenticWorkflowModule (config : AgenticWorkflowModuleConfig) :
    Except String (AgenticWorkflowModule × Option (ContextStore H R E)) := do
  match config.modulePath with
  | none => throw s!"agentic workflow \"{config.name}\" must declare a module"
  | some path =>
    let exports ← system.load (system.modulePath path)
    let loaded ← moduleFromExports exports config
    let contextStore ← contextStoreFromExports exports options
    return (loaded, contextStore)

/-- `loadAgenticWorkflowModules`. -/
def loadAgenticWorkflowModules (configs : List AgenticWorkflowModuleConfig) :
    Except String (LoadedAgenticWorkflowModules H R E) := do
  let loaded ← configs.mapM (loadAgenticWorkflowModule system options)
  return { modules := loaded.map (·.1), contextStores := loaded.filterMap (·.2) }

/-- The context store that comes with the module of a config, if one does. -/
def contextStoreOf (config : AgenticWorkflowModuleConfig) : Option (ContextStore H R E) :=
  match loadAgenticWorkflowModule system options config with
  | .ok (_, contextStore) => contextStore
  | .error _ => none

end Loader

/-! ## The modules of this repository -/

section Modules

variable {H R E : Type}

/-- `pursuit/workflow.mjs`; its other values are no workflow modules. -/
def pursuitExports : ScriptModuleExports H R E where
  default := some ⟨some ⟨"pursuit"⟩, none⟩
  exportedModule := none
  agenticWorkflow := none
  values := [⟨some ⟨"pursuit"⟩, none⟩, ⟨some ⟨"pursuit"⟩, none⟩]
  contextStore := none
  createContextStore := some fun options =>
    .ok ⟨none, some (createPursuitContextStore options.workflowRunStore)⟩

/-- `ralph_loop/workflow.mjs`, which has no store. -/
def ralphLoopExports : ScriptModuleExports H R E where
  default := some ⟨some ⟨"ralph_loop"⟩, none⟩
  exportedModule := none
  agenticWorkflow := none
  values := [⟨some ⟨"ralph_loop"⟩, none⟩, ⟨some ⟨"ralph_loop"⟩, none⟩]
  contextStore := none
  createContextStore := none

end Modules

/-! ## What has been composed -/

section Composed

variable {H R E : Type} {system : ModuleSystem H R E}
  {options : LoadAgenticWorkflowModulesOptions R}

/-- Loading goes through the configs in their order. -/
theorem filterMap_of_mapM {configs : List AgenticWorkflowModuleConfig}
    {loaded : List (AgenticWorkflowModule × Option (ContextStore H R E))}
    (h : configs.mapM (loadAgenticWorkflowModule system options) = .ok loaded) :
    loaded.filterMap (·.2) = configs.filterMap (contextStoreOf system options) := by
  induction configs generalizing loaded with
  | nil =>
    cases h
    rfl
  | cons config rest ih =>
    rw [List.mapM_cons] at h
    cases hconfig : loadAgenticWorkflowModule system options config with
    | error message =>
      rw [hconfig] at h
      cases h
    | ok one =>
      rw [hconfig] at h
      cases hrest : rest.mapM (loadAgenticWorkflowModule system options) with
      | error message =>
        rw [hrest] at h
        cases h
      | ok others =>
        rw [hrest] at h
        cases h
        have hstore : contextStoreOf system options config = one.2 := by
          unfold contextStoreOf
          rw [hconfig]
        rw [List.filterMap_cons, List.filterMap_cons, hstore, ih hrest]

/-- The composed stores are those of the configs. -/
theorem contextStores_of_load {configs : List AgenticWorkflowModuleConfig}
    {loaded : LoadedAgenticWorkflowModules H R E}
    (h : loadAgenticWorkflowModules system options configs = .ok loaded) :
    loaded.contextStores = configs.filterMap (contextStoreOf system options) := by
  unfold loadAgenticWorkflowModules at h
  cases hconfigs : configs.mapM (loadAgenticWorkflowModule system options) with
  | error message =>
    rw [hconfigs] at h
    cases h
  | ok all =>
    rw [hconfigs] at h
    cases h
    exact filterMap_of_mapM hconfigs

/-- The stores of the configs before one, its own and those of the configs after it. -/
theorem contextStores_split {before after : List AgenticWorkflowModuleConfig}
    {config : AgenticWorkflowModuleConfig} {loaded : LoadedAgenticWorkflowModules H R E}
    (h : loadAgenticWorkflowModules system options (before ++ config :: after) = .ok loaded) :
    loaded.contextStores = before.filterMap (contextStoreOf system options) ++
      (contextStoreOf system options config).toList ++
        after.filterMap (contextStoreOf system options) := by
  rw [contextStores_of_load h, List.filterMap_append, List.append_assoc]
  cases hown : contextStoreOf system options config with
  | none => rw [List.filterMap_cons_none hown, Option.toList_none, List.nil_append]
  | some store => rw [List.filterMap_cons_some hown, Option.toList_some, List.singleton_append]

end Composed

/-! ## Every row once -/

/-- The composed stores answer for a run what its own store answers, with every path once. -/
structure ComposedOnce {H R E : Type} (world : World H R E) (locale : Pursuit.Locale)
    (caller : AgenticWorkflowToolCaller) (workflowRecordId : String)
    (stores own : List (ContextStore H R E)) : Prop where
  listing : OnceEach (listContext world locale caller workflowRecordId stores)
    (listContext world locale caller workflowRecordId own)
  query : ∀ text, OnceEach (queryContext world locale caller workflowRecordId text stores)
    (queryContext world locale caller workflowRecordId text own)

section Once

variable {H R E : Type} {world : World H R E} {locale : Pursuit.Locale}
  {caller : AgenticWorkflowToolCaller} {workflowRecordId : String} {host : Host}

/-- Among any stores, a run has its own rows once each when its store keeps their paths distinct
and every other store is silent. -/
theorem composedOnce_iff (hhost : host.Uuids) (before after : List (ContextStore H R E))
    (own : Option (ContextStore H R E))
    (hgenuine : ∀ store ∈ own, store.Genuine world workflowRecordId host) :
    ComposedOnce world locale caller workflowRecordId (before ++ own.toList ++ after) own.toList ↔
      (∀ store ∈ own, store.Distinct world caller workflowRecordId) ∧
        ∀ other ∈ before ++ after, other.Silent world caller workflowRecordId := by
  have hlisting := once_iff (·.listContext world locale caller workflowRecordId)
    before own.toList after
  have hquery := fun text => once_iff (·.queryContext world locale caller workflowRecordId text)
    before own.toList after
  rw [← listContext_eq, ← listContext_eq] at hlisting
  simp only [← queryContext_eq] at hquery
  have hown : (∀ store ∈ own, store.Distinct world caller workflowRecordId) ↔
      ((listContext world locale caller workflowRecordId own.toList).map rowPath).Nodup ∧
        ∀ text, ((queryContext world locale caller workflowRecordId text own.toList).map
          rowPath).Nodup := by
    simp only [listContext_eq, queryContext_eq]
    cases own with
    | none => simp
    | some store =>
      simpa using ContextStore.distinct_iff hhost (hgenuine store rfl)
  constructor
  · intro h
    refine ⟨hown.mpr ⟨(hlisting.mp h.listing).1, fun text => ((hquery text).mp (h.query text)).1⟩,
      fun other hother => (other.silent_iff locale).mpr ⟨?_, fun text => ?_⟩⟩
    · exact (hlisting.mp h.listing).2 other hother
    · exact ((hquery text).mp (h.query text)).2 other hother
  · rintro ⟨hdistinct, hsilent⟩
    obtain ⟨hpaths, hfound⟩ := hown.mp hdistinct
    refine ⟨hlisting.mpr ⟨hpaths, fun other hother => ?_⟩,
      fun text => (hquery text).mpr ⟨hfound text, fun other hother => ?_⟩⟩
    · exact ((other.silent_iff locale).mp (hsilent other hother)).1
    · exact ((other.silent_iff locale).mp (hsilent other hother)).2 text

end Once

/-- **The composed context of a run is its own, each row once, exactly when no other store that has
been loaded takes the run for one of its own and the paths of its own rows are distinct.** -/
theorem composed_context_iff {H R E : Type} (host : Host) (hhost : host.Uuids)
    (locale : Pursuit.Locale) (system : ModuleSystem H R E) (options : LoadAgenticWorkflowModulesOptions R)
    (before after : List AgenticWorkflowModuleConfig) (config : AgenticWorkflowModuleConfig)
    {loaded : LoadedAgenticWorkflowModules H R E}
    (hload : loadAgenticWorkflowModules system options (before ++ config :: after) = .ok loaded)
    (inputs : List (InitialContext H)) (world : World H R E) (caller : AgenticWorkflowToolCaller)
    (workflowRecordId : String)
    (hgenuine : ∀ store ∈ contextStoreOf system options config,
      (store.projected inputs).Genuine world workflowRecordId host) :
    ComposedOnce world locale caller workflowRecordId
        (inputs.foldl projectInitialContext loaded.contextStores)
        (inputs.foldl projectInitialContext (contextStoreOf system options config).toList) ↔
      (∀ store ∈ contextStoreOf system options config,
        (store.projected inputs).Distinct world caller workflowRecordId) ∧
      ∀ other ∈ (before ++ after).filterMap (contextStoreOf system options),
        (other.projected inputs).Silent world caller workflowRecordId := by
  rw [foldl_projectInitialContext, foldl_projectInitialContext, contextStores_split hload,
    List.map_append, List.map_append, ← Option.toList_map]
  rw [composedOnce_iff hhost _ _ ((contextStoreOf system options config).map (·.projected inputs))
    (by simpa using hgenuine), ← List.map_append, ← List.filterMap_append, List.forall_mem_map]
  simp only [Option.mem_map, forall_exists_index, and_imp, forall_apply_eq_imp_iff₂]

/-! ## Two configs -/

/-- The modules of this repository under their paths. -/
def repositoryModules : ModuleSystem WorkflowRunSnapshot Empty Empty where
  resolve path := path
  load path :=
    if path = "/pursuit/workflow.mjs" then .ok pursuitExports
    else if path = "/ralph_loop/workflow.mjs" then .ok ralphLoopExports
    else .error "Cannot find module"

/-- A config of a type whose module has the name of the type. -/
def configOf (name type : String) : AgenticWorkflowModuleConfig :=
  { name, type, description := "", docs := "", participants := []
    modulePath := some ("/" ++ type ++ "/workflow.mjs") }

/-- Handles are what they show, and nothing has been stored. -/
def shownWorld : World WorkflowRunSnapshot Empty Empty where
  snapshot handle := handle
  readLatestSnapshot store := nomatch store
  listContext store := nomatch store
  queryContext store := nomatch store

/-- One run of a pursuit, shown in some state. -/
def startedRun (state : PursuitState) : InitialContext WorkflowRunSnapshot where
  workflowRunId := "run"
  workflowName := "ship"
  args := [("pursuit_goal", .str "ship")]
  handle := ⟨.pursuit state, ⟨[], [], []⟩⟩

/-- A pursuit and a ralph loop have been loaded, and the pursuit has two items. -/
theorem composed_context_one :
    ∃ loaded s state, loadAgenticWorkflowModules repositoryModules ⟨none⟩
        [configOf "ship" "pursuit", configOf "loop" "ralph_loop"] = .ok loaded ∧
      Run (step boundRequest) Free initial
        [.start, .launchResolved .start, .resume .start, .submit 0 twoItems, .dequeue] s ∧
      s.state = some state ∧ (state.ext.legs.flatMap (·.workItems)).length = 2 ∧
      ComposedOnce shownWorld ⟨compare, fun _ c _ => [c.toLower]⟩ ⟨"operator", none⟩ "run"
        ([startedRun state].foldl projectInitialContext loaded.contextStores)
        ([startedRun state].foldl projectInitialContext
          (contextStoreOf repositoryModules ⟨none⟩ (configOf "ship" "pursuit")).toList) := by
  obtain ⟨s, hs, hp⟩ := exists_run (step boundRequest) Free initial
    [.start, .launchResolved .start, .resume .start, .submit 0 twoItems, .dequeue]
    (fun s => s.state.any fun state => !imitates state &&
      (state.ext.legs.flatMap (·.workItems)).length == 2) (by decide +kernel)
  obtain ⟨state, hstate, htests⟩ := (Option.any_eq_true _ _).mp hp
  obtain ⟨hnone, htwo⟩ := Bool.and_eq_true_iff.mp htests
  have hload : loadAgenticWorkflowModules repositoryModules ⟨none⟩
      [configOf "ship" "pursuit", configOf "loop" "ralph_loop"] =
        .ok ⟨[⟨"pursuit"⟩, ⟨"ralph_loop"⟩], [createPursuitContextStore none]⟩ := rfl
  refine ⟨_, s, state, hload, hs, hstate, beq_iff_eq.mp htwo, ?_⟩
  refine (composed_context_iff spellingHost spellingHost_uuids _ repositoryModules ⟨none⟩ []
    [configOf "loop" "ralph_loop"] (configOf "ship" "pursuit") hload [startedRun state] shownWorld
    ⟨"operator", none⟩ "run" ?_).mpr ⟨fun store hstore => ?_, fun other hother => ?_⟩
  · intro store hstore
    cases hstore
    intro shown hshown
    cases hshown
    exact ⟨_, _, _, _, _, hs, hstate⟩
  · cases hstore
    intro shown hshown
    cases hshown
    exact noImitation_iff.mpr (by simpa using hnone)
  · cases hother

/-- Two configs of the pursuit have been loaded, and both answer for the run of one of them. -/
theorem two_pursuits_answer :
    ∃ loaded s state, loadAgenticWorkflowModules repositoryModules ⟨none⟩
        [configOf "ship" "pursuit", configOf "explore" "pursuit"] = .ok loaded ∧
      Run (step boundRequest) Free initial [.start, .launchResolved .start] s ∧
      s.state = some state ∧
      ∀ locale caller, ¬ ComposedOnce shownWorld locale caller "run"
        ([startedRun state].foldl projectInitialContext loaded.contextStores)
        ([startedRun state].foldl projectInitialContext
          (contextStoreOf repositoryModules ⟨none⟩ (configOf "ship" "pursuit")).toList) := by
  obtain ⟨s, hs, hp⟩ := exists_run (step boundRequest) Free initial
    [.start, .launchResolved .start] (fun s => s.state.isSome) (by decide +kernel)
  obtain ⟨state, hstate⟩ := Option.isSome_iff_exists.mp hp
  refine ⟨⟨[⟨"pursuit"⟩, ⟨"pursuit"⟩], [createPursuitContextStore none,
    createPursuitContextStore none]⟩, s, state, rfl, hs, hstate, fun locale caller honce => ?_⟩
  let store : ContextStore WorkflowRunSnapshot Empty Empty :=
    .pursuit [("run", (startedRun state).handle)] none
  have hgenuine : ∀ own ∈ some store, own.Genuine shownWorld "run" spellingHost := by
    intro own hown
    cases hown
    intro shown hshown
    cases hshown
    exact ⟨_, _, _, _, _, hs, hstate⟩
  have hsilent := ((composedOnce_iff spellingHost_uuids [] [store] (some store) hgenuine).mp
    honce).2 store (List.mem_singleton_self _)
  exact Option.some_ne_none state hsilent

end EphemeralAgent.AgenticWorkflows
