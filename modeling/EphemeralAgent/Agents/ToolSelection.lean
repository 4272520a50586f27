import EphemeralAgent.AgenticWorkflows.ToolService
import EphemeralAgent.Agents.PassMatching
import EphemeralAgent.Runtime.System

/-!
# The tools of a run

`src/agents/agent-factory.ts` of agent-engine chooses the tools of an agent by its profile;
`createAgent` of agent-core checks their names, and `buildToolExecutor` puts them into a registry.

* `createBoundAgent`, `buildAgentSpec` — the choice
* `validateToolNames`, `buildToolExecutor` — the check and the registry
* `Assembled` — what is known of the tools of a run
* `assembled_tools` — **every tool that was chosen is there once, under its own name**
-/

namespace EphemeralAgent.Agents

open AgenticWorkflows Tool EphemeralAgent.Runtime

/-! ## Tools -/

/-- The tools of `toolsForAgent`. -/
inductive WorkflowTool where
  | delegateWorkflow
  | listWorkflowDescription
  | readWorkflowDocs
  | listWorkflowContext
  | queryWorkflowContext
  deriving DecidableEq, Repr

def WorkflowTool.name : WorkflowTool → String
  | .delegateWorkflow => "delegate_workflow"
  | .listWorkflowDescription => "list_workflow_description"
  | .readWorkflowDocs => "read_workflow_docs"
  | .listWorkflowContext => "list_workflow_context"
  | .queryWorkflowContext => "query_workflow_context"

/-- `ToolDefinition`, by where it comes from; `X` is what a product brings. -/
inductive EngineTool (X : Type) where
  | listBackgroundTasks
  | cancelBackgroundTask
  | readAgentRun
  | extra (name : String) (tool : X)
  | runSubagent (subagents : List String)
  | workflow (tool : WorkflowTool) (visibleWorkflows : List String)
  | askAdvisor (advisoryPrompt : String)
  deriving DecidableEq, Repr

def EngineTool.name {X : Type} : EngineTool X → String
  | .listBackgroundTasks => "list_background_tasks"
  | .cancelBackgroundTask => "cancel_background_task"
  | .readAgentRun => "read_agent_run"
  | .extra name _ => name
  | .runSubagent _ => "run_subagent"
  | .workflow tool _ => tool.name
  | .askAdvisor _ => "ask_advisor"

/-- `toolsForAgent`. -/
def toolsForAgent {X : Type} (visibleWorkflows : List String) : List (EngineTool X) :=
  [.workflow .delegateWorkflow visibleWorkflows, .workflow .listWorkflowDescription visibleWorkflows,
    .workflow .readWorkflowDocs visibleWorkflows, .workflow .listWorkflowContext visibleWorkflows,
    .workflow .queryWorkflowContext visibleWorkflows]

def factoryInjectedToolNames : List String :=
  ["ask_advisor", "run_subagent", "delegate_workflow", "list_workflow_description",
    "read_workflow_docs", "list_workflow_context", "query_workflow_context"]

/-! ## What an agent is created from -/

/-- `AgentProfile`, as the factory reads it. -/
structure AgentProfile where
  name : String
  llmClientId : String
  maxTurns : Option Nat
  allowedTools : List String
  agenticWorkflows : List String
  subagents : List String
  systemPrompt : String
  deriving DecidableEq, Repr

/-- The binding of an outcome function, with the name of its tool. -/
inductive OutcomeBinding where
  | plain (toolName : String)
  | withAdvisory (toolName advisoryPrompt : String)
  deriving DecidableEq, Repr

structure DynamicAgentTools where
  agenticWorkflows : Option (List String)
  subagents : Option (List String)
  /-- `advisor?.prompt` -/
  advisorPrompt : Option String
  deriving DecidableEq, Repr

/-- `CreateAgentInput`; without dynamic tools all of their fields are `undefined`. -/
structure CreateAgentInput where
  agentName : String
  outcome : Option OutcomeBinding
  dynamicTools : DynamicAgentTools
  deriving DecidableEq, Repr

/-- What the factory and the runtime are built with. -/
structure AgentFactoryBuildOptions (X : Type) where
  profiles : List AgentProfile
  agenticWorkflowToolService : Option AgenticWorkflowFactory
  /-- `agentHooks.advisorApproval !== undefined` -/
  advisorApproval : Bool
  /-- What `extraTools` gives for the run. -/
  extraTools : List (String × X)
  /-- The names of the llm clients. -/
  llmClients : List String

/-- A hook that the factory installs. -/
inductive EngineHook where
  | requireNoBackgroundTasks (toolName : String)
  | advisorApproval (toolName : String)
  deriving DecidableEq, Repr

structure AgentSpec (X : Type) where
  name : String
  llm : String
  systemPrompt : String
  tools : List (EngineTool X)
  /-- The name of the tool of `agentOutcomeFn`. -/
  terminal : Option String
  maxTurns : Option Nat
  hooks : List EngineHook

/-! ## The choice -/

section Choice

variable {X : Type}

/-- `known` of the two registries: no names are shown as `none`. -/
def configured (names : List String) : String :=
  let known := ", ".intercalate names
  if known = "" then "none" else known

/-- `profiles.require`. -/
def requireProfile (profiles : List AgentProfile) (name : String) : Except String AgentProfile :=
  match profiles.find? (·.name == name) with
  | some profile => .ok profile
  | none =>
    .error (s!"unknown agent profile \"{name}\" (configured: " ++
      configured (profiles.map (·.name)) ++ ")")

/-- `assertUnique`, behind these names. -/
def assertUnique (kind : String) (seen : List String) : List String → Except String Unit
  | [] => .ok ()
  | name :: rest =>
    if name ∈ seen then .error s!"duplicate {kind} \"{name}\""
    else assertUnique kind (name :: seen) rest

/-- The first loop over `allowed_tools`, behind these names. -/
def validateToolSelection (profile : AgentProfile) (seen : List String) :
    List String → Except String Unit
  | [] => .ok ()
  | name :: rest =>
    if name ∈ factoryInjectedToolNames then
      .error (s!"profile \"{profile.name}\" lists factory-injected tool \"{name}\" in " ++
        "allowed_tools")
    else if name ∈ seen then
      .error s!"profile \"{profile.name}\" lists duplicate tool \"{name}\""
    else validateToolSelection profile (name :: seen) rest

/-- `available`: a later tool takes the place of an earlier one of its name. -/
def availableTools (extraTools : List (String × X)) : List (EngineTool X) :=
  [.listBackgroundTasks, .cancelBackgroundTask, .readAgentRun] ++
    extraTools.map fun tool => .extra tool.1 tool.2

/-- The loop of `selectOrdinaryTools`, behind these names. -/
def selectAllowed (profile : AgentProfile) (available : List (EngineTool X)) (seen : List String) :
    List String → Except String (List (EngineTool X))
  | [] => .ok []
  | name :: rest =>
    if name ∈ factoryInjectedToolNames then
      .error (s!"profile \"{profile.name}\" lists factory-injected tool \"{name}\" in " ++
        "allowed_tools")
    else if name ∈ seen then
      .error s!"profile \"{profile.name}\" lists duplicate tool \"{name}\""
    else
      match available.reverse.find? (·.name == name) with
      | none => .error s!"profile \"{profile.name}\" lists unknown tool \"{name}\""
      | some tool => (selectAllowed profile available (name :: seen) rest).map (tool :: ·)

/-- `run_subagent` comes with the subagents. -/
def subagentTools (subagents : List String) : List (EngineTool X) :=
  if subagents = [] then [] else [.runSubagent subagents]

def selectOrdinaryTools (profile : AgentProfile) (subagents : List String)
    (extraTools : List (String × X)) : Except String (List (EngineTool X)) :=
  (selectAllowed profile (availableTools extraTools) [] profile.allowedTools).map
    (· ++ subagentTools subagents)

structure ResolvedDynamicTools where
  agenticWorkflows : List String
  subagents : List String

/-- `canStartWorkflow` of the tool service. -/
def canStartWorkflow (service : AgenticWorkflowFactory) (name : String) : Bool :=
  match service.getWorkflow name with
  | .ok _ => true
  | .error _ => false

/-- The loop over the dynamic workflows. -/
def requireRegistered (service : Option AgenticWorkflowFactory) : List String → Except String Unit
  | [] => .ok ()
  | workflow :: rest =>
    if service.any (canStartWorkflow · workflow) then requireRegistered service rest
    else .error s!"dynamic agentic workflow \"{workflow}\" is not registered"

/-- The loop over the subagents. -/
def requireSubagents (profiles : List AgentProfile) : List String → Except String Unit
  | [] => .ok ()
  | subagent :: rest => do
    let _ ← requireProfile profiles subagent
    requireSubagents profiles rest

/-- The checks of workflows that are not the profile's. -/
def checkDynamicWorkflows (service : Option AgenticWorkflowFactory)
    (agenticWorkflows : Option (List String)) : Except String Unit :=
  match agenticWorkflows with
  | none => .ok ()
  | some agenticWorkflows =>
    if service.isNone ∧ agenticWorkflows ≠ [] then
      .error "dynamic agentic workflow tools require AgenticWorkflowToolService"
    else requireRegistered service agenticWorkflows

def resolveDynamicTools (options : AgentFactoryBuildOptions X) (profile : AgentProfile)
    (dynamicTools : DynamicAgentTools) : Except String ResolvedDynamicTools := do
  let agenticWorkflows := dynamicTools.agenticWorkflows.getD profile.agenticWorkflows
  let subagents := dynamicTools.subagents.getD profile.subagents
  assertUnique "agentic workflow" [] agenticWorkflows
  assertUnique "subagent" [] subagents
  checkDynamicWorkflows options.agenticWorkflowToolService dynamicTools.agenticWorkflows
  requireSubagents options.profiles subagents
  pure { agenticWorkflows, subagents }

def bindDynamicAdvisor (outcome : Option OutcomeBinding) (dynamicTools : DynamicAgentTools) :
    Except String (Option OutcomeBinding) :=
  match dynamicTools.advisorPrompt, outcome with
  | none, outcome => .ok outcome
  | some _, none => .error "dynamic advisor tool requires an outcome binding"
  | some _, some (.withAdvisory _ _) =>
    .error "dynamic advisor tool cannot wrap an advisory outcome binding"
  | some prompt, some (.plain toolName) => .ok (some (.withAdvisory toolName prompt))

/-- The workflow tools, and the system prompt with their section. -/
def workflowSection (options : AgentFactoryBuildOptions X) (profile : AgentProfile)
    (agenticWorkflows : List String) : Except String (List (EngineTool X) × String) :=
  if agenticWorkflows = [] then .ok ([], profile.systemPrompt)
  else
    match options.agenticWorkflowToolService with
    | none => .error "agentic workflow tools require AgenticWorkflowToolService"
    | some service =>
      (renderAgenticWorkflowPrompt service agenticWorkflows).map fun prompt =>
        (toolsForAgent agenticWorkflows, prompt ++ "\n\n" ++ profile.systemPrompt)

/-- What an outcome binding brings. -/
structure BoundOutcome (X : Type) where
  tools : List (EngineTool X)
  terminal : Option String
  hooks : List EngineHook

def bindOutcome (options : AgentFactoryBuildOptions X) :
    Option OutcomeBinding → Except String (BoundOutcome X)
  | none => .ok { tools := [], terminal := none, hooks := [] }
  | some (.plain toolName) =>
    .ok { tools := [], terminal := some toolName, hooks := [.requireNoBackgroundTasks toolName] }
  | some (.withAdvisory toolName prompt) =>
    if options.advisorApproval then
      .ok { tools := [.askAdvisor prompt], terminal := some toolName
            hooks := [.requireNoBackgroundTasks toolName, .advisorApproval toolName] }
    else .error "advisory binding requires advisor_approval in hooks.json"

def buildAgentSpec (options : AgentFactoryBuildOptions X) (profile : AgentProfile)
    (outcome : Option OutcomeBinding) (dynamicTools : ResolvedDynamicTools) :
    Except String (AgentSpec X) := do
  let ordinary ← selectOrdinaryTools profile dynamicTools.subagents options.extraTools
  let workflows ← workflowSection options profile dynamicTools.agenticWorkflows
  let bound ← bindOutcome options outcome
  pure
    { name := profile.name
      llm := profile.llmClientId
      systemPrompt := workflows.2
      tools := ordinary ++ workflows.1 ++ bound.tools
      terminal := bound.terminal
      maxTurns := profile.maxTurns
      hooks := bound.hooks }

/-- `createBoundAgent`, and the assembly of `start`. -/
def createBoundAgent (options : AgentFactoryBuildOptions X) (name : String)
    (outcome : Option OutcomeBinding) (dynamicTools : DynamicAgentTools) :
    Except String (AgentSpec X) := do
  let profile ← requireProfile options.profiles name
  let resolved ← resolveDynamicTools options profile dynamicTools
  validateToolSelection profile [] profile.allowedTools
  buildAgentSpec options profile outcome resolved

end Choice

/-! ## The registry -/

section Registry

variable {X : Type}

/-- `Set.add`. -/
def addName (names : List String) (name : String) : List String :=
  if name ∈ names then names else names ++ [name]

/-- One turn of the loop of `validateToolNames`, over `seen` and `duplicated`. -/
def noteName (noted : List String × List String) (name : String) : List String × List String :=
  (addName noted.1 name, if name ∈ noted.1 then addName noted.2 name else noted.2)

/-- `a <= b` on names, by code units. -/
def nameLe (a b : String) : Prop :=
  List.le (codeUnits a) (codeUnits b)

instance : DecidableRel nameLe := fun a b =>
  inferInstanceAs (Decidable (List.le (codeUnits a) (codeUnits b)))

def validateToolNames (names : List String) (terminalName : Option String) : Except String Unit :=
  let noted := names.foldl noteName ([], [])
  let duplicated :=
    match terminalName with
    | some terminalName =>
      if terminalName ∈ noted.1 then addName noted.2 terminalName else noted.2
    | none => noted.2
  if duplicated = [] then .ok ()
  else .error ("duplicate tool name(s): " ++ ", ".intercalate (duplicated.insertionSort nameLe))

/-- `BoundTool`: a tool of the spec, or the tool that submits an outcome. -/
inductive BoundTool (X : Type) where
  | ordinary (tool : EngineTool X)
  | terminal (name : String)
  deriving DecidableEq, Repr

def BoundTool.name : BoundTool X → String
  | .ordinary tool => tool.name
  | .terminal name => name

def toolLe (a b : BoundTool X) : Prop :=
  nameLe a.name b.name

instance : DecidableRel (toolLe (X := X)) := fun a b =>
  inferInstanceAs (Decidable (nameLe a.name b.name))

/-- `sortByName`; its comparison never calls two tools equal, and their names are distinct. -/
def sortByName (tools : List (BoundTool X)) : List (BoundTool X) :=
  tools.insertionSort toolLe

structure ToolExecutor (X : Type) where
  tools : List (BoundTool X)
  terminalName : Option String

def buildToolExecutor (tools : List (EngineTool X)) (outcome : Option String) : ToolExecutor X :=
  { tools := sortByName (tools.map .ordinary ++ (outcome.map .terminal).toList)
    terminalName := outcome }

/-- `byName.get`: the last tool of a name. -/
def ToolExecutor.byName (executor : ToolExecutor X) (name : String) : Option (BoundTool X) :=
  executor.tools.reverse.find? (·.name == name)

/-- `llmClients.require`. -/
def requireLlm (llmClients : List String) (ref : String) : Except String Unit :=
  if ref ∈ llmClients then .ok ()
  else .error (s!"unknown llm ref \"{ref}\" (configured: " ++ configured llmClients ++ ")")

/-- `createAgent` of the runtime, and the registry of `startRun`. -/
def createAgent (options : AgentFactoryBuildOptions X) (spec : AgentSpec X) :
    Except String (ToolExecutor X) := do
  requireLlm options.llmClients spec.llm
  validateToolNames (spec.tools.map (·.name)) spec.terminal
  pure (buildToolExecutor spec.tools spec.terminal)

/-- `factory.createAgent(input)`, with what its `start` assembles. -/
def assemble (options : AgentFactoryBuildOptions X) (input : CreateAgentInput) :
    Except String (AgentSpec X × ToolExecutor X) := do
  let outcome ← bindDynamicAdvisor input.outcome input.dynamicTools
  let spec ← createBoundAgent options input.agentName outcome input.dynamicTools
  let executor ← createAgent options spec
  pure (spec, executor)

def DEFAULT_MAX_TURNS : Nat := 32

/-- The run of a spec. -/
def AgentSpec.runSpec (spec : AgentSpec X) (parse : ToolUseBlock → ParseOutcome)
    (completionTimeoutMs : Nat) (stringify : Json → String) : RunSpec :=
  { tools := spec.tools.map (·.name)
    terminal := spec.terminal
    parse
    maxTurns := spec.maxTurns.getD DEFAULT_MAX_TURNS
    completionTimeoutMs
    stringify }

end Registry

/-! ## The names -/

section Names

theorem ok_of_bind {A B : Type} {x : Except String A} {f : A → Except String B} {b : B}
    (h : x >>= f = .ok b) : ∃ a, x = .ok a ∧ f a = .ok b := by
  cases x with
  | error message => cases h
  | ok a => exact ⟨a, rfl, h⟩

theorem ok_of_map {A B : Type} {x : Except String A} {f : A → B} {b : B} (h : x.map f = .ok b) :
    ∃ a, x = .ok a ∧ f a = b := by
  cases x with
  | error message => cases h
  | ok a =>
    cases h
    exact ⟨a, rfl, rfl⟩

/-- What is found by its name is there, under that name. -/
theorem of_find_name {A : Type} {nameOf : A → String} {items : List A} {name : String} {item : A}
    (h : items.find? (nameOf · == name) = some item) : item ∈ items ∧ nameOf item = name := by
  have hname := List.find?_some h
  exact ⟨List.mem_of_find?_eq_some h, beq_iff_eq.mp hname⟩

theorem mem_addName {names : List String} {name other : String} :
    other ∈ addName names name ↔ other ∈ names ∨ other = name := by
  unfold addName
  split
  · next hname =>
    refine ⟨Or.inl, fun h => ?_⟩
    rcases h with h | rfl
    · exact h
    · exact hname
  · simp

theorem addName_ne_nil (names : List String) (name : String) : addName names name ≠ [] :=
  List.ne_nil_of_mem (mem_addName.mpr (Or.inr rfl))

/-- **The loop of `validateToolNames`** has seen the names, and nothing twice. -/
theorem foldl_noteName (names : List String) : ∀ noted : List String × List String,
    (∀ name, name ∈ (names.foldl noteName noted).1 ↔ name ∈ noted.1 ∨ name ∈ names) ∧
      ((names.foldl noteName noted).2 = [] ↔
        noted.2 = [] ∧ names.Nodup ∧ ∀ name ∈ names, name ∉ noted.1) := by
  induction names with
  | nil => simp
  | cons first rest ih =>
    intro noted
    obtain ⟨hseen, hduplicated⟩ := ih (noteName noted first)
    rw [List.foldl_cons]
    constructor
    · intro name
      rw [hseen, noteName, mem_addName, List.mem_cons]
      tauto
    · rw [hduplicated, noteName]
      by_cases hfirst : first ∈ noted.1
      · rw [if_pos hfirst]
        refine iff_of_false (fun h => addName_ne_nil _ _ h.1) fun h => ?_
        exact h.2.2 first List.mem_cons_self hfirst
      · simp only [if_neg hfirst, mem_addName, not_or, List.nodup_cons, List.mem_cons,
          forall_eq_or_imp]
        constructor
        · rintro ⟨hnone, hnodup, hnew⟩
          exact ⟨hnone, ⟨fun hmem => (hnew first hmem).2 rfl, hnodup⟩, hfirst,
            fun name hname => (hnew name hname).1⟩
        · rintro ⟨hnone, ⟨hnotin, hnodup⟩, -, hnew⟩
          refine ⟨hnone, hnodup, fun name hname => ⟨hnew name hname, ?_⟩⟩
          rintro rfl
          exact hnotin hname

/-- **A collision is a fault**, and nothing else is. -/
theorem validateToolNames_ok_iff (names : List String) (terminalName : Option String) :
    validateToolNames names terminalName = .ok () ↔ (names ++ terminalName.toList).Nodup := by
  obtain ⟨hseen, hduplicated⟩ := foldl_noteName names ([], [])
  have hplain : (names.foldl noteName ([], [])).2 = [] ↔ names.Nodup := by
    rw [hduplicated]
    simp
  unfold validateToolNames
  cases terminalName with
  | none =>
    dsimp only
    rw [Option.toList_none, List.append_nil, ← hplain]
    split <;> simp_all
  | some terminalName =>
    dsimp only
    have hmem : terminalName ∈ (names.foldl noteName ([], [])).1 ↔ terminalName ∈ names := by
      rw [hseen]
      simp
    have hnodup : (names ++ [terminalName]).Nodup ↔ names.Nodup ∧ terminalName ∉ names := by
      rw [List.nodup_append]
      simp only [List.nodup_cons, List.not_mem_nil, not_false_eq_true, List.nodup_nil, and_self,
        List.mem_singleton, forall_eq, true_and]
      refine and_congr_right fun _ => ⟨fun h hname => h terminalName hname rfl, ?_⟩
      rintro h name hname rfl
      exact h hname
    rw [Option.toList_some, hnodup]
    by_cases hterminal : terminalName ∈ names
    · rw [if_pos (hmem.mpr hterminal), if_neg (addName_ne_nil _ _)]
      exact iff_of_false (fun h => by cases h) fun h => h.2 hterminal
    · rw [if_neg fun h => hterminal (hmem.mp h), ← hplain]
      split <;> simp_all

end Names

/-! ## The registry finds what it holds -/

section Find

variable {X : Type}

instance : Std.Total (toolLe (X := X)) :=
  ⟨fun a b => List.le_total (codeUnits a.name) (codeUnits b.name)⟩

instance : IsTrans (BoundTool X) toolLe :=
  ⟨fun _ _ _ hab hbc => List.le_trans hab hbc⟩

theorem toolLe_antisymm {a b : BoundTool X} (hab : toolLe a b) (hba : toolLe b a) :
    a.name = b.name :=
  codeUnits_injective (List.le_antisymm hab hba)

/-- Tools with distinct names have one order. -/
theorem sortByName_eq_of_perm {tools others : List (BoundTool X)}
    (hnodup : (tools.map (·.name)).Nodup) (hperm : tools.Perm others) :
    sortByName tools = sortByName others := by
  have hsorted : (sortByName tools).Perm (sortByName others) :=
    (List.perm_insertionSort toolLe tools).trans
      (hperm.trans (List.perm_insertionSort toolLe others).symm)
  refine List.Perm.eq_of_pairwise ?_ (List.pairwise_insertionSort toolLe tools)
    (List.pairwise_insertionSort toolLe others) hsorted
  intro a b ha hb hab hba
  have hmem : a ∈ tools := (List.mem_insertionSort toolLe).mp ha
  have hmem' : b ∈ tools := hperm.symm.subset ((List.mem_insertionSort toolLe).mp hb)
  exact List.inj_on_of_nodup_map hnodup hmem hmem' (toolLe_antisymm hab hba)

theorem boundTools_names (tools : List (EngineTool X)) (terminal : Option String) :
    (tools.map BoundTool.ordinary ++ (terminal.map BoundTool.terminal).toList).map
        BoundTool.name =
      tools.map (·.name) ++ terminal.toList := by
  rw [List.map_append, List.map_map]
  cases terminal <;> rfl

/-- With distinct names, the last tool of a name is the tool of that name. -/
theorem byName_iff {executor : ToolExecutor X} (hnodup : (executor.tools.map (·.name)).Nodup)
    (name : String) (tool : BoundTool X) :
    executor.byName name = some tool ↔ tool ∈ executor.tools ∧ tool.name = name := by
  unfold ToolExecutor.byName
  constructor
  · intro h
    obtain ⟨hmem, hname⟩ := of_find_name h
    exact ⟨List.mem_reverse.mp hmem, hname⟩
  · rintro ⟨hmem, hname⟩
    cases hfound : executor.tools.reverse.find? (·.name == name) with
    | none =>
      have hmiss := List.find?_eq_none.mp hfound tool (List.mem_reverse.mpr hmem)
      exact absurd (beq_iff_eq.mpr hname) hmiss
    | some found =>
      obtain ⟨hmem', hname'⟩ := of_find_name hfound
      rw [List.inj_on_of_nodup_map hnodup (List.mem_reverse.mp hmem') hmem
        (hname'.trans hname.symm)]

end Find

/-! ## What is chosen -/

section Chosen

variable {X : Type} {options : AgentFactoryBuildOptions X} {profile : AgentProfile}

/-- **The loop over `allowed_tools`** finds each tool, and none that the factory injects. -/
theorem selectAllowed_ok {available : List (EngineTool X)} (names : List String) :
    ∀ {seen : List String} {tools : List (EngineTool X)},
      selectAllowed profile available seen names = .ok tools →
        tools.map (·.name) = names ∧ (∀ name ∈ names, name ∉ factoryInjectedToolNames) ∧
          ∀ tool ∈ tools, tool ∈ available := by
  induction names with
  | nil =>
    intro seen tools h
    cases h
    exact ⟨rfl, fun _ hname => absurd hname List.not_mem_nil,
      fun _ htool => absurd htool List.not_mem_nil⟩
  | cons first rest ih =>
    intro seen tools h
    rw [selectAllowed] at h
    split at h
    · cases h
    · next hinjected =>
      split at h
      · cases h
      · split at h
        · cases h
        · next tool hfound =>
          obtain ⟨later, hlater, rfl⟩ := ok_of_map h
          obtain ⟨hnames, hfree, havailable⟩ := ih hlater
          obtain ⟨hmem, hname⟩ := of_find_name hfound
          refine ⟨by rw [List.map_cons, hnames, hname], ?_, ?_⟩
          · exact List.forall_mem_cons.mpr ⟨hinjected, hfree⟩
          · exact List.forall_mem_cons.mpr ⟨List.mem_reverse.mp hmem, havailable⟩

/-- The names of the tools that come with something else than `allowed_tools`. -/
def injectedTools (subagents agenticWorkflows : List String) (advisory : Bool) : List String :=
  (if subagents = [] then [] else ["run_subagent"]) ++
    (if agenticWorkflows = [] then []
      else ["delegate_workflow", "list_workflow_description", "read_workflow_docs",
        "list_workflow_context", "query_workflow_context"]) ++
    if advisory then ["ask_advisor"] else []

def OutcomeBinding.toolName : OutcomeBinding → String
  | .plain toolName => toolName
  | .withAdvisory toolName _ => toolName

def OutcomeBinding.isAdvisory : OutcomeBinding → Bool
  | .plain _ => false
  | .withAdvisory .. => true

/-- The outcome is advised: by its binding, or by the dynamic advisor. -/
def CreateAgentInput.advised (input : CreateAgentInput) : Bool :=
  input.dynamicTools.advisorPrompt.isSome || input.outcome.any (·.isAdvisory)

theorem mem_of_available {extraTools : List (String × X)} {name : String} {tool : X}
    (h : EngineTool.extra name tool ∈ availableTools extraTools) : (name, tool) ∈ extraTools := by
  simpa [availableTools] using h

theorem subagentTools_names (subagents : List String) :
    (subagentTools (X := X) subagents).map (·.name) =
        (if subagents = [] then [] else ["run_subagent"]) ∧
      ∀ name tool, EngineTool.extra (X := X) name tool ∉ subagentTools subagents := by
  unfold subagentTools
  split
  · exact ⟨rfl, fun _ _ => List.not_mem_nil⟩
  · refine ⟨rfl, fun name tool hmem => ?_⟩
    cases List.mem_singleton.mp hmem

theorem workflowSection_names {agenticWorkflows : List String}
    {workflows : List (EngineTool X) × String}
    (h : workflowSection options profile agenticWorkflows = .ok workflows) :
    workflows.1.map (·.name) =
        (if agenticWorkflows = [] then []
        else ["delegate_workflow", "list_workflow_description", "read_workflow_docs",
          "list_workflow_context", "query_workflow_context"]) ∧
      ∀ name tool, EngineTool.extra name tool ∉ workflows.1 := by
  unfold workflowSection at h
  split at h
  · next hnone =>
    cases h
    exact ⟨by rw [if_pos hnone]; rfl, fun _ _ => List.not_mem_nil⟩
  · next hsome =>
    rw [if_neg hsome]
    split at h
    · cases h
    · obtain ⟨prompt, -, rfl⟩ := ok_of_map h
      refine ⟨rfl, fun name tool hmem => ?_⟩
      simp [toolsForAgent] at hmem

theorem bindOutcome_ok {outcome : Option OutcomeBinding} {bound : BoundOutcome X}
    (h : bindOutcome options outcome = .ok bound) :
    bound.terminal = outcome.map (·.toolName) ∧
      bound.tools.map (·.name) = (if outcome.any (·.isAdvisory) then ["ask_advisor"] else []) ∧
      ∀ name tool, EngineTool.extra name tool ∉ bound.tools := by
  cases outcome with
  | none =>
    cases h
    exact ⟨rfl, rfl, fun _ _ => List.not_mem_nil⟩
  | some binding =>
    cases binding with
    | plain toolName =>
      cases h
      exact ⟨rfl, rfl, fun _ _ => List.not_mem_nil⟩
    | withAdvisory toolName prompt =>
      rw [bindOutcome] at h
      split at h
      · cases h
        refine ⟨rfl, rfl, fun name tool hmem => ?_⟩
        cases List.mem_singleton.mp hmem
      · cases h

theorem bindDynamicAdvisor_ok {input : CreateAgentInput} {outcome : Option OutcomeBinding}
    (h : bindDynamicAdvisor input.outcome input.dynamicTools = .ok outcome) :
    outcome.map (·.toolName) = input.outcome.map (·.toolName) ∧
      outcome.any (·.isAdvisory) = input.advised := by
  unfold bindDynamicAdvisor at h
  unfold CreateAgentInput.advised
  split at h
  · next hprompt =>
    cases h
    rw [hprompt]
    exact ⟨rfl, rfl⟩
  · cases h
  · cases h
  · next hprompt houtcome =>
    cases h
    rw [hprompt, houtcome]
    exact ⟨rfl, rfl⟩

theorem resolveDynamicTools_ok {dynamicTools : DynamicAgentTools} {resolved : ResolvedDynamicTools}
    (h : resolveDynamicTools options profile dynamicTools = .ok resolved) :
    resolved = { agenticWorkflows := dynamicTools.agenticWorkflows.getD profile.agenticWorkflows
                 subagents := dynamicTools.subagents.getD profile.subagents } := by
  obtain ⟨-, -, h⟩ := ok_of_bind h
  obtain ⟨-, -, h⟩ := ok_of_bind h
  obtain ⟨-, -, h⟩ := ok_of_bind h
  obtain ⟨-, -, h⟩ := ok_of_bind h
  cases h
  rfl

theorem requireProfile_ok {profiles : List AgentProfile} {name : String}
    (h : requireProfile profiles name = .ok profile) : profile ∈ profiles ∧ profile.name = name := by
  unfold requireProfile at h
  split at h
  · next found hfound =>
    cases h
    exact of_find_name hfound
  · cases h

end Chosen

/-! ## What is assembled -/

/-- What is known of the tools of a run that has been assembled for this profile. -/
structure Assembled {X : Type} (options : AgentFactoryBuildOptions X) (input : CreateAgentInput)
    (profile : AgentProfile) (spec : AgentSpec X) (executor : ToolExecutor X) : Prop where
  /-- The tools that the profile allows, and those that come with something else. -/
  chosen : spec.tools.map (·.name) = profile.allowedTools ++
    injectedTools (input.dynamicTools.subagents.getD profile.subagents)
      (input.dynamicTools.agenticWorkflows.getD profile.agenticWorkflows) input.advised
  reserved : ∀ name ∈ profile.allowedTools, name ∉ factoryInjectedToolNames
  /-- A tool of a product is one that it has brought, and stands under no name of the factory's. -/
  genuine : ∀ name tool, EngineTool.extra name tool ∈ spec.tools →
    (name, tool) ∈ options.extraTools ∧ name ∉ factoryInjectedToolNames
  terminal : spec.terminal = input.outcome.map (·.toolName)
  distinct : (spec.tools.map (·.name) ++ spec.terminal.toList).Nodup
  held : executor.tools.Perm
    (spec.tools.map BoundTool.ordinary ++ (spec.terminal.map BoundTool.terminal).toList)
  sorted : executor.tools.Pairwise toolLe
  found : ∀ name tool, executor.byName name = some tool ↔
    tool ∈ executor.tools ∧ tool.name = name

section Assembled

variable {X : Type} {options : AgentFactoryBuildOptions X} {input : CreateAgentInput}
  {spec : AgentSpec X} {executor : ToolExecutor X}

theorem createAgent_ok (h : createAgent options spec = .ok executor) :
    (spec.tools.map (·.name) ++ spec.terminal.toList).Nodup ∧
      executor = buildToolExecutor spec.tools spec.terminal := by
  obtain ⟨-, -, h⟩ := ok_of_bind h
  obtain ⟨⟨⟩, hvalid, h⟩ := ok_of_bind h
  cases h
  exact ⟨(validateToolNames_ok_iff _ _).mp hvalid, rfl⟩

/-- The registry of tools with distinct names. -/
theorem registry_nodup {tools : List (EngineTool X)} {terminal : Option String}
    (h : (tools.map (·.name) ++ terminal.toList).Nodup) :
    ((buildToolExecutor tools terminal).tools.map (·.name)).Nodup := by
  have hperm := (List.perm_insertionSort toolLe
    (tools.map BoundTool.ordinary ++ (terminal.map BoundTool.terminal).toList)).map (·.name)
  rw [boundTools_names] at hperm
  exact hperm.nodup_iff.mpr h

/-- Another order of the tools gives the same registry. -/
theorem buildToolExecutor_perm {tools others : List (EngineTool X)} {terminal : Option String}
    (hnodup : (others.map (·.name) ++ terminal.toList).Nodup) (hperm : tools.Perm others) :
    buildToolExecutor tools terminal = buildToolExecutor others terminal := by
  have hbound := (hperm.map BoundTool.ordinary).append_right
    (terminal.map BoundTool.terminal).toList
  have hnames : ((tools.map BoundTool.ordinary ++ (terminal.map BoundTool.terminal).toList).map
      BoundTool.name).Nodup := by
    rw [boundTools_names]
    exact ((hperm.map (·.name)).append_right terminal.toList).nodup_iff.mpr hnodup
  unfold buildToolExecutor
  rw [sortByName_eq_of_perm hnames hbound]

theorem Assembled.isSome_byName {profile : AgentProfile}
    (h : Assembled options input profile spec executor) (name : String) :
    (executor.byName name).isSome ↔ name ∈ spec.tools.map (·.name) ++ spec.terminal.toList := by
  have hnames := (h.held.map (·.name)).mem_iff (a := name)
  rw [boundTools_names] at hnames
  rw [← hnames, List.mem_map, Option.isSome_iff_exists]
  exact exists_congr fun tool => h.found name tool

theorem assembled_of_ok (h : assemble options input = .ok (spec, executor)) :
    executor = buildToolExecutor spec.tools spec.terminal ∧
      ∃ profile ∈ options.profiles, profile.name = input.agentName ∧
        Assembled options input profile spec executor := by
  obtain ⟨outcome, houtcome, h⟩ := ok_of_bind h
  obtain ⟨spec', hspec, h⟩ := ok_of_bind h
  obtain ⟨executor', hexecutor, h⟩ := ok_of_bind h
  cases h
  obtain ⟨hnodup, rfl⟩ := createAgent_ok hexecutor
  obtain ⟨profile, hprofile, hspec⟩ := ok_of_bind hspec
  obtain ⟨resolved, hresolved, hspec⟩ := ok_of_bind hspec
  obtain ⟨-, -, hspec⟩ := ok_of_bind hspec
  obtain ⟨ordinary, hordinary, hspec⟩ := ok_of_bind hspec
  obtain ⟨workflows, hworkflows, hspec⟩ := ok_of_bind hspec
  obtain ⟨bound, hbound, hspec⟩ := ok_of_bind hspec
  cases hspec
  obtain ⟨allowed, hallowed, rfl⟩ := ok_of_map hordinary
  obtain ⟨hnames, hfree, havailable⟩ := selectAllowed_ok _ hallowed
  obtain ⟨hterminal, hadvisor, hbound⟩ := bindOutcome_ok hbound
  obtain ⟨hsame, hadvised⟩ := bindDynamicAdvisor_ok houtcome
  obtain ⟨hmem, hname⟩ := requireProfile_ok hprofile
  have hresolved := resolveDynamicTools_ok hresolved
  subst hresolved
  obtain ⟨hsubagents, hsubagent⟩ := subagentTools_names (X := X)
    (input.dynamicTools.subagents.getD profile.subagents)
  obtain ⟨hsection, hworkflow⟩ := workflowSection_names hworkflows
  refine ⟨rfl, profile, hmem, hname, ⟨?_, hfree, fun name tool htool => ?_,
    hterminal.trans hsame, hnodup, List.perm_insertionSort toolLe _,
    List.pairwise_insertionSort toolLe _, byName_iff (registry_nodup hnodup)⟩⟩
  · rw [List.map_append, List.map_append, List.map_append, hnames, hsubagents, hsection, hadvisor,
      hadvised, injectedTools]
    simp only [List.append_assoc]
  · simp only [List.mem_append, hsubagent, hworkflow, hbound, or_false] at htool
    have hallowed : name ∈ profile.allowedTools := by
      rw [← hnames]
      exact List.mem_map_of_mem htool
    exact ⟨mem_of_available (havailable _ htool), hfree name hallowed⟩

end Assembled

/-- **The tools of a run**: whenever an agent of the factory is assembled, the names of its tools
are those that its profile allows and those that come with its subagents, workflows and advisor, all
distinct and none of them the terminal tool's; no tool of a product passes for one that the factory
brings; the registry holds each of them once, sorted by name,
whatever order they come in; and a call is dispatched to the tool that it names, if there is one. -/
theorem assembled_tools {X : Type} {options : AgentFactoryBuildOptions X} {input : CreateAgentInput}
    {spec : AgentSpec X} {executor : ToolExecutor X}
    (h : assemble options input = .ok (spec, executor)) :
    (∃ profile ∈ options.profiles, profile.name = input.agentName ∧
      Assembled options input profile spec executor) ∧
    (∀ tools, tools.Perm spec.tools → buildToolExecutor tools spec.terminal = executor) ∧
    ∀ parse completionTimeoutMs stringify name, (executor.byName name).isSome =
      (spec.runSpec parse completionTimeoutMs stringify).bound.contains name := by
  obtain ⟨rfl, profile, hprofile, hname, hassembled⟩ := assembled_of_ok h
  refine ⟨⟨profile, hprofile, hname, hassembled⟩, fun tools hperm => ?_, ?_⟩
  · exact buildToolExecutor_perm hassembled.distinct hperm
  · intro parse completionTimeoutMs stringify name
    rw [Bool.eq_iff_iff, hassembled.isSome_byName, List.contains_iff_mem]
    rfl

/-- A product with one tool of its own, whose reviewer is advised. -/
def reviewOptions : AgentFactoryBuildOptions Unit :=
  let profile (name : String) (allowedTools subagents : List String) : AgentProfile :=
    { name, llmClientId := "main", maxTurns := none, allowedTools, agenticWorkflows := []
      subagents, systemPrompt := "Read the change." }
  { profiles := [profile "advisor" [] [], profile "explorer" ["shell"] [],
      profile "reviewer" ["shell", "read_agent_run"] ["explorer"]]
    agenticWorkflowToolService := none
    advisorApproval := true
    extraTools := [("shell", ())]
    llmClients := ["main"] }

def reviewInput : CreateAgentInput :=
  { agentName := "reviewer"
    outcome := some (.plain "submit_review")
    dynamicTools :=
      { agenticWorkflows := none, subagents := none, advisorPrompt := some "Is it sound?" } }

theorem assembled_tools_review :
    ∃ spec executor, assemble reviewOptions reviewInput = .ok (spec, executor) ∧
      (∃ profile ∈ reviewOptions.profiles, profile.name = "reviewer" ∧
        Assembled reviewOptions reviewInput profile spec executor) ∧
      ∀ tools, tools.Perm spec.tools → buildToolExecutor tools spec.terminal = executor := by
  have hok : (assemble reviewOptions reviewInput).isOk := by decide +kernel
  cases h : assemble reviewOptions reviewInput with
  | error message =>
    rw [h] at hok
    cases hok
  | ok assembled =>
    obtain ⟨hassembled, horder, -⟩ := assembled_tools h
    exact ⟨assembled.1, assembled.2, rfl, hassembled, horder⟩

end EphemeralAgent.Agents
