import EphemeralAgent.Tool.Pipeline

/-!
# The workflows that an agent may use

`src/agentic-workflows/agentic-workflow-factory.ts` and `agentic-workflow-tool-service.ts`, with the
tools `list_workflow_description` and `read_workflow_docs` and the section of the system prompt that
`agent-factory.ts` renders.

* `AgenticWorkflowFactory` — the registered configs, and the modules that run them
* `listAgenticWorkflowDescription`, `readWorkflowDocs` — the tool service, for one visible list
* `listAgenticWorkflowDescriptionTool`, `readWorkflowDocsTool`, `renderAgenticWorkflowPrompt` —
  what reaches the agent
-/

namespace EphemeralAgent.AgenticWorkflows

open Json Tool

/-! ## The registered workflows -/

/-- The `kind` of a participant. -/
inductive ParticipantKind where
  | agent
  | workflow
  deriving DecidableEq, Repr

structure ParticipantBinding where
  kind : ParticipantKind
  name : String
  description : Option String
  deriving DecidableEq, Repr

/-- `Record<string, ParticipantBinding>`, in the order of its keys. -/
abbrev ParticipantBindings := List (String × ParticipantBinding)

/-- `AgenticWorkflowConfig`, as far as an agent may see it. -/
structure AgenticWorkflowConfig where
  name : String
  type : String
  description : String
  docs : String
  participants : ParticipantBindings
  deriving DecidableEq, Repr

structure AgenticWorkflowDescription where
  name : String
  type : String
  description : String
  participants : ParticipantBindings
  deriving DecidableEq, Repr

/-- The fields of a config that `description` copies. -/
def AgenticWorkflowConfig.described (config : AgenticWorkflowConfig) : AgenticWorkflowDescription :=
  { name := config.name, type := config.type, description := config.description
    participants := config.participants }

/-- `map.set(config.name, config)`: a new value keeps the place of its key. -/
def setConfig (configs : List AgenticWorkflowConfig) (config : AgenticWorkflowConfig) :
    List AgenticWorkflowConfig :=
  if configs.any (·.name == config.name) then
    configs.map fun other => if other.name = config.name then config else other
  else configs ++ [config]

/-- The `#configs` and the types of the `#modules`. -/
structure AgenticWorkflowFactory where
  configs : List AgenticWorkflowConfig
  modules : List String

namespace AgenticWorkflowFactory

/-- The constructor. -/
def ofConfigs (configs : List AgenticWorkflowConfig) (modules : List String) :
    AgenticWorkflowFactory :=
  { configs := configs.foldl setConfig [], modules }

def getWorkflow (f : AgenticWorkflowFactory) (workflowName : String) :
    Except String AgenticWorkflowConfig :=
  match f.configs.find? (·.name == workflowName) with
  | none => .error s!"unknown workflow \"{workflowName}\""
  | some config =>
    if f.modules.contains config.type then .ok config
    else .error s!"workflow \"{workflowName}\" has no module for type \"{config.type}\""

/-- `description`. -/
def description (f : AgenticWorkflowFactory) (workflowName : Option String) :
    Except String (List AgenticWorkflowDescription) :=
  match workflowName with
  | none => .ok (f.configs.map (·.described))
  | some name => (f.getWorkflow name).map fun config => [config.described]

def readDocs (f : AgenticWorkflowFactory) (workflowName : String) : Except String String :=
  (f.getWorkflow workflowName).map (·.docs)

end AgenticWorkflowFactory

/-! ## The tool service -/

def assertVisible (visibleWorkflows : List String) (name : String) : Except String Unit :=
  if visibleWorkflows.contains name then .ok ()
  else .error s!"workflow \"{name}\" is not visible to this agent"

/-- Without a name nothing is checked, and `description` is asked for everything. -/
def listAgenticWorkflowDescription (f : AgenticWorkflowFactory) (visibleWorkflows : List String)
    (name : Option String) : Except String (List AgenticWorkflowDescription) := do
  match name with
  | some name => assertVisible visibleWorkflows name
  | none => pure ()
  f.description name

def readWorkflowDocs (f : AgenticWorkflowFactory) (visibleWorkflows : List String) (name : String) :
    Except String String := do
  assertVisible visibleWorkflows name
  f.readDocs name

/-! ## The tools -/

/-- `z.object({ name: z.enum(names) })`, where the name may be optional. -/
structure NameSchema where
  names : List String
  optional : Bool

/-- `safeParse`; `none` when there are issues. -/
def NameSchema.parse (schema : NameSchema) (input : JsonObject) : Option (Option String) :=
  match field input "name" with
  | none => if schema.optional then some none else none
  | some (.str name) => if schema.names.contains name then some (some name) else none
  | some _ => none

/-- What a call of a tool comes to. -/
inductive ToolAnswer where
  | invalid (issues : String)
  | threw (message : String)
  | returned (result : ToolResult)

/-- The answer of `execute`, which may throw. -/
def ToolAnswer.of : Except String Json → ToolAnswer
  | .error message => .threw message
  | .ok output => .returned (.output output none)

def participantOutput (node : ParticipantBinding) : Json :=
  let kind :=
    match node.kind with
    | .agent => "agent"
    | .workflow => "workflow"
  .obj ([("kind", .str kind), ("name", .str node.name)] ++
    node.description.toList.map fun description => ("description", .str description))

def participantsOutput (participants : ParticipantBindings) : Json :=
  .obj (participants.map fun entry => (entry.1, participantOutput entry.2))

/-- One entry of the output. -/
def descriptionOutput (description : AgenticWorkflowDescription) : Json :=
  .obj [("name", .str description.name), ("type", .str description.type),
    ("description", .str description.description),
    ("participants", participantsOutput description.participants)]

/-- A call of `list_workflow_description`; `issues` is how the issues of an input are told. -/
def listAgenticWorkflowDescriptionTool (issues : NameSchema → JsonObject → String)
    (f : AgenticWorkflowFactory) (visibleWorkflows : List String) (input : JsonObject) :
    ToolAnswer :=
  let schema : NameSchema := { names := visibleWorkflows, optional := true }
  match schema.parse input with
  | none => .invalid (issues schema input)
  | some name =>
    .of ((listAgenticWorkflowDescription f visibleWorkflows name).map fun descriptions =>
      .arr (descriptions.map descriptionOutput))

/-- A call of `read_workflow_docs`. -/
def readWorkflowDocsTool (issues : NameSchema → JsonObject → String) (f : AgenticWorkflowFactory)
    (visibleWorkflows : List String) (input : JsonObject) : ToolAnswer :=
  let schema : NameSchema := { names := visibleWorkflows, optional := false }
  match schema.parse input with
  | some (some name) => .of ((readWorkflowDocs f visibleWorkflows name).map .str)
  | _ => .invalid (issues schema input)

/-! ## The prompt -/

/-- `renderAgenticWorkflowPrompt`. -/
def renderAgenticWorkflowPrompt (f : AgenticWorkflowFactory) (names : List String) :
    Except String String :=
  (listAgenticWorkflowDescription f names none).map fun descriptions =>
    "\n".intercalate
      (["## Available agentic workflows",
        "Drive these configured agentic workflows through delegate_workflow and inspect them " ++
          "with workflow description, docs, and context tools."] ++
        descriptions.map fun workflow =>
          s!"### {workflow.name} - {workflow.description}\nTools: delegate_workflow, " ++
            "list_workflow_description, read_workflow_docs, list_workflow_context, " ++
            "query_workflow_context")

end EphemeralAgent.AgenticWorkflows
