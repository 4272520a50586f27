import EphemeralAgent.AgenticWorkflows.ToolService

/-!
# What an agent sees of the workflows outside its list

The docs of a workflow outside the visible list never reach the agent.  Its description does:
without a name, `listAgenticWorkflowDescription` does not look at the visible list.

* `Agree` — two factories that an agent should not be able to tell apart
* `SameView` — it cannot tell them apart, by its prompt and the answers to its calls
* `visibility` — **it cannot exactly when both describe the same workflows, visible or not**
-/

namespace EphemeralAgent.AgenticWorkflows

open Json Tool

/-- Two factories with the same visible workflows. -/
def Agree (visibleWorkflows : List String) (f g : AgenticWorkflowFactory) : Prop :=
  ∀ name ∈ visibleWorkflows, f.getWorkflow name = g.getWorkflow name

/-- **What reaches an agent with this list is the same for both factories.** -/
structure SameView (issues : NameSchema → JsonObject → String) (visibleWorkflows : List String)
    (f g : AgenticWorkflowFactory) : Prop where
  prompt : renderAgenticWorkflowPrompt f visibleWorkflows =
    renderAgenticWorkflowPrompt g visibleWorkflows
  descriptions : ∀ input, listAgenticWorkflowDescriptionTool issues f visibleWorkflows input =
    listAgenticWorkflowDescriptionTool issues g visibleWorkflows input
  docs : ∀ input, readWorkflowDocsTool issues f visibleWorkflows input =
    readWorkflowDocsTool issues g visibleWorkflows input

/-- **Every workflow that is described to an agent with this list is on it.** -/
def OnlyVisible (visibleWorkflows : List String) (f : AgenticWorkflowFactory) : Prop :=
  ∀ name descriptions, listAgenticWorkflowDescription f visibleWorkflows name = .ok descriptions →
    ∀ description ∈ descriptions, description.name ∈ visibleWorkflows

/-- What both factories tell of all their workflows, and in which order. -/
def SameDescribed (f g : AgenticWorkflowFactory) : Prop :=
  f.configs.map (·.described) = g.configs.map (·.described)

/-! ## The output of a description -/

theorem participantOutput_injective {a b : ParticipantBinding}
    (h : participantOutput a = participantOutput b) : a = b := by
  obtain ⟨kind, name, description⟩ := a
  obtain ⟨kind', name', description'⟩ := b
  unfold participantOutput at h
  cases kind <;> cases kind' <;> cases description <;> cases description' <;> simp_all

theorem participantsOutput_injective {a b : ParticipantBindings}
    (h : participantsOutput a = participantsOutput b) : a = b := by
  refine List.map_injective_iff.mpr ?_ (Json.obj.inj h)
  rintro ⟨role, node⟩ ⟨role', node'⟩ heq
  obtain ⟨hrole, hnode⟩ := Prod.mk.inj heq
  exact Prod.ext hrole (participantOutput_injective hnode)

theorem descriptionOutput_injective : Function.Injective descriptionOutput := by
  rintro ⟨name, type, description, participants⟩ ⟨name', type', description', participants'⟩ h
  simp only [descriptionOutput, Json.obj.injEq, List.cons.injEq, Prod.mk.injEq, true_and,
    Json.str.injEq, and_true] at h
  obtain ⟨rfl, rfl, rfl, hparticipants⟩ := h
  rw [participantsOutput_injective hparticipants]

/-! ## The tools -/

section Agree

variable {issues : NameSchema → JsonObject → String} {visibleWorkflows : List String}
  {f g : AgenticWorkflowFactory}

/-- A name that a schema lets through is on its list. -/
theorem mem_of_parse {schema : NameSchema} {input : JsonObject} {name : String}
    (h : schema.parse input = some (some name)) : name ∈ schema.names := by
  unfold NameSchema.parse at h
  split at h
  · split at h <;> cases h
  · next found _ =>
    split at h
    · next hcontains =>
      cases h
      exact List.contains_iff_mem.mp hcontains
    · cases h
  · cases h

/-- **The docs of a workflow are read through its name only.** -/
theorem docs_of_agree (h : Agree visibleWorkflows f g) (input : JsonObject) :
    readWorkflowDocsTool issues f visibleWorkflows input =
      readWorkflowDocsTool issues g visibleWorkflows input := by
  unfold readWorkflowDocsTool
  dsimp only
  split
  · next name hparse =>
    have hname : f.getWorkflow name = g.getWorkflow name := h name (mem_of_parse hparse)
    unfold readWorkflowDocs AgenticWorkflowFactory.readDocs
    rw [hname]
  · rfl

theorem described_of_agree (h : Agree visibleWorkflows f g) {name : String}
    (hname : name ∈ visibleWorkflows) :
    listAgenticWorkflowDescription f visibleWorkflows (some name) =
      listAgenticWorkflowDescription g visibleWorkflows (some name) := by
  unfold listAgenticWorkflowDescription AgenticWorkflowFactory.description
  dsimp only
  rw [h name hname]

/-- Without a name all registered workflows are described. -/
theorem described_all (f : AgenticWorkflowFactory) (visibleWorkflows : List String) :
    listAgenticWorkflowDescription f visibleWorkflows none = .ok (f.configs.map (·.described)) :=
  rfl

theorem name_of_getWorkflow {name : String} {config : AgenticWorkflowConfig}
    (h : f.getWorkflow name = .ok config) : config.name = name := by
  unfold AgenticWorkflowFactory.getWorkflow at h
  split at h
  · cases h
  · next found hfound =>
    have hname := List.find?_some hfound
    split at h
    · cases h
      exact beq_iff_eq.mp hname
    · cases h

/-- With a name, the one that is described has it. -/
theorem name_of_described {name : String} {descriptions : List AgenticWorkflowDescription}
    (h : listAgenticWorkflowDescription f visibleWorkflows (some name) = .ok descriptions) :
    name ∈ visibleWorkflows ∧ ∀ description ∈ descriptions, description.name = name := by
  simp only [listAgenticWorkflowDescription, assertVisible] at h
  split at h
  · next hcontains =>
    refine ⟨List.contains_iff_mem.mp hcontains, ?_⟩
    change (f.getWorkflow name).map _ = _ at h
    cases hget : f.getWorkflow name with
    | error message =>
      rw [hget] at h
      cases h
    | ok config =>
      rw [hget] at h
      cases h
      intro description hdescription
      rw [List.mem_singleton.mp hdescription]
      exact name_of_getWorkflow hget
  · cases h

/-- **The view of an agent is that of all registered workflows, and of no docs but the visible.** -/
theorem sameView_iff (h : Agree visibleWorkflows f g) :
    SameView issues visibleWorkflows f g ↔ SameDescribed f g := by
  constructor
  · intro hview
    -- the call without a name
    have hcall := hview.descriptions []
    change ToolAnswer.returned (.output (.arr _) none) = .returned (.output (.arr _) none) at hcall
    injection hcall with houtput
    injection houtput with harr
    exact List.map_injective_iff.mpr descriptionOutput_injective (Json.arr.inj harr)
  · intro hsame
    have hall : listAgenticWorkflowDescription f visibleWorkflows none =
        listAgenticWorkflowDescription g visibleWorkflows none := by
      rw [described_all, described_all, hsame]
    refine ⟨?_, ?_, docs_of_agree h⟩
    · unfold renderAgenticWorkflowPrompt
      rw [hall]
    · intro input
      unfold listAgenticWorkflowDescriptionTool
      dsimp only
      split
      · rfl
      · next name hparse =>
        cases name with
        | none => rw [hall]
        | some name => rw [described_of_agree h (mem_of_parse hparse)]

theorem onlyVisible_iff :
    OnlyVisible visibleWorkflows f ↔ ∀ config ∈ f.configs, config.name ∈ visibleWorkflows := by
  constructor
  · intro h config hconfig
    exact h none _ (described_all f visibleWorkflows) config.described (List.mem_map_of_mem hconfig)
  · intro h name descriptions hdescribed description hdescription
    cases name with
    | none =>
      cases hdescribed
      obtain ⟨config, hconfig, rfl⟩ := List.mem_map.mp hdescription
      exact h config hconfig
    | some name =>
      obtain ⟨hvisible, hname⟩ := name_of_described hdescribed
      rw [hname description hdescription]
      exact hvisible

/-- **An agent cannot tell two factories with the same visible workflows apart exactly when they
describe the same workflows, and only visible ones are described to it exactly when there are no
others.** -/
theorem visibility (h : Agree visibleWorkflows f g) :
    (SameView issues visibleWorkflows f g ↔ SameDescribed f g) ∧
      (OnlyVisible visibleWorkflows f ↔
        ∀ config ∈ f.configs, config.name ∈ visibleWorkflows) :=
  ⟨sameView_iff h, onlyVisible_iff⟩

end Agree

/-- A workflow with this name. -/
def sampleConfig (name : String) : AgenticWorkflowConfig :=
  { name, type := "pursuit", description := s!"runs {name}", docs := s!"how to run {name}"
    participants := [("planner", { kind := .agent, name := "planner", description := none })] }

/-- Only the docs of the workflow that is not visible differ. -/
theorem visibility_docs :
    Agree ["open"] (.ofConfigs [sampleConfig "open", sampleConfig "hidden"] ["pursuit"])
        (.ofConfigs [sampleConfig "open", { sampleConfig "hidden" with docs := "" }] ["pursuit"]) ∧
      SameView (fun _ _ => "") ["open"]
        (.ofConfigs [sampleConfig "open", sampleConfig "hidden"] ["pursuit"])
        (.ofConfigs [sampleConfig "open", { sampleConfig "hidden" with docs := "" }]
          ["pursuit"]) := by
  have hagree : Agree ["open"] (.ofConfigs [sampleConfig "open", sampleConfig "hidden"] ["pursuit"])
      (.ofConfigs [sampleConfig "open", { sampleConfig "hidden" with docs := "" }]
        ["pursuit"]) := by
    intro name hname
    rw [List.mem_singleton.mp hname]
    decide
  exact ⟨hagree, (visibility hagree).1.mpr (by unfold SameDescribed; decide)⟩

/-- A workflow that is not visible is described to the agent. -/
theorem hidden_described :
    Agree ["open"] (.ofConfigs [sampleConfig "open", sampleConfig "hidden"] ["pursuit"])
        (.ofConfigs [sampleConfig "open"] ["pursuit"]) ∧
      ¬ SameView (fun _ _ => "") ["open"]
        (.ofConfigs [sampleConfig "open", sampleConfig "hidden"] ["pursuit"])
        (.ofConfigs [sampleConfig "open"] ["pursuit"]) ∧
      ¬ OnlyVisible ["open"]
        (.ofConfigs [sampleConfig "open", sampleConfig "hidden"] ["pursuit"]) := by
  have hagree : Agree ["open"] (.ofConfigs [sampleConfig "open", sampleConfig "hidden"] ["pursuit"])
      (.ofConfigs [sampleConfig "open"] ["pursuit"]) := by
    intro name hname
    rw [List.mem_singleton.mp hname]
    decide
  refine ⟨hagree, fun hview => ?_, fun honly => ?_⟩
  · have hsame := (sameView_iff hagree).mp hview
    exact absurd hsame (by unfold SameDescribed; decide)
  · have hall := onlyVisible_iff.mp honly
    exact absurd hall (by decide)

end EphemeralAgent.AgenticWorkflows
