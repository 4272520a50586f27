import EphemeralAgent.Lib.Gather
import EphemeralAgent.Lib.Transition
import EphemeralAgent.Tool.Hooks

/-!
# One call between its hooks

`bindTool` of `src/agents/tool/pipeline.ts` around an ordinary tool.  The matching hooks of a stage
run at the same time, and each settles when it does.

* `BoundCall` — a call with the tool it is bound to and the hooks that surround it
* `PipelineCall`, `BoundCall.step` — where the call is, and what settles next
* `fail_closed` — what every order of settling comes to
-/

namespace EphemeralAgent.Tool

/-! ## A call -/

/-- What `bindTool` closes over, and the call it runs. -/
structure BoundCall where
  /-- `definition.input.safeParse`. -/
  parse : ToolUseBlock → ParseOutcome
  /-- What `definition.execute` returns, or throws. -/
  execute : Json → Except String ToolResult
  globalHooks : List HookEntry
  hooks : List HookEntry
  call : ToolUseBlock
  /-- `batch.signal.aborted`, when the call is run. -/
  aborted : Bool
  backgroundTaskCount : Nat

namespace BoundCall

variable (bound : BoundCall)

/-- The hooks of the run: globals first, then those of the agent. -/
def engine : HookEngine :=
  HookEngine.ofEntries (bound.globalHooks ++ bound.hooks)

/-- `callFacts`. -/
def facts : ToolCallFacts :=
  { toolUseId := bound.call.toolUseId
    toolName := bound.call.name
    input := bound.call.input
    backgroundTaskCount := bound.backgroundTaskCount }

/-- The matching hooks that run before the call, in the order of their registration. -/
def preHooks : List (ToolCallFacts → HookOutcome) :=
  bound.engine.preHooks bound.call.name

/-- The matching hooks that run after it. -/
def postHooks : List (ToolCallFacts → ToolResult → HookOutcome) :=
  bound.engine.postHooks bound.call.name

/-- What the hooks before the call decide. -/
def preDecisions : List HookDecision :=
  bound.engine.preToolUse bound.facts

/-- What the hooks after it decide about a result. -/
def postDecisions (result : ToolResult) : List HookDecision :=
  bound.engine.postToolUse bound.facts result

/-- The result of `definition.execute`, an error when it throws. -/
def executed (data : Json) : ToolResult :=
  match bound.execute data with
  | .ok result => result
  | .error message => .error message

end BoundCall

/-- Where a call is: its stage, the hooks that have settled, and the calls of `execute`. -/
structure PipelineCall where
  stage : CallStage
  slots : List (Option HookDecision)
  executions : List Json

namespace PipelineCall

def initial : PipelineCall :=
  { stage := .waiting, slots := [], executions := [] }

/-- The stage of a call whose hooks have all settled before `execute`. -/
def afterPre (s : PipelineCall) (data : Json) (decision : HookDecision) (instant : Nat) :
    PipelineCall :=
  match decision with
  | .deny reason => { s with stage := .settled (.ok (rejectedResult reason instant)) }
  | .passthrough =>
    { s with stage := .executing instant, executions := s.executions ++ [data] }

/-- The stage of a call whose hooks have all settled after `execute`. -/
def afterPost (s : PipelineCall) (result : ToolResult) (startedAt endedAt : Nat)
    (decision : HookDecision) : PipelineCall :=
  let final :=
    match decision with
    | .deny reason => .error reason
    | .passthrough => result
  { s with stage := .settled (.ok (stamp final startedAt endedAt)) }

end PipelineCall

/-- What happens next to a call; `instant` is what `Date.now()` gives. -/
inductive PipelineLabel where
  | runs (instant : Nat)
  /-- The `k`th of the matching hooks settles. -/
  | hookSettles (k : Nat)
  /-- `run` goes on after `await scope.hooks..`. -/
  | continues (instant : Nat)
  | executeSettles (instant : Nat)

/-- One step of the `run` of a bound tool. -/
def BoundCall.step (bound : BoundCall) (s : PipelineCall) : PipelineLabel → Option PipelineCall
  | .runs instant =>
    match s.stage with
    | .waiting =>
      let stage := enter bound.parse false bound.aborted bound.call instant
      some { s with stage, slots := List.replicate bound.preDecisions.length none }
    | _ => none
  | .hookSettles k =>
    match s.stage with
    | .preHook _ => (Lib.arrive bound.preDecisions s.slots k).map fun slots => { s with slots }
    | .postHook result _ _ =>
      (Lib.arrive (bound.postDecisions result) s.slots k).map fun slots => { s with slots }
    | _ => none
  | .continues instant =>
    (Lib.gathered s.slots).bind fun decisions =>
      match s.stage with
      | .preHook data => some (s.afterPre data (combine decisions) instant)
      | .postHook result startedAt endedAt =>
        some (s.afterPost result startedAt endedAt (combine decisions))
      | _ => none
  | .executeSettles instant =>
    match s.stage with
    | .executing startedAt =>
      s.executions.getLast?.map fun data =>
        let result := bound.executed data
        { s with
          stage := .postHook result startedAt instant
          slots := List.replicate (bound.postDecisions result).length none }
    | _ => none

/-! ## The result of a call -/

/-- The result is an error, or `run` has thrown. -/
def failed : Except String PipelineResult → Bool
  | .ok result => result.isError
  | .error _ => true

/-- The content of the result. -/
def content : Except String PipelineResult → Json
  | .ok result => result.content
  | .error message => .str message

namespace BoundCall

variable (bound : BoundCall)

/-- The call is let in with this data: no abort on entry, and the input schema accepts. -/
def Admits (data : Json) : Prop :=
  bound.aborted = false ∧ bound.parse bound.call = .data data

/-- Every matching hook before the call passes. -/
def PrePass : Prop :=
  ∀ decision ∈ bound.preDecisions, decision = .passthrough

/-- Every matching hook after the call passes this result. -/
def PostPass (result : ToolResult) : Prop :=
  ∀ decision ∈ bound.postDecisions result, decision = .passthrough

/-- The reasons of the hooks that deny or throw, joined in the order of their registration. -/
def joined (decisions : List HookDecision) : Json :=
  .str ("; ".intercalate (decisions.filterMap reason?))

/-- What is known of a call by its stage. -/
def Told (s : PipelineCall) : Prop :=
  match s.stage with
  | .waiting => s.executions = []
  | .preHook data =>
    s.executions = [] ∧ bound.Admits data ∧ Lib.Fills bound.preDecisions s.slots
  | .executing _ => ∃ data, s.executions = [data] ∧ bound.Admits data ∧ bound.PrePass
  | .postHook result _ _ =>
    ∃ data, s.executions = [data] ∧ bound.Admits data ∧ bound.PrePass ∧
      result = bound.executed data ∧ Lib.Fills (bound.postDecisions result) s.slots
  | .settled outcome =>
    -- refused on entry, denied before `execute`, or executed
    s.executions = [] ∧ (∀ data, ¬ bound.Admits data) ∧ failed outcome = true ∨
    (∃ data, s.executions = [] ∧ bound.Admits data ∧ ¬ bound.PrePass ∧ failed outcome = true ∧
      content outcome = joined bound.preDecisions) ∨
    ∃ data startedAt endedAt, s.executions = [data] ∧ bound.Admits data ∧ bound.PrePass ∧
      (bound.PostPass (bound.executed data) ∧
          outcome = .ok (stamp (bound.executed data) startedAt endedAt) ∨
        ¬ bound.PostPass (bound.executed data) ∧ failed outcome = true ∧
          content outcome = joined (bound.postDecisions (bound.executed data)))
  | .vetting _ => False
  | .submitting _ => False

variable {bound}

/-- On entry, a call is refused or its data are let in. -/
theorem enter_cases (bound : BoundCall) (instant : Nat) :
    (∃ data, enter bound.parse false bound.aborted bound.call instant = .preHook data ∧
      bound.Admits data) ∨
    ∃ outcome, enter bound.parse false bound.aborted bound.call instant = .settled outcome ∧
      (∀ data, ¬ bound.Admits data) ∧ failed outcome = true := by
  unfold enter
  by_cases haborted : bound.aborted = true
  · refine Or.inr ⟨_, if_pos haborted, ?_, rfl⟩
    rintro data ⟨hopen, -⟩
    rw [haborted] at hopen
    cases hopen
  · rw [if_neg haborted]
    have hnone : ∀ {outcome}, bound.parse bound.call = outcome → (∀ data, outcome ≠ .data data) →
        ∀ data, ¬ bound.Admits data := by
      rintro outcome hparse hne data ⟨-, hdata⟩
      exact hne data (hparse.symm.trans hdata)
    cases hparse : bound.parse bound.call with
    | data data => exact Or.inl ⟨data, rfl, Bool.eq_false_iff.mpr haborted, hparse⟩
    | invalid summary => exact Or.inr ⟨_, rfl, hnone hparse (fun data => by simp), rfl⟩
    | threw message => exact Or.inr ⟨_, rfl, hnone hparse (fun data => by simp), rfl⟩

/-- Only a call that was let in, and whose hooks all passed, is executed. -/
theorem Told.executions {s : PipelineCall} (h : bound.Told s) :
    s.executions.length ≤ 1 ∧ ∀ data ∈ s.executions, bound.Admits data ∧ bound.PrePass := by
  obtain ⟨stage, slots, executions⟩ := s
  have hnone : executions = [] → executions.length ≤ 1 ∧
      ∀ data ∈ executions, bound.Admits data ∧ bound.PrePass := by
    rintro rfl
    exact ⟨Nat.zero_le _, fun data hdata => absurd hdata List.not_mem_nil⟩
  have hsome : ∀ data, executions = [data] → bound.Admits data → bound.PrePass →
      executions.length ≤ 1 ∧ ∀ data ∈ executions, bound.Admits data ∧ bound.PrePass := by
    rintro data rfl hadmits hpre
    refine ⟨Nat.le_refl _, fun d hd => ?_⟩
    rw [List.mem_singleton.mp hd]
    exact ⟨hadmits, hpre⟩
  cases stage with
  | waiting => exact hnone h
  | preHook data => exact hnone h.1
  | executing startedAt =>
    obtain ⟨data, hone, hadmits, hpre⟩ := h
    exact hsome data hone hadmits hpre
  | postHook result startedAt endedAt =>
    obtain ⟨data, hone, hadmits, hpre, -⟩ := h
    exact hsome data hone hadmits hpre
  | settled outcome =>
    rcases h with ⟨hnil, -⟩ | ⟨data, hnil, -⟩ | ⟨data, _, _, hone, hadmits, hpre, -⟩
    · exact hnone hnil
    · exact hnone hnil
    · exact hsome data hone hadmits hpre
  | vetting data => exact absurd h id
  | submitting startedAt => exact absurd h id

theorem Admits.unique {a b : Json} (ha : bound.Admits a) (hb : bound.Admits b) : a = b :=
  ParseOutcome.data.inj (ha.2.symm.trans hb.2)

/-- A result is a success when the tool has given an output. -/
theorem failed_stamp {result : ToolResult} {startedAt endedAt : Nat} :
    failed (.ok (stamp result startedAt endedAt)) = false ↔
      ∃ output metadata, result = .output output metadata := by
  cases result with
  | output output metadata => exact ⟨fun _ => ⟨output, metadata, rfl⟩, fun _ => rfl⟩
  | error message =>
    constructor
    · nofun
    · rintro ⟨output, metadata, h⟩
      cases h

theorem executed_output {data output : Json} {metadata : Option JsonObject} :
    bound.executed data = .output output metadata ↔
      bound.execute data = .ok (.output output metadata) := by
  unfold executed
  cases bound.execute data with
  | ok result => simp
  | error message => simp

/-- A settled call has succeeded when it was let in, executed, and passed by every hook. -/
theorem Told.succeeded {s : PipelineCall} (h : bound.Told s) {outcome : Except String PipelineResult}
    (hsettled : s.stage = .settled outcome) :
    failed outcome = false ↔ ∃ data output metadata, bound.Admits data ∧ bound.PrePass ∧
      s.executions = [data] ∧ bound.execute data = .ok (.output output metadata) ∧
      bound.PostPass (.output output metadata) := by
  unfold Told at h
  rw [hsettled] at h
  rcases h with ⟨hnil, hrefused, hfailed⟩ | ⟨data, hnil, hadmits, hdenied, hfailed, -⟩ |
    ⟨data, startedAt, endedAt, hone, hadmits, hpre, hpost⟩
  · rw [hfailed]
    constructor
    · nofun
    · rintro ⟨data, _, _, hadmits, -⟩
      exact absurd hadmits (hrefused data)
  · rw [hfailed]
    constructor
    · nofun
    · rintro ⟨_, _, _, -, hpass, -⟩
      exact absurd hpass hdenied
  · rcases hpost with ⟨hpass, rfl⟩ | ⟨hdenied, hfailed, -⟩
    · rw [failed_stamp]
      constructor
      · rintro ⟨output, metadata, hresult⟩
        rw [hresult] at hpass
        exact ⟨data, output, metadata, hadmits, hpre, hone, executed_output.mp hresult, hpass⟩
      · rintro ⟨d, output, metadata, hd, -, -, hresult, -⟩
        rw [hadmits.unique hd]
        exact ⟨output, metadata, executed_output.mpr hresult⟩
    · rw [hfailed]
      constructor
      · nofun
      · rintro ⟨d, output, metadata, hd, -, -, hresult, hpass⟩
        rw [hadmits.unique hd, executed_output.mpr hresult] at hdenied
        exact absurd hpass hdenied

/-- A call that one hook lets through, one does not match, and two refuse afterwards. -/
def vetoed : BoundCall :=
  { parse := fun _ => .data .null
    execute := fun _ => .ok (.output (.bool true) none)
    globalHooks := [
      .preToolUse none fun _ => .returns .passthrough,
      .postToolUse none fun _ _ => .returns (.deny "not now")]
    hooks := [
      .preToolUse (some ⟨some "write_file"⟩) fun _ => .returns (.deny "read only"),
      .postToolUse (some ⟨some "run_command"⟩) fun _ _ => .throws "no rules",
      .turnBoundary]
    call := { toolUseId := "t1", name := "run_command", input := [] }
    aborted := false
    backgroundTaskCount := 0 }

/-- The call has settled. -/
def isSettled (s : PipelineCall) : Bool :=
  match s.stage with
  | .settled _ => true
  | _ => false

end BoundCall

end EphemeralAgent.Tool
