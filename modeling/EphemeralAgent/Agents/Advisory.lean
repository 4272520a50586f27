import Mathlib.Logic.Function.Basic
import Mathlib.Data.List.Permutation
import EphemeralAgent.Agents.CanonicalJson
import EphemeralAgent.Tool.Hooks

/-!
# Advisor passes and the hooks of a run

`src/agents/outcome-advisory.ts`, and the hooks that `agent-factory.ts` installs on a terminal tool.

* `AdvisorPassRegistry` — the submissions that an advisor has passed, run by run
* `requireNoBackgroundTasks`, `requireAdvisoryPass` — the hooks of the engine
-/

namespace EphemeralAgent.Agents

open Json Tool

abbrev AgentRunId := String

/-- `AdvisorSubmission`. -/
structure AdvisorSubmission where
  toolName : String
  payload : JsonObject

/-- A submission as the JSON value that is printed. -/
def AdvisorSubmission.toJson (submission : AdvisorSubmission) : Json :=
  .obj [("tool_name", .str submission.toolName), ("payload", .obj submission.payload)]

/-- `AdvisorPassRegistry`: the canonical texts of the passed submissions, by run. -/
structure AdvisorPassRegistry where
  passes : AgentRunId → List (List Char)

namespace AdvisorPassRegistry

def empty : AdvisorPassRegistry :=
  { passes := fun _ => [] }

def recordPass (n : NumberText) (r : AdvisorPassRegistry) (runId : AgentRunId)
    (submission : AdvisorSubmission) : AdvisorPassRegistry :=
  let key := canonicalJson n submission.toJson
  { passes := Function.update r.passes runId
      (if (r.passes runId).contains key then r.passes runId else r.passes runId ++ [key]) }

def hasPass (n : NumberText) (r : AdvisorPassRegistry) (runId : AgentRunId)
    (submission : AdvisorSubmission) : Bool :=
  (r.passes runId).contains (canonicalJson n submission.toJson)

/-- A pass is there when it was there before, or is the one that is recorded. -/
theorem mem_recordPass {n : NumberText} {r : AdvisorPassRegistry} {runId id : AgentRunId}
    {submission : AdvisorSubmission} {key : List Char} :
    key ∈ (r.recordPass n runId submission).passes id ↔
      key ∈ r.passes id ∨ id = runId ∧ key = canonicalJson n submission.toJson := by
  unfold recordPass
  dsimp only
  by_cases hid : id = runId
  · rw [hid, Function.update_self]
    split
    · next hcontains =>
      rw [List.contains_iff_mem] at hcontains
      constructor
      · exact Or.inl
      · rintro (hmem | ⟨-, rfl⟩)
        · exact hmem
        · exact hcontains
    · simp
  · rw [Function.update_of_ne hid]
    simp [hid]

end AdvisorPassRegistry

/-- Submissions with one canonical text have one tool, and the same payload. -/
theorem same_submission {n : NumberText} {a b : AdvisorSubmission}
    (h : canonicalJson n a.toJson = canonicalJson n b.toJson) :
    a.toolName = b.toolName ∧ SameValue (.obj a.payload) (.obj b.payload) := by
  cases same_of_canonicalJson h with
  | obj hperm hkeys hvalues =>
    -- the keys differ, so neither object has been permuted
    rcases List.perm_pair.mp hperm.symm with rfl | rfl
    · obtain ⟨hname, htail⟩ := List.forall₂_cons.mp hvalues
      obtain ⟨hpayload, -⟩ := List.forall₂_cons.mp htail
      exact ⟨eq_of_same_str hname, hpayload⟩
    · exact absurd hkeys (by simp)

/-! ## Hooks -/

/-- `requireNoBackgroundTasks`. -/
def requireNoBackgroundTasks (toolName : String) : HookEntry :=
  .preToolUse (some { toolName }) fun facts => .returns <|
    if facts.backgroundTaskCount = 0 then .passthrough
    else
      .deny (s!"BLOCKED: {facts.backgroundTaskCount} background task(s) still open for this run. " ++
        "Use list_background_tasks and cancel_background_task before calling " ++
        s!"{facts.toolName}, then retry.")

/-- `requireAdvisoryPass`, the `advisor_approval` hook. -/
def requireAdvisoryPass (n : NumberText) (agentRunId : AgentRunId) (toolName : String)
    (passes : AdvisorPassRegistry) : HookEntry :=
  .preToolUse (some { toolName }) fun facts => .returns <|
    if passes.hasPass n agentRunId { toolName := facts.toolName, payload := facts.input } then
      .passthrough
    else
      .deny (s!"advisor has not passed this {facts.toolName} submission; " ++
        "call ask_advisor with the intended payload first")

end EphemeralAgent.Agents
