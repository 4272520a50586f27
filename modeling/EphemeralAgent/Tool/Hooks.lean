import EphemeralAgent.Tool.Pipeline

/-!
# The hooks of a run

`src/agents/tool/hooks.ts`: callbacks on the events of a call, matched by the name of its tool.

* `HookEntry` — a callback with its event
* `HookEngine` — the entries of a run by event, and what those that match a call decide
* `combine` — what several decisions come to
-/

namespace EphemeralAgent.Tool

/-- `HookMatcher`. -/
structure HookMatcher where
  toolName : Option String

/-- What the callback of a hook comes to. -/
inductive HookOutcome where
  | returns (decision : HookDecision)
  | throws (message : String)

/-- `HookEntry`.  An entry for the boundary of a turn has no part in a call. -/
inductive HookEntry where
  | preToolUse (matcher : Option HookMatcher) (run : ToolCallFacts → HookOutcome)
  | postToolUse (matcher : Option HookMatcher) (run : ToolCallFacts → ToolResult → HookOutcome)
  | turnBoundary

/-- `matches`. -/
def HookMatcher.matches (matcher : Option HookMatcher) (toolName : String) : Bool :=
  match matcher.bind HookMatcher.toolName with
  | none => true
  | some name => name == toolName

/-- `guarded`: a callback that throws denies. -/
def guarded : HookOutcome → HookDecision
  | .returns decision => decision
  | .throws message => .deny message

/-! ## What they decide together -/

/-- The reason of a denial. -/
def reason? : HookDecision → Option String
  | .deny reason => some reason
  | .passthrough => none

/-- `combine`: any deny wins, and the reasons join. -/
def combine (decisions : List HookDecision) : HookDecision :=
  let reasons := decisions.filterMap reason?
  if reasons.length > 0 then .deny ("; ".intercalate reasons) else .passthrough

/-- All hooks let a call pass when each of them does. -/
theorem combine_eq_passthrough {decisions : List HookDecision} :
    combine decisions = .passthrough ↔ ∀ decision ∈ decisions, decision = .passthrough := by
  have hreasons : decisions.filterMap reason? = [] ↔
      ∀ decision ∈ decisions, decision = .passthrough := by
    rw [List.filterMap_eq_nil_iff]
    refine forall₂_congr fun decision _ => ?_
    cases decision <;> simp [reason?]
  rw [← hreasons]
  unfold combine
  dsimp only
  split
  · next hlength =>
    constructor
    · nofun
    · intro hnil
      rw [hnil] at hlength
      cases hlength
  · next hlength =>
    constructor
    · intro _
      exact List.eq_nil_of_length_eq_zero (by omega)
    · exact fun _ => rfl

/-! ## By event -/

/-- `#pre` and `#post`: the entries of an event, each with its matcher. -/
structure HookEngine where
  pre : List (Option HookMatcher × (ToolCallFacts → HookOutcome))
  post : List (Option HookMatcher × (ToolCallFacts → ToolResult → HookOutcome))

namespace HookEngine

/-- `new HookEngine(entries)`. -/
def ofEntries (entries : List HookEntry) : HookEngine :=
  { pre := entries.filterMap fun entry =>
      match entry with
      | .preToolUse matcher run => some (matcher, run)
      | _ => none
    post := entries.filterMap fun entry =>
      match entry with
      | .postToolUse matcher run => some (matcher, run)
      | _ => none }

variable (engine : HookEngine)

/-- The matching hooks that run before a call, in the order of their registration. -/
def preHooks (toolName : String) : List (ToolCallFacts → HookOutcome) :=
  (engine.pre.filter fun entry => HookMatcher.matches entry.1 toolName).map Prod.snd

/-- The matching hooks that run after it. -/
def postHooks (toolName : String) : List (ToolCallFacts → ToolResult → HookOutcome) :=
  (engine.post.filter fun entry => HookMatcher.matches entry.1 toolName).map Prod.snd

/-- What `preToolUse` combines. -/
def preToolUse (facts : ToolCallFacts) : List HookDecision :=
  (engine.preHooks facts.toolName).map fun run => guarded (run facts)

/-- What `postToolUse` combines. -/
def postToolUse (facts : ToolCallFacts) (result : ToolResult) : List HookDecision :=
  (engine.postHooks facts.toolName).map fun run => guarded (run facts result)

/-- A matching entry is asked. -/
theorem mem_preToolUse {entries : List HookEntry} {matcher : Option HookMatcher}
    {run : ToolCallFacts → HookOutcome} (hentry : .preToolUse matcher run ∈ entries)
    {facts : ToolCallFacts} (hmatches : HookMatcher.matches matcher facts.toolName = true) :
    guarded (run facts) ∈ (ofEntries entries).preToolUse facts := by
  have hpre : (matcher, run) ∈ (ofEntries entries).pre :=
    List.mem_filterMap.mpr ⟨_, hentry, rfl⟩
  have hhook : run ∈ (ofEntries entries).preHooks facts.toolName :=
    List.mem_map.mpr ⟨_, List.mem_filter.mpr ⟨hpre, hmatches⟩, rfl⟩
  exact List.mem_map.mpr ⟨run, hhook, rfl⟩

end HookEngine

end EphemeralAgent.Tool
