import EphemeralAgent.Engine.ProviderHistory
import EphemeralAgent.Runtime.System

/-!
# The blocks of a run

What one block of an assembled run can do, by its label, and how it looks from the loop alone.

* `Acted` — the ways a step can go; `acted_of_step` sorts every step into one of them
* `refines_step` — **every block of the run is a block of the loop, or nothing to it**
* `refines_run` — so every property of the loop, with any executor, is a property of the run
-/

namespace EphemeralAgent.Runtime

open Lib Engine Tool

variable {T : Type}

/-- The stage in which a hook or a callback of a call is awaited, and what it leads to without a
side effect. -/
inductive Settles (s : AgentSystem T) (index : Nat) (result : PipelineResult) : Prop
  /-- A `preToolUse` hook denies, or the gate does. -/
  | denied (data : Json) (hstage : s.stages[index]? = some (.preHook data))
  /-- An ordinary call is over. -/
  | stamped (executed : ToolResult) (startedAt endedAt : Nat)
      (hstage : s.stages[index]? = some (.postHook executed startedAt endedAt))
  /-- A `postToolUse` hook denies a submission. -/
  | vetoed (data : Json) (hstage : s.stages[index]? = some (.vetting data))

/-- The ways a step can go. -/
inductive Acted (spec : RunSpec) (s : AgentSystem T) :
    SystemLabel T → AgentSystem T × List (SystemItem T) → Prop
  | ran {label : RunLabel T} {next : AgentRun T × List (RunItem T)}
      (hfree : free s.run label = true) (hstep : s.run.step spec.loop label = some next)
      (hboundary : label ≠ .boundaryReturns) (hinterrupt : label ≠ .interrupt) :
      Acted spec s (.run label) ({ s with run := next.1 }, next.2.map .run)
  | opened {next : AgentRun T × List (RunItem T)}
      (hstep : s.run.step spec.loop .boundaryReturns = some next) :
      Acted spec s (.run .boundaryReturns)
        ({ s with run := next.1 }.openBatch spec, next.2.map .run)
  | interrupted :
      Acted spec s (.run .interrupt)
        ({ s with run := s.run.interrupt.1 }.forwardAbort spec, s.run.interrupt.2.map .run)
  /-- The batch goes on and dispatches nothing. -/
  | blocked {part : BatchPart} {instant : Nat} {b b' : BatchRun} {label : BatchLabel}
      {items : List BatchItem} (hbatch : s.batch = some b)
      (hlabel : s.batchLabel b instant part = some label)
      (hstep : b.step spec.bound (.block label) = some b')
      (hhistory : b'.history = b.history ++ items) (hitems : ∀ index, .started index ∉ items) :
      Acted spec s (.block part instant) ({ s with batch := some b' }, items.map .batch)
  /-- The batch dispatches a call. -/
  | dispatched {part : BatchPart} {instant index : Nat} {b b' : BatchRun} {label : BatchLabel}
      (hbatch : s.batch = some b) (hlabel : s.batchLabel b instant part = some label)
      (hstep : b.step spec.bound (.block label) = some b')
      (hhistory : b'.history = b.history ++ [.started index]) :
      Acted spec s (.block part instant)
        (({ s with batch := some b' }.dispatch spec index instant).1,
          .batch (.started index) :: ({ s with batch := some b' }.dispatch spec index instant).2)
  /-- A call settles without a side effect. -/
  | settled {label : SystemLabel T} (index : Nat) (result : PipelineResult)
      (hsettles : Settles s index result) (hterminal : result.isTerminal = false)
      (hlabel : ∀ label', label ≠ .run label')
      (hverdict : ∀ index verdict instant, label ≠ .submitReturns index verdict instant) :
      Acted spec s label
        ({ s with stages := s.stages.set index (.settled (.ok result)) }, [])
  | executed (index instant : Nat) (data : Json) (call : ToolUseBlock)
      (hstage : s.stages[index]? = some (.preHook data)) (hcall : s.call index = some call)
      (hordinary : spec.isTerminal call = false) :
      Acted spec s (.preHookReturns index .passthrough instant)
        ({ s with stages := s.stages.set index (.executing instant) }, [.executed index data])
  | gatePassed (index instant : Nat) (data : Json) (call : ToolUseBlock)
      (hstage : s.stages[index]? = some (.preHook data)) (hcall : s.call index = some call)
      (hterminal : spec.isTerminal call = true) (hopen : s.blockers = []) :
      Acted spec s (.preHookReturns index .passthrough instant)
        ({ s with stages := s.stages.set index (.vetting data) }, [.gatePassed index])
  | returned (index instant startedAt : Nat) (answer : Except String ToolResult)
      (result : ToolResult) (hstage : s.stages[index]? = some (.executing startedAt)) :
      Acted spec s (.executeReturns index answer instant)
        ({ s with stages := s.stages.set index (.postHook result startedAt instant) }, [])
  | submitted (index instant : Nat) (data : Json)
      (hstage : s.stages[index]? = some (.vetting data)) :
      Acted spec s (.postHookReturns index .passthrough instant)
        ({ s with
            run := { s.run with handle := s.run.handle.beginFinishing }
            stages := s.stages.set index (.submitting instant)
            submitting := true }, [.submitted index data s.run.gate])
  | accepted (index instant startedAt : Nat) (value : T)
      (hstage : s.stages[index]? = some (.submitting startedAt)) :
      Acted spec s (.submitReturns index (.accept value) instant)
        ({ s with
            stages := s.stages.set index
              (.settled (.ok (Tool.submitted (.accept value) startedAt instant)))
            accepted := some value }, [.accepted index value])
  | refused (index instant startedAt : Nat) (verdict : SubmitVerdict T)
      (hverdict : ∀ value, verdict ≠ .accept value)
      (hstage : s.stages[index]? = some (.submitting startedAt)) :
      Acted spec s (.submitReturns index verdict instant)
        ({ s with
            run := { s.run with handle := s.run.handle.cancelFinishing }
            stages := s.stages.set index
              (.settled (.ok (Tool.submitted verdict startedAt instant)))
            submitting := false }, [])
  | batchReturned {b : BatchRun} {results : List ToolCallResult} {instant : Nat}
      {next : AgentRun T × List (RunItem T)} (hbatch : s.batch = some b)
      (hreturned : b.batch.phase = .returned results)
      (hstep : s.run.step spec.loop (.batchReturns results s.accepted instant) = some next) :
      Acted spec s (.batchReturns instant)
        ({ s with run := next.1, accepted := s.takeAccepted results instant }, next.2.map .run)

/-- A block of a batch shows at most one item. -/
theorem step_items {tools : List String} {b b' : BatchRun} {label : BatchLabel}
    (h : b.step tools (.block label) = some b') :
    b'.history = b.history ∨ ∃ item, b'.history = b.history ++ [item] := by
  cases stepped_of_step h with
  | dispatched | completed | dropped | submitted | completedTerminal | droppedTerminal =>
    exact Or.inr ⟨_, rfl⟩
  | finished | stopped | finishedAll | cut => exact Or.inl rfl
  | aborted => exact Or.inr ⟨_, rfl⟩

theorem acted_block {spec : RunSpec} {s : AgentSystem T} {part : BatchPart} {instant : Nat}
    {b : BatchRun} {label : BatchLabel} {next : AgentSystem T × List (SystemItem T)}
    (hbatch : s.batch = some b) (hlabel : s.batchLabel b instant part = some label)
    (h : s.block spec b label instant = some next) : Acted spec s (.block part instant) next := by
  obtain ⟨⟨batch, items⟩, hnext, rfl⟩ := Option.map_eq_some_iff.mp h
  have hstep : b.step spec.bound (.block label) =
      some { b with batch, history := b.history ++ items } := by
    rw [BatchRun.step, hnext]
    rfl
  have hone : items = [] ∨ ∃ item, items = [item] := by
    rcases step_items hstep with heq | ⟨item, heq⟩
    · exact Or.inl (by simpa using heq)
    · exact Or.inr ⟨item, List.append_cancel_left heq⟩
  rcases hone with rfl | ⟨item, rfl⟩
  · exact .blocked hbatch hlabel hstep rfl (by simp)
  · cases item with
    | started index => exact .dispatched hbatch hlabel hstep rfl
    | _ =>
      refine .blocked hbatch hlabel hstep rfl fun index hmem => ?_
      cases List.mem_singleton.mp hmem

/-- **Every step is one of these.** -/
theorem acted_of_step {spec : RunSpec} {s : AgentSystem T} {label : SystemLabel T}
    {next : AgentSystem T × List (SystemItem T)} (h : s.step spec label = some next) :
    Acted spec s label next := by
  cases label with
  | run label =>
    simp only [AgentSystem.step, Option.ite_none_right_eq_some] at h
    obtain ⟨hfree, h⟩ := h
    obtain ⟨ran, hran, rfl⟩ := Option.map_eq_some_iff.mp h
    cases label with
    | boundaryReturns => exact .opened hran
    | interrupt =>
      cases hran
      exact .interrupted
    | _ => exact .ran hfree hran nofun nofun
  | block part instant =>
    obtain ⟨b, hbatch, h⟩ := Option.bind_eq_some_iff.mp h
    obtain ⟨label, hlabel, h⟩ := Option.bind_eq_some_iff.mp h
    exact acted_block hbatch hlabel h
  | preHookReturns index decision instant =>
    simp only [AgentSystem.step] at h
    split at h
    · next data call hstage hcall =>
      cases h
      cases decision with
      | deny reason =>
        exact .settled index _ (.denied data hstage) rfl nofun nofun
      | passthrough =>
        unfold AgentSystem.afterPreHook
        dsimp only
        split
        · next hterminal =>
          split
          · -- the gate, read in the same block as the hook returns
            next hopen => exact .gatePassed index instant data call hstage hcall hterminal hopen
          · exact .settled index _ (.denied data hstage) rfl nofun nofun
        · next hordinary =>
          exact .executed index instant data call hstage hcall (by simpa using hordinary)
    · cases h
  | executeReturns index answer instant =>
    simp only [AgentSystem.step] at h
    split at h
    · next startedAt hstage =>
      cases h
      exact .returned index instant startedAt answer _ hstage
    · cases h
  | postHookReturns index decision instant =>
    obtain ⟨stage, hstage, h⟩ := Option.bind_eq_some_iff.mp h
    cases stage with
    | postHook result startedAt endedAt =>
      cases h
      exact .settled index _ (.stamped result startedAt endedAt hstage)
        (stamp_isTerminal _ startedAt endedAt) nofun nofun
    | vetting data =>
      cases decision with
      | deny reason =>
        cases h
        exact .settled index _ (.vetoed data hstage) rfl nofun nofun
      | passthrough =>
        cases h
        exact .submitted index instant data hstage
    | _ => cases h
  | submitReturns index verdict instant =>
    simp only [AgentSystem.step] at h
    split at h
    · next startedAt hstage =>
      cases verdict with
      | accept value =>
        cases h
        exact .accepted index instant startedAt value hstage
      | reject reason =>
        cases h
        exact .refused index instant startedAt _ nofun hstage
      | threw message =>
        cases h
        exact .refused index instant startedAt _ nofun hstage
    · cases h
  -- the loop takes the results only once the batch has returned them
  | batchReturns instant =>
    simp only [AgentSystem.step] at h
    split at h
    · next b hbatch =>
      split at h
      · next results hreturned =>
        obtain ⟨ran, hran, rfl⟩ := Option.map_eq_some_iff.mp h
        exact .batchReturned hbatch hreturned hran
      · cases h
    · cases h

/-! ## The run as the loop sees it -/

/-- What a history shows of the loop. -/
def runItems (history : List (SystemItem T)) : List (RunItem T) :=
  history.filterMap fun item =>
    match item with
    | .run item => some item
    | _ => none

theorem runItems_append (history items : List (SystemItem T)) :
    runItems (history ++ items) = runItems history ++ runItems items :=
  List.filterMap_append

theorem runItems_run (items : List (RunItem T)) : runItems (items.map .run) = items := by
  simp [runItems, List.filterMap_map]

theorem runItems_batch (items : List BatchItem) :
    runItems (items.map .batch : List (SystemItem T)) = [] := by
  simp [runItems, List.filterMap_map]

theorem mem_runItems {history : List (SystemItem T)} {item : RunItem T} :
    item ∈ runItems history ↔ .run item ∈ history := by
  rw [runItems, List.mem_filterMap]
  constructor
  · rintro ⟨shown, hshown, heq⟩
    cases shown with
    | run other =>
      cases heq
      exact hshown
    | _ => cases heq
  · intro hmem
    exact ⟨_, hmem, rfl⟩

/-- A dispatch is nothing to the loop. -/
theorem dispatch_run (spec : RunSpec) (s : AgentSystem T) (index instant : Nat) :
    (s.dispatch spec index instant).1.run = s.run ∧
      runItems (s.dispatch spec index instant).2 = [] := by
  unfold AgentSystem.dispatch
  split
  · split
    · refine ⟨rfl, ?_⟩
      dsimp only
      split <;> rfl
    · exact ⟨rfl, rfl⟩
  · exact ⟨rfl, rfl⟩

/-- A dispatched call waits for its `preToolUse` hooks, on a live signal only, or has settled. -/
theorem dispatch_eq (spec : RunSpec) (s : AgentSystem T) (index instant : Nat) :
    (s.dispatch spec index instant).1 = s ∨
      ∃ stage, (s.dispatch spec index instant).1 =
          { s with stages := s.stages.set index stage } ∧
        ((∃ data, stage = .preHook data ∧ s.run.handle.aborted = false) ∨
          ∃ outcome, stage = .settled outcome) := by
  unfold AgentSystem.dispatch
  split
  · next call hcall =>
    refine Or.inr ?_
    split
    · refine ⟨_, rfl, ?_⟩
      unfold enter
      split
      · exact Or.inr ⟨_, rfl⟩
      · next hlive =>
        split
        · exact Or.inl ⟨_, rfl, by simpa using hlive⟩
        · exact Or.inr ⟨_, rfl⟩
        · exact Or.inr ⟨_, rfl⟩
    · exact ⟨_, rfl, Or.inr ⟨_, rfl⟩⟩
  · exact Or.inl rfl

/-- All that a dispatch shows is the start of the hooks. -/
theorem dispatch_items (spec : RunSpec) (s : AgentSystem T) (index instant : Nat) :
    ∀ item ∈ (s.dispatch spec index instant).2, ∃ facts, item = .preToolUse index facts := by
  unfold AgentSystem.dispatch
  split
  · split
    · dsimp only
      split
      · intro item hitem
        exact ⟨_, List.mem_singleton.mp hitem⟩
      · nofun
    · nofun
  · nofun

/-- What holds of the stages before a dispatch, and of the one it sets, holds after it. -/
theorem mem_dispatch_stages {spec : RunSpec} {s : AgentSystem T} {index instant : Nat}
    {stage : CallStage} (h : stage ∈ (s.dispatch spec index instant).1.stages) :
    stage ∈ s.stages ∨ (∃ data, stage = .preHook data ∧ s.run.handle.aborted = false) ∨
      ∃ outcome, stage = .settled outcome := by
  rcases dispatch_eq spec s index instant with heq | ⟨new, heq, hnew⟩
  · rw [heq] at h
    exact Or.inl h
  · rw [heq] at h
    rcases List.mem_or_eq_of_mem_set h with h | rfl
    · exact Or.inl h
    · exact Or.inr hnew

/-- **Every block of the run is a block of the loop, or nothing to it.** -/
theorem refines_step {spec : RunSpec} {s : AgentSystem T} {label : SystemLabel T}
    {next : AgentSystem T × List (SystemItem T)} (h : Acted spec s label next) :
    (next.1.run = s.run ∧ runItems next.2 = []) ∨
      ∃ label', s.run.step spec.loop label' = some (next.1.run, runItems next.2) := by
  cases h with
  | @ran label ran hfree hstep hboundary hinterrupt =>
    rw [runItems_run]
    exact Or.inr ⟨label, hstep⟩
  | @opened ran hstep =>
    rw [runItems_run]
    refine Or.inr ⟨.boundaryReturns, ?_⟩
    have hrun : ({ s with run := ran.1 }.openBatch spec).run = ran.1 := by
      unfold AgentSystem.openBatch
      split <;> rfl
    rw [hrun]
    exact hstep
  | interrupted =>
    rw [runItems_run]
    refine Or.inr ⟨.interrupt, ?_⟩
    have hrun : ({ s with run := s.run.interrupt.1 }.forwardAbort spec).run = s.run.interrupt.1 := by
      unfold AgentSystem.forwardAbort
      split <;> rfl
    rw [hrun]
    rfl
  | @blocked _ _ _ _ _ items => exact Or.inl ⟨rfl, runItems_batch items⟩
  | @dispatched _ instant index _ b' =>
    obtain ⟨hrun, hitems⟩ := dispatch_run spec { s with batch := some b' } index instant
    exact Or.inl ⟨hrun, hitems⟩
  | settled => exact Or.inl ⟨rfl, rfl⟩
  | executed => exact Or.inl ⟨rfl, rfl⟩
  | gatePassed => exact Or.inl ⟨rfl, rfl⟩
  | returned => exact Or.inl ⟨rfl, rfl⟩
  | submitted => exact Or.inr ⟨.beginFinishing, rfl⟩
  | accepted => exact Or.inl ⟨rfl, rfl⟩
  | refused => exact Or.inr ⟨.cancelFinishing, rfl⟩
  | @batchReturned b results instant ran hbatch hreturned hstep =>
    rw [runItems_run]
    exact Or.inr ⟨_, hstep⟩

/-- An assembled run with all that it has shown. -/
abbrev SystemHistory (T : Type) := Recorded (AgentSystem T) (SystemItem T)

/-- The run as the loop sees it. -/
def SystemHistory.loop (r : SystemHistory T) : AgentHistory T :=
  { state := r.state.run, history := runItems r.history }

/-- **An assembled run refines a run of the loop with some executor.** -/
theorem refines_run {spec : RunSpec} {messages : List UserMessage}
    {ok : SystemHistory T → SystemLabel T → Prop} {labels : List (SystemLabel T)}
    {r : SystemHistory T}
    (run : Run (Recorded.step (AgentSystem.step spec)) ok (AgentSystem.start spec messages) labels
      r) :
    ∃ labels', Run (Recorded.step (AgentRun.step spec.loop)) Free
      (AgentRun.start spec.loop messages) labels' (SystemHistory.loop r) := by
  induction run with
  | nil =>
    refine ⟨[], ?_⟩
    have hstart : SystemHistory.loop (AgentSystem.start spec messages : SystemHistory T) =
        AgentRun.start spec.loop messages := by
      rw [SystemHistory.loop, AgentSystem.start, runItems_run]
    rw [hstart]
    exact .nil _
  | @snoc r r' ls label _ _ hstep ih =>
    obtain ⟨ls', ih⟩ := ih
    obtain ⟨state, items, hstate, rfl⟩ := Recorded.step_cases hstep
    rcases refines_step (acted_of_step hstate) with ⟨hrun, hitems⟩ | ⟨label', hlabel⟩
    · refine ⟨ls', ?_⟩
      have heq : SystemHistory.loop { state, history := r.history ++ items } =
          SystemHistory.loop r := by
        rw [SystemHistory.loop, SystemHistory.loop, runItems_append, hitems, List.append_nil]
        exact congrArg (fun run => ({ state := run, history := _ } : AgentHistory T)) hrun
      rw [heq]
      exact ih
    · refine ⟨ls' ++ [label'], .snoc ih trivial ?_⟩
      rw [Recorded.step, SystemHistory.loop, hlabel, SystemHistory.loop, runItems_append]
      rfl

/-! ## Concrete runs -/

/-- The assembly of the concrete runs: one ordinary tool, and one terminal tool. -/
def sampleSpec : RunSpec :=
  { tools := ["write"], terminal := some "submit", parse := fun call => .data (.obj call.input)
    maxTurns := 4, completionTimeoutMs := 0, stringify := fun _ => "" }

/-- A turn with these calls, by their ids and names, up to the first block of its batch. -/
def sampleTurn (calls : List (String × String)) : List (SystemLabel Unit) :=
  [.run (.complete
      ⟨{ role := .assistant, content := calls.map fun call => .toolUse call.1 call.2 [] }, rfl⟩
      ⟨1, 1, none, none⟩ none),
    .run .turnReturns, .run .boundaryReturns]

end EphemeralAgent.Runtime
