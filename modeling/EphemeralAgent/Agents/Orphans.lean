import EphemeralAgent.Agents.EngineStep
import EphemeralAgent.Lib.Update

/-!
# Child runs of an interrupted parent

When the signal of a batch has aborted, which of the child runs that the batch waits for have been
interrupted.  The listener is added only after `await child.start(..)`, and a listener that is added
to an aborted signal never fires; `createNodeHandle` of the same package looks at `signal.aborted`
before it adds its listener.

* `Attended` — no child run is awaited on an aborted signal without an interrupt
* `StartsLive` — no foreground `child.start(..)` resolves on an aborted signal
* `no_orphan` — **the first holds exactly in the runs in which the second does**
-/

namespace EphemeralAgent.Agents

open Lib Json Engine Tool EphemeralAgent.Runtime

variable {T : Type}

/-- The child of a foreground call that has come to its `await run.outcome()` is interrupted, if the
signal has aborted. -/
def ChildCall.Attended (aborted : Bool) (call : ChildCall) : Prop :=
  call.task.foreground = true → call.listening = true → aborted = true → call.interrupted = true

/-- **No child run of the run is orphaned.** -/
def Attended (run : EngineRun T) : Prop :=
  ∀ call ∈ run.calls, call.Attended run.system.run.handle.aborted

instance (aborted : Bool) (call : ChildCall) : Decidable (call.Attended aborted) :=
  inferInstanceAs (Decidable (_ → _ → _ → _))

instance (run : EngineRun T) : Decidable (Attended run) :=
  inferInstanceAs (Decidable (∀ call ∈ run.calls, _))

/-- When this `child.start(..)` resolves, a foreground call finds a live signal. -/
def EngineRun.StartsLive (run : EngineRun T) : RunEvent T → Prop
  | .startReturns k (.ok _) _ =>
    ∀ call, run.calls[k]? = some call → call.task.foreground = true →
      run.system.run.handle.aborted = false
  | _ => True

/-- So in every run of the factory. -/
def StartsLive (s : AgentEngine T) : EngineLabel T → Prop
  | .run position event => ∀ run, s.runs[position]? = some run → run.StartsLive event
  | .start .. => True

/-! ## One run -/

theorem attended_nil : ∀ run ∈ (AgentEngine.initial (T := T)).runs, Attended run := by
  intro run hrun
  cases hrun

section Step

variable {n : NumberText} {passes : AdvisorPassRegistry} {run : EngineRun T}

/-- A block of the system orphans no child, and no orphan is found again. -/
theorem attended_moved (h : Tended run) {label : SystemLabel T}
    {next : AgentSystem T × List (SystemItem T)} (hstep : run.system.step run.spec label = some next) :
    Attended (run.moved n passes next) ↔ Attended run := by
  have hsystem := (moved_same n passes run next).system
  rcases signal_of_acted h.wired (acted_of_step hstep) with ⟨haborted, hcalm⟩ | ⟨hlive, haborted, hitems⟩
  · obtain ⟨more, hmore, hstart⟩ := foldl_calls n passes { run with system := next.1 } hcalm
    unfold Attended
    rw [hsystem, haborted, EngineRun.moved, hmore, List.forall_mem_append]
    -- the calls that have just started have no listener yet
    refine and_iff_left fun call hcall _ hlistening => ?_
    obtain ⟨index, task, rfl⟩ := hstart call hcall
    cases hlistening
  · obtain ⟨system, items⟩ := next
    obtain rfl : items = [.run .interrupted] := hitems
    rw [moved_of_interrupt]
    constructor
    · intro _ call _ _ _ hnow
      rw [hlive] at hnow
      cases hnow
    · intro _ call hcall _ hlistening _
      obtain ⟨old, -, rfl⟩ := List.mem_map.mp hcall
      have hold : old.listening = true := hlistening
      simp [ChildCall.abort, hold]

theorem attended_finish {k : Nat} {call : ChildCall} (hcall : run.calls[k]? = some call)
    (result : Except String ToolResult) (instant : Nat) :
    Attended (run.finish k call result instant) ↔ Attended run := by
  obtain ⟨stages, heq, -⟩ := answer_system
    { run with calls := run.calls.set k { call with stage := .returned } } call.index result instant
  unfold EngineRun.finish
  rw [heq]
  have hcalls := forall_mem_set_iff (P := ChildCall.Attended run.system.run.handle.aborted)
    (y := { call with stage := .returned }) hcall (and_iff_left trivial).symm
  exact hcalls.trans (and_iff_left trivial)

/-- An event that is not the end of a `child.start(..)` finds nothing to object to. -/
theorem startsLive_of_ne {event : RunEvent T}
    (h : ∀ k value instant, event ≠ .startReturns k (.ok value) instant) : run.StartsLive event := by
  unfold EngineRun.StartsLive
  split
  · next k value instant => exact absurd rfl (h k value instant)
  · trivial

/-- **Only a `child.start(..)` that resolves on an aborted signal orphans a child.** -/
theorem attended_step {event : RunEvent T} {run' : EngineRun T} {passes' : AdvisorPassRegistry}
    {items : List EngineItem} (h : Tended run)
    (hmoved : RunMoved n passes run event run' passes' items) :
    Attended run' ↔ Attended run ∧ run.StartsLive event := by
  cases hmoved with
  | system _ label next hstep hlabel hevent =>
    rw [attended_moved h hstep]
    exact (and_iff_left (startsLive_of_ne hevent)).symm
  | ran k call hcall =>
    exact forall_mem_set_iff hcall (and_iff_left trivial).symm
  | started k call instant hcall hstage =>
    obtain ⟨hlistening, hinterrupted⟩ := h.starting call (List.mem_of_getElem? hcall) hstage
    refine forall_mem_set_iff hcall ?_
    have hold : call.Attended run.system.run.handle.aborted := fun _ hnow => by
      rw [hlistening] at hnow
      cases hnow
    rw [and_iff_right hold]
    -- nothing has called `interrupt()` before the listener is there
    have hnever : call.started.interrupted = false := hinterrupted
    constructor
    · intro hnew other hother hforeground
      obtain rfl := Option.some.inj (hcall.symm.trans hother)
      by_contra haborted
      rw [Bool.not_eq_false] at haborted
      rw [hnew hforeground rfl haborted] at hnever
      cases hnever
    · intro hlive hforeground _ haborted
      rw [hlive call hcall hforeground] at haborted
      cases haborted
  | finished _ k call result instant _ hcall hitems hevent =>
    rw [attended_finish hcall]
    exact (and_iff_left (startsLive_of_ne hevent)).symm
  | passed _ k call result instant submission outcome hcall hpasses hevent =>
    rw [attended_finish hcall]
    exact (and_iff_left (startsLive_of_ne hevent)).symm

end Step

/-! ## All runs -/

section Runs

variable {n : NumberText} {ok : Recorded (AgentEngine T) EngineItem → EngineLabel T → Prop}
  {labels : List (EngineLabel T)} {r : Recorded (AgentEngine T) EngineItem}

/-- **No child run is orphaned, exactly in the runs in which no foreground `child.start(..)` resolves
on an aborted signal.** -/
theorem no_orphan (run : Run (Recorded.step (AgentEngine.step n)) Free ⟨.initial, []⟩ labels r) :
    (∀ engineRun ∈ r.state.runs, Attended engineRun) ↔
      Run (Recorded.step (AgentEngine.step n)) (fun r label => StartsLive r.state label)
        ⟨.initial, []⟩ labels r := by
  refine run.kept_iff (P := fun r => ∀ engineRun ∈ r.state.runs, Attended engineRun) attended_nil ?_
  intro before r label r' hbefore hstep
  have htended := tended_of_run hbefore
  obtain ⟨state, items, hstate, rfl⟩ := Recorded.step_cases hstep
  rcases engine_step_cases hstate with
    ⟨agentRunId, spec, advisory, messages, rfl, -, -, rfl⟩ |
    ⟨position, event, moving, moved, passes', rfl, hposition, hmoved, rfl⟩
  · have hstart : Attended (EngineRun.start (T := T) agentRunId spec advisory messages) := nofun
    rw [List.forall_mem_append, List.forall_mem_singleton]
    exact and_congr_right fun _ => iff_of_true hstart trivial
  · have hmoving := htended moving (List.mem_of_getElem? hposition)
    have hlive : StartsLive r.state (.run position event) ↔ moving.StartsLive event := by
      constructor
      · intro h
        exact h moving hposition
      · intro h other hother
        obtain rfl := Option.some.inj (hposition.symm.trans hother)
        exact h
    rw [hlive]
    exact forall_mem_set_iff hposition (attended_step hmoving hmoved)

end Runs

/-! ## A child of each kind -/

/-- A run that may start subagents. -/
def parentSpec : RunSpec :=
  { sampleSpec with tools := ["run_subagent"] }

/-- The parent calls `run_subagent`, and the child is started. -/
def subagentRuns : List (EngineLabel Unit) :=
  [.start "parent" parentSpec false [⟨userText "go", userText_role "go"⟩],
    .run 0 (.system (.run (.complete
      ⟨{ role := .assistant
         content := [.toolUse "a" "run_subagent" [("agent_name", .str "helper")]] }, rfl⟩
      ⟨1, 1, none, none⟩ none))),
    .run 0 (.system (.run .turnReturns)), .run 0 (.system (.run .boundaryReturns)),
    .run 0 (.system (.block .spawn 1)), .run 0 (.hooksReturn 0 [] 2), .run 0 (.childRuns 0)]

/-- A call waits for its child on an aborted signal. -/
def waitsAborted (s : AgentEngine Unit) : Bool :=
  s.runs.any fun run => run.system.run.handle.aborted &&
    run.calls.any fun call => call.task.foreground && call.listening && call.stage == .waiting

/-- The interrupt comes after the child has been started, and reaches it. -/
theorem no_orphan_waiting :
    ∃ r : Recorded (AgentEngine Unit) EngineItem, waitsAborted r.state = true ∧
      Run (Recorded.step (AgentEngine.step quotients)) (fun r label => StartsLive r.state label)
        ⟨.initial, []⟩
        (subagentRuns ++ [.run 0 (.startReturns 0 (.ok ()) 3), .run 0 (.system (.run .interrupt))])
        r := by
  obtain ⟨r, run, hr⟩ := exists_run (Recorded.step (AgentEngine.step quotients)) Free
    ⟨.initial, []⟩
    (subagentRuns ++ [.run 0 (.startReturns 0 (.ok ()) 3), .run 0 (.system (.run .interrupt))])
    (fun r => waitsAborted r.state && r.state.runs.all fun run => decide (Attended run))
    (by decide +kernel)
  rw [Bool.and_eq_true, List.all_eq_true] at hr
  obtain ⟨hwaits, hall⟩ := hr
  exact ⟨r, hwaits, (no_orphan run).mp fun run hrun => of_decide_eq_true (hall run hrun)⟩

/-- The interrupt comes while the child is being started, and never reaches it. -/
theorem orphan_of_interrupted_start :
    ∃ r : Recorded (AgentEngine Unit) EngineItem,
      Run (Recorded.step (AgentEngine.step quotients)) Free ⟨.initial, []⟩
        (subagentRuns ++ [.run 0 (.system (.run .interrupt)), .run 0 (.startReturns 0 (.ok ()) 3)])
        r ∧
      waitsAborted r.state = true ∧ ¬ ∀ engineRun ∈ r.state.runs, Attended engineRun := by
  obtain ⟨r, run, hr⟩ := exists_run (Recorded.step (AgentEngine.step quotients)) Free
    ⟨.initial, []⟩
    (subagentRuns ++ [.run 0 (.system (.run .interrupt)), .run 0 (.startReturns 0 (.ok ()) 3)])
    (fun r => waitsAborted r.state && !r.state.runs.all fun run => decide (Attended run))
    (by decide +kernel)
  rw [Bool.and_eq_true, Bool.not_eq_true'] at hr
  obtain ⟨hwaits, horphan⟩ := hr
  refine ⟨r, run, hwaits, fun hall => ?_⟩
  rw [List.all_eq_true.mpr fun run hrun => decide_eq_true (hall run hrun)] at horphan
  cases horphan

end EphemeralAgent.Agents
