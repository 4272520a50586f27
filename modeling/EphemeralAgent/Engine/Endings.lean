import EphemeralAgent.Engine.Steers

/-!
# How the loop ends

A run is cancelled, completes with its final text or with what the terminal tool has accepted, or
fails.  It does not fail on an aborted signal, except for a terminal result that came without a
value.

* `Ending` — the statuses that a block may finish with
* `ending_step` — every finish has one of them
* `notText_of_run` — with a terminal tool a text is none of them
-/

namespace EphemeralAgent.Engine

open Lib LlmClient Notification

variable {T : Type}

/-- How a block may end the run. -/
inductive Ending (cfg : LoopConfig) (s : AgentRun T) (label : RunLabel T) : FinishStatus T → Prop
  | cancelled : Ending cfg s label .cancelled
  | text (text : String) (hmode : cfg.mode = .text) : Ending cfg s label (.completed (.text text))
  | accepted (value : T) (results : List ToolCallResult) (instant : Nat)
      (hlabel : label = .batchReturns results (some value) instant) :
      Ending cfg s label (.completed (.accepted value))
  | failed (error : AgentRunError) (hlive : s.handle.aborted = false) :
      Ending cfg s label (.failed error)
  /-- A terminal result without an accepted submission. -/
  | unaccepted (error : AgentRunError) (calls : List ToolUseBlock) (results : List ToolCallResult)
      (accepted : Option T) (instant : Nat) (hphase : s.phase = .batch calls)
      (hlabel : label = .batchReturns results accepted instant)
      (hterminal : (normalizeBatch calls results instant).any (·.isTerminal) = true) :
      Ending cfg s label (.failed error)

/-- Every finish among the items has such a status. -/
def EndsBy (p : FinishStatus T → Prop) (items : List (RunItem T)) : Prop :=
  ∀ outcome gate, .finished outcome gate ∈ items → p outcome.status

section EndsBy

variable {cfg : LoopConfig} {s : AgentRun T} {p : FinishStatus T → Prop}
  {items more : List (RunItem T)}

theorem EndsBy.append (h : EndsBy p items) (hmore : EndsBy p more) : EndsBy p (items ++ more) := by
  intro outcome gate hmem
  rcases List.mem_append.mp hmem with hmem | hmem
  · exact h outcome gate hmem
  · exact hmore outcome gate hmem

theorem endsBy_quiet (h : ∀ item ∈ items, item.isQuiet = true) : EndsBy p items :=
  fun _ _ hmem => absurd (h _ hmem) nofun

theorem endsBy_exit (status : FinishStatus T) (h : p status) : EndsBy p (s.exit status).2 := by
  intro outcome gate hmem
  rcases mem_exit hmem with ⟨-, heq⟩ | ⟨shown, heq⟩
  · cases heq
    exact h
  · cases heq

theorem endsBy_salvage (aborted : Bool) (error : LoopError) (text reasoning : String) :
    EndsBy p (AgentRun.salvage aborted error text reasoning : List (RunItem T)) := by
  refine endsBy_quiet fun item hitem => ?_
  obtain ⟨reason, message, rfl⟩ := mem_salvage hitem
  rfl

/-- What the loop catches on an aborted signal is no failure. -/
theorem endsBy_fail {label : RunLabel T} (error : LoopError) :
    EndsBy (Ending cfg s label) (s.fail error).2 := by
  refine endsBy_exit _ ?_
  unfold classifyLoopError
  by_cases haborted : s.handle.aborted = true
  · rw [if_pos haborted]
    exact .cancelled
  · rw [if_neg haborted]
    have hlive : s.handle.aborted = false := by simpa using haborted
    cases error with
    | provider message => exact .failed _ hlive
    | other message => exact .failed _ hlive

theorem endsBy_loopHead {run : AgentRun T} {label : RunLabel T}
    (hsame : s.handle.aborted = run.handle.aborted) :
    EndsBy (Ending cfg run label) (s.loopHead cfg).2 := by
  have hdrain : EndsBy (Ending cfg run label) (s.drain cfg).2 := by
    obtain ⟨notes, -, -, heq⟩ := drain_conversation cfg s
    refine endsBy_quiet fun item hitem => ?_
    rw [heq, List.mem_append] at hitem
    rcases hitem with hitem | hitem <;> obtain ⟨_, -, rfl⟩ := List.mem_map.mp hitem <;> rfl
  have hhead := loopHead_head cfg s
  generalize s.loopHead cfg = next at hhead
  cases hhead with
  | cancelled => exact endsBy_exit _ .cancelled
  | completed message _ hmode => exact hdrain.append (endsBy_exit _ (.text _ hmode))
  | parked => exact hdrain
  | turn hlive =>
    refine hdrain.append ?_
    unfold AgentRun.startTurn
    split
    · exact endsBy_exit _ (.failed _ (hsame ▸ hlive))
    · exact endsBy_quiet (by simp [RunItem.isQuiet])

theorem endsBy_commitTurn {label : RunLabel T} (message : AssistantMessage)
    (usage : UsageSnapshot) : EndsBy (Ending cfg s label) (s.commitTurn cfg message usage).2 := by
  have hafter : ∀ {more : List (RunItem T)}, EndsBy (Ending cfg s label) more →
      EndsBy (Ending cfg s label) ([.appended (.assistant message), .committed usage] ++ more) :=
    fun h => EndsBy.append (endsBy_quiet (by simp [RunItem.isQuiet])) h
  unfold AgentRun.commitTurn
  dsimp only
  split
  · split
    · next hopen => exact hafter (endsBy_exit _ (.text _ hopen.1))
    · exact hafter (endsBy_quiet (by simp [RunItem.isQuiet]))
  · exact hafter (endsBy_quiet (by simp [RunItem.isQuiet]))

theorem endsBy_commitBatch {calls : List ToolUseBlock} (hphase : s.phase = .batch calls)
    (results : List ToolCallResult) (accepted : Option T) (instant : Nat) :
    EndsBy (Ending cfg s (.batchReturns results accepted instant))
      (s.commitBatch cfg calls results accepted instant).2 := by
  have hafter : ∀ (blocks : List ToolResultBlock) {more : List (RunItem T)},
      EndsBy (Ending cfg s (.batchReturns results accepted instant)) more →
      EndsBy (Ending cfg s (.batchReturns results accepted instant))
        ((s.appendToolResults blocks).2 ++ more) := fun blocks more hmore =>
    EndsBy.append (endsBy_quiet (by simp [AgentRun.appendToolResults, RunItem.isQuiet])) hmore
  unfold AgentRun.commitBatch
  dsimp only
  split
  · next hterminal =>
    split
    · exact hafter _ (endsBy_exit _ (.accepted _ results instant rfl))
    · exact hafter _ (endsBy_exit _
        (.unaccepted _ calls results _ instant hphase rfl hterminal))
  · split
    · exact hafter _ (endsBy_exit _ .cancelled)
    · exact hafter _ (endsBy_loopHead rfl)

/-- **Every finish of a run is one of the endings of its block.** -/
theorem ending_step {label : RunLabel T} {next : AgentRun T × List (RunItem T)}
    (h : s.step cfg label = some next) : EndsBy (Ending cfg s label) next.2 := by
  cases fired_of_step h with
  | textDelta | reasoningDelta | toolUseDelta | complete | dispatched =>
    exact endsBy_quiet (by simp [RunItem.isQuiet])
  | streamEnded => exact (endsBy_salvage _ _ _ _).append (endsBy_fail _)
  | turnReturns => exact endsBy_commitTurn _ _
  | turnThrows => exact (endsBy_salvage _ _ _ _).append (endsBy_fail _)
  | batchThrows => exact endsBy_fail _
  | rested => exact endsBy_loopHead rfl
  | batchReturns results accepted instant hphase => exact endsBy_commitBatch hphase _ _ _
  | wakes => exact endsBy_loopHead rfl
  | _ =>
    obtain ⟨-, hitems⟩ := outside_step rfl h
    rintro outcome gate hmem
    cases hitems _ hmem

/-- **A run with a terminal tool does not complete with a text.** -/
theorem notText_of_run {messages : List UserMessage} {ok : AgentHistory T → RunLabel T → Prop}
    {labels : List (RunLabel T)} {r : AgentHistory T} (hmode : cfg.mode = .terminal)
    (run : Run (Recorded.step (AgentRun.step cfg)) ok (AgentRun.start cfg messages) labels r) :
    EndsBy (fun status => ∀ text, status ≠ .completed (.text text)) r.history := by
  have hending : ∀ {s : AgentRun T} {label : RunLabel T} {items : List (RunItem T)},
      EndsBy (Ending cfg s label) items →
        EndsBy (fun status => ∀ text, status ≠ .completed (.text text)) items := by
    intro s label items h outcome gate hmem text heq
    have hstatus := h outcome gate hmem
    rw [heq] at hstatus
    cases hstatus with
    | text _ htext => exact absurd (hmode.symm.trans htext) nofun
  refine run.invariant (I := fun r =>
    EndsBy (fun status => ∀ text, status ≠ .completed (.text text)) r.history) ?_ ?_
  · have hhead : EndsBy (Ending cfg (AgentRun.fresh (T := T) messages) .interrupt)
        ((AgentRun.fresh (T := T) messages).loopHead cfg).2 := endsBy_loopHead rfl
    refine EndsBy.append (endsBy_quiet fun item hitem => ?_) (hending hhead)
    obtain ⟨message, -, rfl⟩ := List.mem_map.mp hitem
    rfl
  · intro r label r' _ h hstep
    obtain ⟨state, items, hstate, rfl⟩ := Recorded.step_cases hstep
    exact h.append (hending (ending_step hstate))

end EndsBy

end EphemeralAgent.Engine
