import EphemeralAgent.Engine.Steers
import EphemeralAgent.Runtime.SystemStep
import EphemeralAgent.Tool.BatchInvariant

/-!
# How the parts of a run fit together

* `Wired` — the batch is the one the loop waits for, it sees the signal of the run, and only the
  terminal call that it runs can be on its way to `onSubmit`
* `wired_step`, `wired_of_run` — every block keeps it
-/

namespace EphemeralAgent.Runtime

open Lib Engine Tool

variable {T : Type}

/-- A call in this stage may still call `onSubmit`, or has called it. -/
def RunSpec.submits (spec : RunSpec) (call : Option ToolUseBlock) : CallStage → Bool
  | .preHook _ => call.any spec.isTerminal
  | .vetting _ => true
  | .submitting _ => true
  | _ => false

/-- The call with this index is on its way to `onSubmit`, or in it. -/
def Submits (spec : RunSpec) (s : AgentSystem T) (index : Nat) : Prop :=
  ∃ stage, s.stages[index]? = some stage ∧ spec.submits (s.call index) stage = true

/-- The terminal call that the batch runs. -/
def Current (s : AgentSystem T) (index : Nat) : Prop :=
  ∃ b position, s.batch = some b ∧ b.batch.phase = .terminalRunning position ∧
    b.batch.terminal[position]? = some index

/-- The batch has returned. -/
def Returned (b : BatchRun) : Prop :=
  ∃ results, b.batch.phase = .returned results

/-- The invariant of the assembly. -/
structure Wired (spec : RunSpec) (s : AgentSystem T) : Prop where
  live : Live s.run
  sound : ∀ b, s.batch = some b → Sound b.batch.calls spec.terminal b
  signal : ∀ b, s.batch = some b → b.aborted = s.run.handle.aborted
  waiting : ∀ b, s.batch = some b → Returned b ∨ s.run.phase = .batch b.batch.calls
  current : ∀ index, Submits spec s index → Current s index

/-! ## The batch, block by block -/

section Batch

variable {tools : List String} {b b' : BatchRun}

/-- A block leaves the signal alone. -/
theorem block_aborted {label : BatchLabel} (h : b.step tools (.block label) = some b') :
    b'.aborted = b.aborted := by
  obtain ⟨next, -, rfl⟩ := Option.map_eq_some_iff.mp h
  rfl

/-- A batch that has returned stays so. -/
theorem stepped_returned (h : Stepped tools b b') (hreturned : Returned b) : Returned b' := by
  obtain ⟨results, hphase⟩ := hreturned
  have henters : ∀ {lane phase}, Enters b.batch lane phase → phase = .returned results := by
    rintro lane phase (⟨hstarting, -⟩ | ⟨-, rfl⟩)
    · exact absurd (hphase.symm.trans hstarting) nofun
    · exact hphase
  cases h with
  | dispatched lane index phase _ _ henter => exact ⟨results, henters henter⟩
  | finished lane phase _ henter => exact ⟨results, henters henter⟩
  | submitted _ _ _ hturn | finishedAll _ _ hturn =>
    rcases hturn with ⟨hracing, -⟩ | ⟨_, hreturning, -⟩
    · exact absurd (hphase.symm.trans hracing) nofun
    · exact absurd (hphase.symm.trans hreturning) nofun
  | completedTerminal _ _ _ _ _ _ hrunning | droppedTerminal _ _ _ hrunning | cut _ _ hrunning =>
    exact absurd (hphase.symm.trans hrunning) nofun
  | completed | dropped | stopped | aborted => exact ⟨results, hphase⟩

/-- Only its own settling ends the terminal call that a batch runs. -/
theorem running_kept {label : BatchLabel} {position : Nat}
    (h : b.step tools (.block label) = some b') (hphase : b.batch.phase = .terminalRunning position)
    (hlabel : ∀ outcome instant, label ≠ .resolveTerminal outcome instant) :
    b'.batch.phase = .terminalRunning position := by
  obtain ⟨next, hnext, rfl⟩ := Option.map_eq_some_iff.mp h
  cases label with
  | spawn =>
    rw [Batch.step, hphase] at hnext
    cases hnext
  | resolve lane outcome instant =>
    simp only [Batch.step] at hnext
    split at hnext
    · obtain ⟨call, -, rfl⟩ := Option.map_eq_some_iff.mp hnext
      unfold Batch.record
      split <;> exact hphase
    · cases hnext
  | resume lane =>
    simp only [Batch.step] at hnext
    split at hnext
    · cases hnext
      exact claim_phase.trans hphase
    · cases hnext
      exact hphase
    · cases hnext
  | proceed instant =>
    rw [Batch.step, hphase] at hnext
    cases hnext
  | resolveTerminal outcome instant => exact absurd rfl (hlabel outcome instant)
  | resumeTerminal instant =>
    rw [Batch.step, hphase] at hnext
    cases hnext

/-- The call that a block dispatches: an ordinary one, or the next terminal one. -/
theorem stepped_started {index : Nat} (h : Stepped tools b b')
    (hhistory : b'.history = b.history ++ [.started index]) :
    (index ∈ b.batch.ordinary ∧ ∃ lane phase, Enters b.batch lane phase ∧
        b'.batch.phase = phase) ∨
      ∃ position, Turn b position ∧ b.batch.terminal[position]? = some index ∧
        b'.batch.phase = .terminalRunning position := by
  have hsame : ∀ {items : List BatchItem}, b.history ++ items = b.history ++ [.started index] →
      items = [.started index] := fun heq => List.append_cancel_left heq
  cases h with
  | dispatched lane claimed phase _ hnext henters =>
    cases hsame hhistory
    exact Or.inl ⟨List.mem_of_getElem? hnext, lane, phase, henters, rfl⟩
  | submitted position claimed _ hturn hnext =>
    cases hsame hhistory
    exact Or.inr ⟨position, hturn, hnext, rfl⟩
  | completed | dropped | completedTerminal | droppedTerminal | aborted =>
    cases hsame hhistory
  | finished | stopped | finishedAll | cut =>
    have hnil : ([] : List BatchItem) = [.started index] :=
      hsame ((List.append_nil _).trans hhistory)
    cases hnil

end Batch

/-! ## The loop while a batch is open -/

section Loop

variable {cfg : LoopConfig} {run : AgentRun T} {label : RunLabel T}
  {next : AgentRun T × List (RunItem T)}

theorem cancelFinishing_step (cfg : LoopConfig) (run : AgentRun T) :
    run.step cfg .cancelFinishing =
      some ({ run with handle := run.handle.cancelFinishing }, []) := rfl

/-- **While the loop waits for its batch, only the batch moves it.** -/
theorem outside_of_batch {calls : List ToolUseBlock} (hphase : run.phase = .batch calls)
    (hfree : free run label = true) (h : run.step cfg label = some next) :
    label.isInside = false := by
  cases label with
  | throws error =>
    rw [free, hphase] at hfree
    cases hfree
  | batchReturns => cases hfree
  | delta | complete | streamEnded | turnReturns | boundaryReturns | wakes =>
    simp [AgentRun.step, hphase] at h
  | _ => rfl

theorem phase_kept {calls : List ToolUseBlock} (hphase : run.phase = .batch calls)
    (hfree : free run label = true) (h : run.step cfg label = some next) :
    next.1.phase = .batch calls := by
  obtain ⟨houtside, -⟩ := outside_step (outside_of_batch hphase hfree h) h
  exact houtside.phase.trans hphase

/-- A loop that has exited is moved by nothing. -/
theorem outside_of_exited (hlive : Live run) (hphase : run.phase = .exited)
    (h : run.step cfg label = some next) : label.isInside = false := by
  cases hinside : label.isInside with
  | false => rfl
  | true =>
    have hblock := step_block h
    rw [hinside] at hblock
    have hfinished := live_of_block hlive hblock
    rcases hlive with ⟨-, hne⟩ | ⟨hdone, -⟩
    · exact absurd hphase hne
    · exact absurd (hfinished.symm.trans hdone) nofun

end Loop

/-! ## Stages -/

section Stages

variable {spec : RunSpec} {s s' : AgentSystem T}

theorem call_of_calls {b b' : BatchRun} (hbatch : s.batch = some b) (hbatch' : s'.batch = some b')
    (hcalls : b'.batch.calls = b.batch.calls) (index : Nat) : s'.call index = s.call index := by
  simp [AgentSystem.call, hbatch, hbatch', hcalls]

/-- The terminal calls of a batch are the calls of the terminal tool. -/
theorem mem_terminal {b : BatchRun} {call : ToolUseBlock} {index : Nat}
    (hbatch : s.batch = some b) (hname : b.batch.terminalName = spec.terminal)
    (hcall : s.call index = some call) :
    index ∈ b.batch.terminal ↔ spec.isTerminal call = true := by
  have hget : b.batch.calls[index]? = some call := by
    simpa [AgentSystem.call, hbatch] using hcall
  obtain ⟨hlt, -⟩ := List.getElem?_eq_some_iff.mp hget
  rw [mem_terminalCalls]
  unfold isTerminalCall RunSpec.isTerminal
  rw [hget, hname]
  cases spec.terminal with
  | none => simp
  | some name =>
    simp only [hlt, true_and, Option.some_beq_some, beq_iff_eq]
    exact eq_comm

/-- **What a new stage of one call changes.** -/
theorem submits_set {i j : Nat} {stage : CallStage} (hcall : ∀ k, s'.call k = s.call k)
    (hstages : s'.stages = s.stages.set i stage) (h : Submits spec s' j) :
    Submits spec s j ∨ (j = i ∧ spec.submits (s.call i) stage = true) := by
  obtain ⟨found, hfound, hsubmits⟩ := h
  rw [hstages, List.getElem?_set] at hfound
  rw [hcall] at hsubmits
  split at hfound
  · next heq =>
    subst heq
    split at hfound
    · cases hfound
      exact Or.inr ⟨rfl, hsubmits⟩
    · cases hfound
  · exact Or.inl ⟨found, hfound, hsubmits⟩

end Stages

/-! ## Every block -/

section Step

variable {spec : RunSpec} {s : AgentSystem T}

/-- A block that moves the loop alone. -/
theorem Wired.moved (h : Wired spec s) {run : AgentRun T} (hlive : Live run)
    (haborted : run.handle.aborted = s.run.handle.aborted)
    (hphase : ∀ calls, s.run.phase = .batch calls → run.phase = .batch calls) :
    Wired spec { s with run } where
  live := hlive
  sound := h.sound
  signal := fun b hb => (h.signal b hb).trans haborted.symm
  waiting := fun b hb => (h.waiting b hb).imp_right (hphase _)
  current := h.current

/-- A block that moves one call. -/
theorem Wired.staged (h : Wired spec s) (index : Nat) (stage : CallStage)
    (hsubmits : spec.submits (s.call index) stage = true → Current s index) :
    Wired spec { s with stages := s.stages.set index stage } where
  live := h.live
  sound := h.sound
  signal := h.signal
  waiting := h.waiting
  current := by
    intro i hi
    have hcall : ∀ k, AgentSystem.call { s with stages := s.stages.set index stage } k =
        s.call k := fun _ => rfl
    rcases submits_set hcall rfl hi with hi | ⟨rfl, hnew⟩
    · exact h.current i hi
    · exact hsubmits hnew

/-- A block of the batch that settles a call knows that the call has settled. -/
theorem settled_of_resolve {b : BatchRun} {part : BatchPart} {instant resolved position index : Nat}
    {outcome : Except String PipelineResult}
    (hlabel : s.batchLabel b instant part = some (.resolveTerminal outcome resolved))
    (hphase : b.batch.phase = .terminalRunning position)
    (hindex : b.batch.terminal[position]? = some index) :
    s.stages[index]? = some (.settled outcome) := by
  cases part with
  | resolve lane =>
    simp only [AgentSystem.batchLabel] at hlabel
    split at hlabel
    · split at hlabel <;> cases hlabel
    · cases hlabel
  | resolveTerminal =>
    simp only [AgentSystem.batchLabel, hphase, hindex, Option.bind_some] at hlabel
    split at hlabel
    · next hstage =>
      cases hlabel
      exact hstage
    · cases hlabel
  | _ => cases hlabel

/-- A block that moves the batch. -/
theorem Wired.batched (h : Wired spec s) {b b' : BatchRun} (hbatch : s.batch = some b)
    {part : BatchPart} {instant : Nat} {label : BatchLabel}
    (hlabel : s.batchLabel b instant part = some label)
    (hstep : b.step spec.bound (.block label) = some b') :
    Wired spec { s with batch := some b' } := by
  have hstepped := stepped_of_step hstep
  have hsound := sound_step (h.sound b hbatch) hstepped
  have hname : b.batch.terminalName = spec.terminal := (h.sound b hbatch).terminalName_eq
  refine ⟨h.live, ?_, ?_, ?_, ?_⟩
  · intro other hother
    cases hother
    rw [hsound.calls_eq]
    exact hsound
  · intro other hother
    cases hother
    rw [block_aborted hstep]
    exact h.signal b hbatch
  · intro other hother
    cases hother
    rw [hsound.calls_eq]
    exact (h.waiting b hbatch).imp_left (stepped_returned hstepped)
  · rintro index ⟨stage, hstage, hsubmits⟩
    rw [call_of_calls (s := s) hbatch rfl hsound.calls_eq] at hsubmits
    obtain ⟨other, position, hother, hphase, hindex⟩ := h.current index ⟨stage, hstage, hsubmits⟩
    obtain rfl := Option.some.inj (hbatch.symm.trans hother)
    refine ⟨b', position, rfl, running_kept hstep hphase ?_, ?_⟩
    -- the batch does not see the call settle before it has
    · rintro outcome resolved rfl
      have hsettled := settled_of_resolve hlabel hphase hindex
      cases Option.some.inj (hstage.symm.trans hsettled)
      cases hsubmits
    · rw [Batch.terminal, hsound.calls_eq, hsound.terminalName_eq, ← hname]
      exact hindex

/-- A block in which the batch dispatches a call. -/
theorem Wired.dispatched (h : Wired spec s) {b b' : BatchRun} (hbatch : s.batch = some b)
    {part : BatchPart} {instant index : Nat} {label : BatchLabel}
    (hlabel : s.batchLabel b instant part = some label)
    (hstep : b.step spec.bound (.block label) = some b')
    (hhistory : b'.history = b.history ++ [.started index]) :
    Wired spec ({ s with batch := some b' }.dispatch spec index instant).1 := by
  have hmoved := h.batched hbatch hlabel hstep
  have hsound := h.sound b hbatch
  have hsound' := sound_step hsound (stepped_of_step hstep)
  have hterminal : b'.batch.terminal = b.batch.terminal := by
    rw [Batch.terminal, Batch.terminal, hsound'.calls_eq, hsound'.terminalName_eq,
      hsound.terminalName_eq]
  unfold AgentSystem.dispatch
  split
  · next call hcall =>
    split
    · refine hmoved.staged _ _ fun hsubmits => ?_
      rw [hcall] at hsubmits
      have hcalled : spec.isTerminal call = true := by
        unfold enter at hsubmits
        split at hsubmits
        · cases hsubmits
        · split at hsubmits
          · exact hsubmits
          · cases hsubmits
          · cases hsubmits
      have hmem := (mem_terminal (s := { s with batch := some b' }) rfl hsound'.terminalName_eq
        hcall).mpr hcalled
      rcases stepped_started (stepped_of_step hstep) hhistory with
        ⟨hordinary, -⟩ | ⟨position, -, hindex, hphase⟩
      · rw [hterminal] at hmem
        exact absurd hmem (not_terminal_of_ordinary hordinary)
      · exact ⟨b', position, rfl, hphase, hterminal ▸ hindex⟩
    · exact hmoved.staged _ _ fun hsubmits => by cases hsubmits
  · exact hmoved

/-- The abort of the run reaches its batch in the same block. -/
theorem Wired.interrupted (h : Wired spec s) :
    Wired spec ({ s with run := s.run.interrupt.1 }.forwardAbort spec) := by
  have hstep : s.run.step spec.loop .interrupt = some s.run.interrupt := rfl
  have hlive : Live s.run.interrupt.1 := live_step h.live hstep
  have hphase := (outside_interrupt s.run).1.phase
  unfold AgentSystem.forwardAbort
  split
  · next hnew =>
    -- the signal is all that an abort changes in a batch
    have hbatch : ∀ b', s.batch.map (fun b => (b.step spec.bound .abort).getD b) = some b' →
        ∃ b, s.batch = some b ∧ b'.batch = b.batch ∧ b'.aborted = true ∧
          Sound b.batch.calls spec.terminal b' := by
      intro b' hb'
      obtain ⟨b, hb, rfl⟩ := Option.map_eq_some_iff.mp hb'
      have hsound := h.sound b hb
      refine ⟨b, hb, ?_⟩
      cases hold : b.aborted with
      | true =>
        have hstep : b.step spec.bound .abort = none := by
          rw [BatchRun.step, hold]
          rfl
        rw [hstep]
        exact ⟨rfl, hold, hsound⟩
      | false =>
        have hstep : b.step spec.bound .abort =
            some { b with aborted := true, history := b.history ++ [.aborted] } := by
          rw [BatchRun.step, hold]
          rfl
        rw [hstep]
        exact ⟨rfl, rfl, sound_step hsound (stepped_of_step hstep)⟩
    refine ⟨hlive, ?_, ?_, ?_, ?_⟩
    · intro b' hb'
      obtain ⟨b, -, heq, -, hsound⟩ := hbatch b' hb'
      rw [heq]
      exact hsound
    · intro b' hb'
      obtain ⟨b, -, -, haborted, -⟩ := hbatch b' hb'
      exact haborted.trans hnew.symm
    · intro b' hb'
      obtain ⟨b, hb, heq, -⟩ := hbatch b' hb'
      show Returned b' ∨ s.run.interrupt.1.phase = _
      rw [hphase, heq, Returned, heq]
      exact h.waiting b hb
    · rintro index ⟨stage, hstage, hsubmits⟩
      -- so the calls keep their indices
      have hcall : AgentSystem.call
          { s with
            run := s.run.interrupt.1
            batch := s.batch.map fun b => (b.step spec.bound .abort).getD b } index =
          s.call index := by
        unfold AgentSystem.call
        cases hb : s.batch with
        | none => rfl
        | some b =>
          obtain ⟨other, hother, heq, -⟩ := hbatch _ (by rw [hb]; rfl)
          cases hb.symm.trans hother
          show (BatchRun.batch _).calls[index]? = _
          rw [heq]
          rfl
      rw [hcall] at hsubmits
      obtain ⟨b, position, hb, hphase, hindex⟩ := h.current index ⟨stage, hstage, hsubmits⟩
      have hmap : s.batch.map (fun b => (b.step spec.bound .abort).getD b) =
          some ((b.step spec.bound .abort).getD b) := by rw [hb]; rfl
      obtain ⟨other, hother, heq, -⟩ := hbatch _ hmap
      cases hb.symm.trans hother
      refine ⟨_, position, hmap, ?_, ?_⟩
      · rw [heq]
        exact hphase
      · rw [heq]
        exact hindex
  · next hnew =>
    refine h.moved hlive ?_ fun calls => hphase.trans
    rcases hold : s.run.handle.aborted with _ | _
    · simpa using hnew
    · exact interrupt_aborted s.run (Or.inl hold)

/-- **Every block keeps the parts together.** -/
theorem wired_step {label : SystemLabel T} {next : AgentSystem T × List (SystemItem T)}
    (h : Wired spec s) (hstep : Acted spec s label next) : Wired spec next.1 := by
  cases hstep with
  | ran hfree hstep hboundary hinterrupt =>
    exact h.moved (live_step h.live hstep) (aborted_step h.live hinterrupt hstep).1
      fun calls hphase => phase_kept hphase hfree hstep
  | @opened next hstep =>
    have hlive := live_step h.live hstep
    have haborted := (aborted_step h.live (by simp) hstep).1
    unfold AgentSystem.openBatch
    split
    · next calls hphase =>
      refine ⟨hlive, ?_, ?_, ?_, ?_⟩
      · intro b hb
        cases hb
        exact sound_initial calls spec.terminal _
      · intro b hb
        cases hb
        rfl
      · intro b hb
        cases hb
        exact Or.inr hphase
      · rintro index ⟨stage, hstage, hsubmits⟩
        cases List.eq_of_mem_replicate (List.mem_of_getElem? hstage)
        cases hsubmits
    · refine h.moved hlive haborted fun calls hphase => ?_
      simp [AgentRun.step, hphase] at hstep
  | interrupted => exact h.interrupted
  | blocked hbatch hlabel hstep => exact h.batched hbatch hlabel hstep
  | dispatched hbatch hlabel hstep hhistory => exact h.dispatched hbatch hlabel hstep hhistory
  | settled index result => exact h.staged _ _ fun hsubmits => by cases hsubmits
  | executed index instant => exact h.staged _ _ fun hsubmits => by cases hsubmits
  -- a terminal call counts as submitting from its hook on, so it was current already
  | gatePassed index instant data call hstage hcall hterminal =>
    refine h.staged _ _ fun _ => h.current index ⟨_, hstage, ?_⟩
    rw [hcall]
    exact hterminal
  | returned index instant => exact h.staged _ _ fun hsubmits => by cases hsubmits
  | submitted index instant data hstage =>
    -- the latch is set in the same block, before the stage moves
    have hmoved : Wired spec { s with run := { s.run with handle := s.run.handle.beginFinishing } } :=
      h.moved h.live rfl fun _ => id
    have hstaged := hmoved.staged index (.submitting instant)
      fun _ => h.current index ⟨_, hstage, rfl⟩
    exact ⟨hstaged.live, hstaged.sound, hstaged.signal, hstaged.waiting, hstaged.current⟩
  | accepted index instant startedAt value hstage =>
    have hstaged := h.staged index
      (.settled (.ok (Tool.submitted (.accept value) startedAt instant)))
      fun hsubmits => by cases hsubmits
    exact ⟨hstaged.live, hstaged.sound, hstaged.signal, hstaged.waiting, hstaged.current⟩
  | refused index instant startedAt verdict hverdict hstage =>
    have hmoved : Wired spec { s with run := { s.run with handle := s.run.handle.cancelFinishing } } :=
      h.moved (live_step h.live (cancelFinishing_step spec.loop s.run))
        (aborted_step h.live (by simp) (cancelFinishing_step spec.loop s.run)).1 fun _ => id
    have hstaged := hmoved.staged index
      (.settled (.ok (Tool.submitted verdict startedAt instant)))
      fun hsubmits => by cases hsubmits
    exact ⟨hstaged.live, hstaged.sound, hstaged.signal, hstaged.waiting, hstaged.current⟩
  | @batchReturned b results instant next hbatch hreturned hstep =>
    refine ⟨live_step h.live hstep, h.sound, ?_, ?_, h.current⟩
    · intro other hother
      exact (h.signal other hother).trans (aborted_step h.live (by simp) hstep).1.symm
    · intro other hother
      cases hbatch.symm.trans hother
      exact Or.inl ⟨results, hreturned⟩

/-- A new run has no batch. -/
theorem wired_start (spec : RunSpec) (messages : List UserMessage) :
    Wired (T := T) spec (AgentSystem.start spec messages).state where
  live := (accounted_start spec.loop messages).live
  sound := nofun
  signal := nofun
  waiting := nofun
  current := by
    rintro index ⟨stage, hstage, -⟩
    cases hstage

theorem wired_of_run {messages : List UserMessage} {ok : SystemHistory T → SystemLabel T → Prop}
    {labels : List (SystemLabel T)} {r : SystemHistory T}
    (run : Run (Recorded.step (AgentSystem.step spec)) ok (AgentSystem.start spec messages) labels
      r) : Wired spec r.state := by
  refine run.invariant (I := fun r => Wired spec r.state) (wired_start spec messages) ?_
  intro r label r' _ hr hstep
  obtain ⟨state, items, hstate, rfl⟩ := Recorded.step_cases hstep
  exact wired_step hr (acted_of_step hstate)

end Step

end EphemeralAgent.Runtime
