import EphemeralAgent.Runtime.Submission

/-!
# The steers of a run

A steer that is accepted is appended before the run completes, unless it comes between the gate of
a submission and `beginFinishing`.

* `Settling` — while a submission is in flight, and after it is accepted, the queue is empty and
  closed
* `steers_appended` — **at a completed finish every accepted steer has been appended, in order**
* `steer_dropped` — a steer that comes while the submission waits for its `postToolUse` hooks
-/

namespace EphemeralAgent.Runtime

open Lib Engine Tool

variable {T : Type}

/-- The call whose `postToolUse` hooks let it pass. -/
def SystemLabel.passes : SystemLabel T → Option Nat
  | .postHookReturns index .passthrough _ => some index
  | _ => none

/-- **The condition**: no steer waits when the `postToolUse` hooks let a submission pass. -/
def SteersFirst (r : SystemHistory T) (label : SystemLabel T) : Prop :=
  (label.passes.bind fun index => r.state.stages[index]?).any isVetting = true →
    r.state.run.handle.hasPendingSteers = false

instance (r : SystemHistory T) (label : SystemLabel T) : Decidable (SteersFirst r label) :=
  inferInstanceAs (Decidable (_ → _))

/-- The invariant of the queue. -/
structure Settling (s : AgentSystem T) (history : List (SystemItem T)) : Prop where
  inFlight : ∀ stage ∈ s.stages, isSubmitting stage = true → Latched s.run
  accepted : s.accepted.isSome = true → Latched s.run
  finishes : FinishesEmpty (runItems history)

section Settling

variable {spec : RunSpec} {s s' : AgentSystem T} {history items : List (SystemItem T)}

/-- A block that keeps a closed queue closed, and moves no submission. -/
theorem Settling.kept (h : Settling s history)
    (hstages : ∀ stage ∈ s'.stages, isVetting stage = true ∨ isSubmitting stage = true →
      stage ∈ s.stages)
    (hlatched : Latched s.run → Latched s'.run)
    (haccepted : s'.accepted.isSome = true → s.accepted.isSome = true)
    (hfinishes : FinishesEmpty (runItems items)) : Settling s' (history ++ items) where
  inFlight := fun stage hstage hsubmitting =>
    hlatched (h.inFlight stage (hstages stage hstage (Or.inr hsubmitting)) hsubmitting)
  accepted := fun hsome => hlatched (h.accepted (haccepted hsome))
  finishes := by
    rw [runItems_append]
    exact h.finishes.append hfinishes

/-- The blocks of the loop, other than the return of its batch. -/
theorem Settling.moved (h : Settling s history) (hwired : Wired spec s) {label : RunLabel T}
    {next : AgentRun T × List (RunItem T)} (hcancel : label ≠ .cancelFinishing)
    (hbatch : ∀ results accepted instant, label ≠ .batchReturns results accepted instant)
    (hstep : s.run.step spec.loop label = some next) (hrun : s'.run = next.1)
    (haccepted : s'.accepted = s.accepted)
    (hstages : ∀ stage ∈ s'.stages, isVetting stage = true ∨ isSubmitting stage = true →
      stage ∈ s.stages) : Settling s' (history ++ next.2.map .run) := by
  refine h.kept hstages (fun hlatched => ?_) (haccepted ▸ id) ?_
  · rw [hrun]
    exact latched_step hwired.live hcancel hlatched hstep
  · rw [runItems_run]
    exact finishesEmpty_step (fun _ _ _ heq => absurd heq (hbatch _ _ _)) hstep

/-- **One block.** -/
theorem settling_step {label : SystemLabel T} {next : AgentSystem T × List (SystemItem T)}
    (hwired : Wired spec s) (hsole : Sole s) (hok : SteersFirst { state := s, history } label)
    (h : Settling s history) (hstep : Acted spec s label next) :
    Settling next.1 (history ++ next.2) := by
  have hsame : ∀ stage ∈ s.stages, isVetting stage = true ∨ isSubmitting stage = true →
      stage ∈ s.stages := fun _ hstage _ => hstage
  have hnone : FinishesEmpty ([] : List (RunItem T)) := by simp [FinishesEmpty]
  cases hstep with
  | @ran label next hfree hstep hboundary hinterrupt =>
    refine h.moved hwired ?_ ?_ hstep rfl rfl hsame
    · rintro rfl
      cases hfree
    · rintro results accepted instant rfl
      cases hfree
  | @opened next hstep =>
    refine h.moved hwired (by simp) (by simp) hstep ?_ ?_ fun stage => mem_openBatch_stages
    all_goals
      unfold AgentSystem.openBatch
      split <;> rfl
  | interrupted =>
    have hstep : s.run.step spec.loop .interrupt = some s.run.interrupt := rfl
    unfold AgentSystem.forwardAbort
    split <;> exact h.moved hwired (by simp) (by simp) hstep rfl rfl hsame
  | @blocked _ _ _ _ _ items =>
    refine h.kept hsame id id ?_
    rw [runItems_batch]
    exact hnone
  | @dispatched part instant index b b' =>
    obtain ⟨hrun, hitems⟩ := dispatch_run spec { s with batch := some b' } index instant
    refine h.kept (fun stage => mem_dispatch_stages_past) (fun hlatched => ?_) ?_ ?_
    · dsimp only
      rw [hrun]
      exact hlatched
    · unfold AgentSystem.dispatch
      split
      · split <;> exact id
      · exact id
    · show FinishesEmpty (runItems (AgentSystem.dispatch spec _ index instant).2)
      rw [hitems]
      exact hnone
  | settled | executed | returned => exact h.kept (mem_set_settled rfl rfl) id id hnone
  | gatePassed index instant =>
    refine ⟨fun stage hmem hsubmitting => ?_, h.accepted, ?_⟩
    · rcases List.mem_or_eq_of_mem_set hmem with hmem | rfl
      · exact h.inFlight stage hmem hsubmitting
      · cases hsubmitting
    · rw [runItems_append]
      exact h.finishes.append hnone
  | submitted index instant data hstage =>
    -- `SteersFirst`: whoever passes the gate has seen no pending steer
    have hempty : s.run.handle.steers = [] := by
      have hsteers := hok (by simp [SystemLabel.passes, hstage, isVetting])
      simpa [RunHandle.hasPendingSteers] using hsteers
    refine ⟨fun _ _ _ => ⟨rfl, hempty⟩, fun _ => ⟨rfl, hempty⟩, ?_⟩
    rw [runItems_append]
    exact h.finishes.append hnone
  | accepted index instant startedAt value hstage =>
    have hlatched := h.inFlight _ (List.mem_of_getElem? hstage) rfl
    refine ⟨fun _ _ _ => hlatched, fun _ => hlatched, ?_⟩
    rw [runItems_append]
    exact h.finishes.append hnone
  | refused index instant startedAt verdict hverdict hstage =>
    -- the refused submission was the only one, so nothing is in flight after it
    have halone := hwired.alone hstage (.settled
      (.ok (Tool.submitted verdict startedAt instant))) rfl rfl
    refine ⟨fun stage hmem hsubmitting => ?_, fun hsome => ?_, ?_⟩
    · cases (halone stage hmem).2.symm.trans hsubmitting
    · have hsubmitting := ((hsole.accepted hsome).2 _ (List.mem_of_getElem? hstage)).2
      cases hsubmitting
    · rw [runItems_append]
      exact h.finishes.append hnone
  | @batchReturned b results instant next hbatch hreturned hstep =>
    refine h.kept hsame (fun hlatched => latched_step hwired.live (by simp) hlatched hstep)
      takeAccepted_isSome ?_
    rw [runItems_run]
    refine finishesEmpty_step (fun _ _ _ heq hsome => ?_) hstep
    cases heq
    exact (h.accepted hsome).2

end Settling

/-- **No accepted steer is dropped**, for every run, in text or terminal mode, in which no steer
waits when a submission is let through by its `postToolUse` hooks: at a completed finish the queue
is empty, and the steers that were accepted are those that have been appended before, in order. -/
theorem steers_appended {spec : RunSpec} {messages : List UserMessage}
    {labels : List (SystemLabel T)} {r : SystemHistory T}
    (run : Run (Recorded.step (AgentSystem.step spec)) SteersFirst
      (AgentSystem.start spec messages) labels r)
    {before after : List (SystemItem T)} {outcome : AgentOutcome T} {gate : GateState}
    {completion : Completion T}
    (hhistory : r.history = before ++ .run (.finished outcome gate) :: after)
    (hstatus : outcome.status = .completed completion) :
    gate.steers = [] ∧
      acceptedSteers (runItems r.history) = appendedSteers (runItems before) := by
  have h : Settling r.state r.history := by
    refine run.invariant_of (J := fun r => Wired spec r.state ∧ Sole r.state)
      (I := fun r => Settling r.state r.history)
      (fun run => ⟨wired_of_run run, sole_of_run run⟩) ?_ ?_
    · refine ⟨nofun, nofun, ?_⟩
      show FinishesEmpty (runItems (List.map .run _))
      rw [runItems_run]
      exact finishesEmpty_start messages
    · intro r label r' hok ⟨hwired, hsole⟩ hr hstep
      obtain ⟨state, items, hstate, rfl⟩ := Recorded.step_cases hstep
      exact settling_step hwired hsole hok hr (acted_of_step hstate)
  have hitems : runItems r.history =
      runItems before ++ .finished outcome gate :: runItems after := by
    rw [hhistory, runItems_append]
    rfl
  have hmem : .finished outcome gate ∈ runItems r.history := by
    rw [hitems]
    exact List.mem_append_right _ List.mem_cons_self
  have hgate : gate.steers = [] := h.finishes outcome gate completion hmem hstatus
  obtain ⟨_, hloop⟩ := refines_run run.free
  cases accounted_of_run hloop with
  | running _ _ hquiet => exact absurd hmem (hquiet outcome gate)
  | finished _ _ first rest other gate' heq hfirst hrest hlate hsteers =>
    obtain ⟨rfl, heq', rfl⟩ := (List.append_cons_inj_of_notMem (hfirst _ _) (hrest _ _)).mp
      (heq.symm.trans hitems)
    cases heq'
    refine ⟨hgate, ?_⟩
    rw [hgate, List.append_nil] at hsteers
    rw [hitems, acceptedSteers_append, hsteers]
    show _ ++ acceptedSteers (runItems after) = _
    rw [hlate.1, List.append_nil]

/-- A schedule of the sample run that completes, with a test of its history and of the gates. -/
theorem exists_completed (ok : SystemHistory Unit → SystemLabel Unit → Prop)
    [∀ r label, Decidable (ok r label)] (labels : List (SystemLabel Unit))
    (p : List (SystemItem Unit) → GateState → Bool)
    (h : (exec (Recorded.step (AgentSystem.step sampleSpec)) ok
      (AgentSystem.start sampleSpec [⟨userText "go", rfl⟩]) labels).any (fun r =>
        r.history.any fun item =>
          match item with
          | .run (.finished { status := .completed _, .. } gate) => p r.history gate
          | _ => false) = true) :
    ∃ (r : SystemHistory Unit) (outcome : AgentOutcome Unit) (completion : Completion Unit)
      (gate : GateState),
      Run (Recorded.step (AgentSystem.step sampleSpec)) ok
        (AgentSystem.start sampleSpec [⟨userText "go", rfl⟩]) labels r ∧
      .run (.finished outcome gate) ∈ r.history ∧ outcome.status = .completed completion ∧
      p r.history gate = true := by
  obtain ⟨r, run, hr⟩ := exists_run _ ok _ labels _ h
  obtain ⟨item, hitem, htest⟩ := List.any_eq_true.mp hr
  split at htest
  · exact ⟨r, _, _, _, run, hitem, rfl, htest⟩
  · cases htest

/-- The blocks of a submission that is accepted, from the gate to the finish. -/
def sampleAccept : List (SystemLabel Unit) :=
  [.postHookReturns 0 .passthrough 3, .submitReturns 0 (.accept ()) 4, .block .resolveTerminal 5,
    .block .resumeTerminal 6, .batchReturns 7]

/-- A steer that comes during the first turn of two. -/
def steeredFirst : List (SystemLabel Unit) :=
  .run (.steer ⟨userText "wait", rfl⟩) :: sampleTurn [("a", "unknown")] ++
    [.block .spawn 1, .block (.resolve 0) 1, .block (.resume 0) 1, .block .proceed 1,
      .batchReturns 1] ++ sampleTurn [("b", "submit")] ++
    [.block .proceed 1, .preHookReturns 0 .passthrough 2] ++ sampleAccept

theorem steers_appended_turn :
    ∃ (r : SystemHistory Unit) (before after : List (SystemItem Unit)) (outcome : AgentOutcome Unit)
      (gate : GateState) (completion : Completion Unit),
      Run (Recorded.step (AgentSystem.step sampleSpec)) SteersFirst
        (AgentSystem.start sampleSpec [⟨userText "go", rfl⟩]) steeredFirst r ∧
      r.history = before ++ .run (.finished outcome gate) :: after ∧
      outcome.status = .completed completion ∧ gate.steers = [] ∧
      acceptedSteers (runItems r.history) ≠ [] ∧
      acceptedSteers (runItems r.history) = appendedSteers (runItems before) := by
  obtain ⟨r, outcome, completion, gate, run, hfinished, hstatus, hsome⟩ :=
    exists_completed SteersFirst steeredFirst
      (fun history _ => !(acceptedSteers (runItems history)).isEmpty) (by decide +kernel)
  obtain ⟨before, after, hhistory⟩ := List.append_of_mem hfinished
  obtain ⟨hgate, hsteers⟩ := steers_appended run hhistory hstatus
  refine ⟨r, before, after, outcome, gate, completion, run, hhistory, hstatus, hgate, ?_, hsteers⟩
  intro hempty
  rw [hempty] at hsome
  cases hsome

/-- A steer that is accepted while the submission waits for its `postToolUse` hooks: the run
completes with the steer in its queue. -/
theorem steer_dropped :
    ∃ (r : SystemHistory Unit) (outcome : AgentOutcome Unit) (completion : Completion Unit)
      (gate : GateState),
      Run (Recorded.step (AgentSystem.step sampleSpec)) Free
        (AgentSystem.start sampleSpec [⟨userText "go", rfl⟩])
        (sampleTurn [("a", "submit")] ++
          [.block .proceed 1, .preHookReturns 0 .passthrough 2,
            .run (.steer ⟨userText "wait", rfl⟩)] ++ sampleAccept) r ∧
      .run (.finished outcome gate) ∈ r.history ∧ outcome.status = .completed completion ∧
      gate.steers ≠ [] ∧ acceptedSteers (runItems r.history) ≠ [] ∧
      appendedSteers (runItems r.history) = [] := by
  obtain ⟨r, outcome, completion, gate, run, hfinished, hstatus, htest⟩ :=
    exists_completed Free
      (sampleTurn [("a", "submit")] ++
        [.block .proceed 1, .preHookReturns 0 .passthrough 2,
          .run (.steer ⟨userText "wait", rfl⟩)] ++ sampleAccept)
      (fun history gate => !gate.steers.isEmpty &&
        (!(acceptedSteers (runItems history)).isEmpty &&
          (appendedSteers (runItems history)).isEmpty)) (by decide +kernel)
  simp only [Bool.and_eq_true, Bool.not_eq_true', List.isEmpty_eq_false_iff,
    List.isEmpty_iff] at htest
  exact ⟨r, outcome, completion, gate, run, hfinished, hstatus, htest⟩

end EphemeralAgent.Runtime
