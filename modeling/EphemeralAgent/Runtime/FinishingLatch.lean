import EphemeralAgent.Runtime.SingleMutator

/-!
# The finishing latch

`beginFinishing` closes two latches, the `submitting` flag of the gate and the `finishing` flag of
the handle; `cancelFinishing` opens them again.

* `Latches` — both are closed exactly while `onSubmit` is executing or an accepted submission waits
* `Bound` — after an acceptance nothing but the return of its batch is left to the loop
* `finishing_latch` — **a steer is refused exactly when the run commits**, and so is a submission
* `latch_stuck` — a later call with the id of the accepted one: the run goes on, with both closed
-/

namespace EphemeralAgent.Runtime

open Lib Engine Tool

variable {T : Type}

/-! ## The claim -/

/-- In every continuation the loop waits for its batch, until the run has finished. -/
def AboutToFinish (spec : RunSpec) (r : SystemHistory T) : Prop :=
  ∀ (labels : List (SystemLabel T)) (r' : SystemHistory T),
    Run (Recorded.step (AgentSystem.step spec)) Free r labels r' →
      (∃ calls, r'.state.run.phase = .batch calls) ∨ r'.state.run.handle.finished = true

/-- `onSubmit` is executing, or it has accepted and the run is about to finish. -/
def Committing (spec : RunSpec) (r : SystemHistory T) : Prop :=
  (∃ stage ∈ r.state.stages, isSubmitting stage = true) ∨
    (∃ value, Accepts r.history value) ∧ AboutToFinish spec r

/-- The latches are exact. -/
structure LatchExact (spec : RunSpec) (r : SystemHistory T) : Prop where
  steer : ∀ message, (r.state.run.handle.steer message).2.1 = false ↔
    r.state.run.handle.finished = true ∨ Committing spec r
  gate : r.state.run.handle.finished = false →
    ("a submission was already accepted" ∈ r.state.blockers ↔ Committing spec r)
  /-- The loop has gone on. -/
  reopened : r.state.run.handle.finished = false → (∀ calls, r.state.run.phase ≠ .batch calls) →
    r.state.submitting = false ∧ r.state.run.handle.finishing = false

/-- **The condition**: no later call of the batch has the id of a submission that is accepted on a
live signal. -/
def Unshadowed (r : SystemHistory T) (label : SystemLabel T) : Prop :=
  (label.accepts.any fun index =>
    !r.state.run.handle.aborted && reused r.state index) = false

instance (r : SystemHistory T) (label : SystemLabel T) : Decidable (Unshadowed r label) :=
  inferInstanceAs (Decidable (_ = _))

/-! ## The two latches -/

/-- `onSubmit` is executing, or an accepted submission has not been taken. -/
def Held (s : AgentSystem T) : Prop :=
  (∃ stage ∈ s.stages, isSubmitting stage = true) ∨ s.accepted.isSome = true

/-- Both latches are closed exactly while a submission holds them. -/
structure Latches (s : AgentSystem T) (history : List (SystemItem T)) : Prop where
  closed : Held s → s.submitting = true ∧ s.run.handle.finishing = true
  opened : s.run.handle.finished = false → ¬ Held s →
    s.submitting = false ∧ s.run.handle.finishing = false
  accepted : s.accepted.isSome = true → ∃ value, Accepts history value
  untaken : (∃ value, Accepts history value) →
    s.accepted.isSome = true ∨ s.run.handle.finished = true

section Gate

/-- Texts that end differently. -/
theorem ne_append {text last : String} (hne : last.toList.getLast? ≠ none)
    (hlast : text.toList.getLast? ≠ last.toList.getLast?) (first : String) :
    text ≠ first ++ last := by
  rintro rfl
  rw [String.toList_append, List.getLast?_append] at hlast
  cases h : last.toList.getLast? with
  | none => exact hne h
  | some char => simp [h] at hlast

theorem mem_blockers (s : AgentSystem T) :
    "a submission was already accepted" ∈ s.blockers ↔ s.submitting = true := by
  unfold AgentSystem.blockers
  simp only [List.mem_append]
  constructor
  · rintro (((h | h) | h) | h)
    · split at h
      · exact absurd (List.mem_singleton.mp h) (ne_append (by decide) (by decide) _)
      · cases h
    · split at h
      · exact absurd (List.mem_singleton.mp h) (ne_append (by decide) (by decide) _)
      · cases h
    · split at h
      · exact absurd (List.mem_singleton.mp h) (by decide)
      · cases h
    · split at h
      · assumption
      · cases h
  · intro h
    rw [if_pos h]
    exact Or.inr (List.mem_singleton.mpr rfl)

theorem steer_refused (handle : RunHandle T) (message : UserMessage) :
    (handle.steer message).2.1 = false ↔ handle.finishing = true ∨ handle.finished = true := by
  unfold RunHandle.steer
  split
  · next h => exact iff_of_true rfl h
  · next h => exact iff_of_false nofun h

end Gate

/-- A block of the loop leaves the latch alone, or finishes. -/
theorem finishing_kept {cfg : LoopConfig} {run : AgentRun T} {label : RunLabel T}
    {next : AgentRun T × List (RunItem T)} (hlive : Live run) (hbegin : label ≠ .beginFinishing)
    (hcancel : label ≠ .cancelFinishing) (h : run.step cfg label = some next) :
    next.1.handle.finishing = run.handle.finishing ∨
      next.1.handle.finishing = true ∧ next.1.handle.finished = true := by
  cases hinside : label.isInside with
  | true =>
    cases account_step hlive hinside h with
    | goesOn _ _ _ _ _ hkept => exact Or.inl hkept
    | ends _ _ _ _ _ _ _ hfinished _ _ hkept => exact Or.inr ⟨hkept, hfinished⟩
  | false =>
    refine Or.inl ?_
    cases fired_of_step h with
    | steer message =>
      simp only [AgentRun.wake, RunHandle.steer]
      split <;> rfl
    | interrupt =>
      unfold AgentRun.interrupt
      split
      · rfl
      · simp only [RunHandle.interrupt]
        split <;> rfl
    | published | unpublished | task => rfl
    | beginFinishing => exact absurd rfl hbegin
    | cancelFinishing => exact absurd rfl hcancel
    | _ => cases hinside

section Latches

variable {spec : RunSpec} {s s' : AgentSystem T} {history items : List (SystemItem T)}

theorem accepts_iff (hitems : ∀ item ∈ items, item.isAccepted = false) :
    (∃ value, Accepts (history ++ items) value) ↔ ∃ value, Accepts history value :=
  exists_congr fun _ => accepts_append hitems

/-- A block that moves no submission. -/
theorem Latches.kept (h : Latches s history)
    (hstages : (∃ stage ∈ s'.stages, isSubmitting stage = true) ↔
      ∃ stage ∈ s.stages, isSubmitting stage = true)
    (haccepted : s'.accepted = s.accepted ∨
      s'.run.handle.finished = true ∧ s'.accepted = none)
    (hflag : s'.submitting = s.submitting)
    (hfinishing : s'.run.handle.finishing = s.run.handle.finishing ∨
      s'.run.handle.finishing = true ∧ s'.run.handle.finished = true)
    (hfinished : s.run.handle.finished = true → s'.run.handle.finished = true)
    (hitems : ∀ item ∈ items, item.isAccepted = false) : Latches s' (history ++ items) := by
  have hheld : Held s' → Held s := by
    rintro (hstage | hsome)
    · exact Or.inl (hstages.mp hstage)
    · rcases haccepted with heq | ⟨-, hnone⟩
      · exact Or.inr (heq ▸ hsome)
      · rw [hnone] at hsome
        cases hsome
  refine ⟨fun hs' => ?_, fun hlive hs' => ?_, fun hsome => ?_, fun hvalue => ?_⟩
  · obtain ⟨hsubmitting, hclosed⟩ := h.closed (hheld hs')
    refine ⟨hflag.trans hsubmitting, ?_⟩
    rcases hfinishing with heq | ⟨heq, -⟩
    · exact heq.trans hclosed
    · exact heq
  · have hbefore : s.run.handle.finished = false := by
      cases hs : s.run.handle.finished with
      | false => rfl
      | true => exact absurd (hlive.symm.trans (hfinished hs)) nofun
    have hopen : ¬ Held s := by
      rintro (hstage | hsome)
      · exact hs' (Or.inl (hstages.mpr hstage))
      · rcases haccepted with heq | ⟨hdone, -⟩
        · exact hs' (Or.inr (heq ▸ hsome))
        · exact absurd (hlive.symm.trans hdone) nofun
    obtain ⟨hsubmitting, hreleased⟩ := h.opened hbefore hopen
    refine ⟨hflag.trans hsubmitting, ?_⟩
    rcases hfinishing with heq | ⟨-, hdone⟩
    · exact heq.trans hreleased
    · exact absurd (hlive.symm.trans hdone) nofun
  · rw [accepts_iff hitems]
    rcases haccepted with heq | ⟨-, hnone⟩
    · exact h.accepted (heq ▸ hsome)
    · rw [hnone] at hsome
      cases hsome
  · rcases h.untaken ((accepts_iff hitems).mp hvalue) with hsome | hdone
    · rcases haccepted with heq | ⟨hdone, -⟩
      · exact Or.inl (heq ▸ hsome)
      · exact Or.inr hdone
    · exact Or.inr (hfinished hdone)

/-- A call that is not in `onSubmit`, before and after. -/
theorem submitting_set {index : Nat} {old new : CallStage} (hold : s.stages[index]? = some old)
    (hquiet : isSubmitting old = false) (hnew : isSubmitting new = false) :
    (∃ stage ∈ s.stages.set index new, isSubmitting stage = true) ↔
      ∃ stage ∈ s.stages, isSubmitting stage = true := by
  constructor
  · rintro ⟨stage, hstage, hsubmitting⟩
    rcases List.mem_or_eq_of_mem_set hstage with hstage | rfl
    · exact ⟨stage, hstage, hsubmitting⟩
    · exact absurd (hnew.symm.trans hsubmitting) nofun
  · rintro ⟨stage, hstage, hsubmitting⟩
    obtain ⟨i, hi⟩ := List.getElem?_of_mem hstage
    have hne : index ≠ i := by
      rintro rfl
      cases hold.symm.trans hi
      exact absurd (hquiet.symm.trans hsubmitting) nofun
    refine ⟨stage, List.mem_of_getElem? (i := i) ?_, hsubmitting⟩
    rw [List.getElem?_set_ne hne]
    exact hi

/-- A call that the batch dispatches is not in `onSubmit`. -/
theorem submitting_dispatch (hwired : Wired spec s) {b b' : BatchRun} (hbatch : s.batch = some b)
    {index : Nat} (instant : Nat) {label : BatchLabel}
    (hstep : b.step spec.bound (.block label) = some b')
    (hhistory : b'.history = b.history ++ [.started index]) :
    (∃ stage ∈ ({ s with batch := some b' }.dispatch spec index instant).1.stages,
        isSubmitting stage = true) ↔
      ∃ stage ∈ s.stages, isSubmitting stage = true := by
  rcases dispatch_eq spec { s with batch := some b' } index instant with heq | ⟨new, heq, hnew⟩
  · rw [heq]
  rw [heq]
  have hquiet : isSubmitting new = false := by
    rcases hnew with ⟨data, rfl, -⟩ | ⟨outcome, rfl⟩ <;> rfl
  cases hold : s.stages[index]? with
  | none =>
    have hlong : s.stages.length ≤ index := List.getElem?_eq_none_iff.mp hold
    rw [List.set_eq_of_length_le hlong]
  | some old =>
    refine submitting_set hold ?_ hquiet
    cases old with
    | submitting startedAt =>
      obtain ⟨other, position, hother, hphase, hindex⟩ := hwired.current index ⟨_, hold, rfl⟩
      cases hbatch.symm.trans hother
      rcases stepped_started (stepped_of_step hstep) hhistory with ⟨hordinary, -⟩ | ⟨_, hturn, -⟩
      · exact absurd (List.mem_of_getElem? hindex) (not_terminal_of_ordinary hordinary)
      · rcases hturn with ⟨hracing, -⟩ | ⟨_, hreturning, -⟩
        · exact absurd (hphase.symm.trans hracing) nofun
        · exact absurd (hphase.symm.trans hreturning) nofun
    | _ => rfl

/-- What has finished stays so. -/
theorem finished_kept {cfg : LoopConfig} {run : AgentRun T} {label : RunLabel T}
    {next : AgentRun T × List (RunItem T)} (hlive : Live run) (h : run.step cfg label = some next)
    (hdone : run.handle.finished = true) : next.1.handle.finished = true := by
  have hexited : run.phase = .exited := by
    rcases hlive with ⟨hfinished, -⟩ | ⟨-, hexited⟩
    · exact absurd (hfinished.symm.trans hdone) nofun
    · exact hexited
  obtain ⟨houtside, -⟩ := outside_step (outside_of_exited hlive hexited h) h
  exact houtside.finished.trans hdone

theorem run_not_accepted (shown : List (RunItem T)) :
    ∀ item ∈ shown.map (SystemItem.run (T := T)), item.isAccepted = false := by
  intro item hitem
  obtain ⟨_, -, rfl⟩ := List.mem_map.mp hitem
  rfl

theorem plain_not_accepted (h : ∀ item ∈ items, item.isPlain = true) :
    ∀ item ∈ items, item.isAccepted = false :=
  fun item hitem => not_accepted_of_plain (h item hitem)

/-- While `onSubmit` is executing the loop waits for its batch. -/
theorem Wired.live_of_submitting (hwired : Wired spec s)
    (h : ∃ stage ∈ s.stages, isSubmitting stage = true) :
    ∃ b position, s.batch = some b ∧ b.batch.phase = .terminalRunning position ∧
      s.run.phase = .batch b.batch.calls ∧ s.run.handle.finished = false := by
  obtain ⟨stage, hmem, hsubmitting⟩ := h
  obtain ⟨index, hstage⟩ := List.getElem?_of_mem hmem
  cases stage with
  | submitting startedAt =>
    obtain ⟨b, position, hbatch, hphase, -, hwaiting⟩ := hwired.current_batch hstage
    refine ⟨b, position, hbatch, hphase, hwaiting, ?_⟩
    rcases hwired.live with ⟨hlive, -⟩ | ⟨-, hexited⟩
    · exact hlive
    · exact absurd (hexited.symm.trans hwaiting) nofun
  | _ => cases hsubmitting

/-- `takeAccepted()` is called only to finish. -/
theorem takeAccepted_cases {results : List ToolCallResult} {instant : Nat}
    {next : AgentRun T × List (RunItem T)} (hlive : Live s.run)
    (hstep : s.run.step spec.loop (.batchReturns results s.accepted instant) = some next) :
    s.takeAccepted results instant = s.accepted ∨
      next.1.handle.finished = true ∧ s.takeAccepted results instant = none := by
  cases fired_of_step hstep with
  | batchReturns _ _ _ hphase =>
    unfold AgentSystem.takeAccepted
    simp only [hphase]
    split
    · next hterminal =>
      refine Or.inr ⟨?_, rfl⟩
      have hfinished : s.run.handle.finished = false := by
        rcases hlive with ⟨hfinished, -⟩ | ⟨-, hexited⟩
        · exact hfinished
        · cases hexited.symm.trans hphase
      unfold AgentRun.commitBatch
      dsimp only
      rw [if_pos hterminal]
      split <;> simp [AgentRun.exit, RunHandle.finish, AgentRun.appendToolResults, hfinished]
    · exact Or.inl rfl

/-- A batch is opened while nothing is submitted. -/
theorem Latches.opens (h : Latches s history) (hwired : Wired spec s)
    {next : AgentRun T × List (RunItem T)}
    (hstep : s.run.step spec.loop .boundaryReturns = some next) :
    Latches ({ s with run := next.1 }.openBatch spec) (history ++ next.2.map .run) := by
  have hquiet : ¬ ∃ stage ∈ s.stages, isSubmitting stage = true := by
    intro hstage
    obtain ⟨b, position, -, -, hwaiting, -⟩ := hwired.live_of_submitting hstage
    simp [AgentRun.step, hwaiting] at hstep
  have hrun : ({ s with run := next.1 }.openBatch spec).run = next.1 := phase_openBatch next.1
  refine h.kept (iff_of_false ?_ hquiet) (Or.inl ?_) ?_ ?_ (fun hdone => ?_) (run_not_accepted _)
  · rintro ⟨stage, hstage, hsubmitting⟩
    exact hquiet ⟨stage, mem_openBatch_stages hstage (Or.inr hsubmitting), hsubmitting⟩
  · unfold AgentSystem.openBatch
    split <;> rfl
  · unfold AgentSystem.openBatch
    split <;> rfl
  · rw [hrun]
    exact finishing_kept hwired.live (by simp) (by simp) hstep
  · rw [hrun]
    exact finished_kept hwired.live hstep hdone

/-- `beginFinishing()` comes with the submission that holds it. -/
theorem Latches.submits (h : Latches s history) {index instant : Nat} {data : Json}
    (hstage : s.stages[index]? = some (.vetting data)) :
    Latches
      { s with
        run := { s.run with handle := s.run.handle.beginFinishing }
        stages := s.stages.set index (.submitting instant)
        submitting := true }
      (history ++ [.submitted index data s.run.gate]) := by
  have hitems : ∀ item ∈ [SystemItem.submitted (T := T) index data s.run.gate],
      item.isAccepted = false := plain_not_accepted (by simp [SystemItem.isPlain])
  have hheld : isSubmitting (.submitting instant) = true ∧
      CallStage.submitting instant ∈ s.stages.set index (.submitting instant) := by
    refine ⟨rfl, List.mem_of_getElem? (i := index) ?_⟩
    exact List.getElem?_set_self (List.getElem?_eq_some_iff.mp hstage).1
  refine ⟨fun _ => ⟨rfl, rfl⟩, fun _ hopen => ?_, fun hsome => ?_, fun hvalue => ?_⟩
  · exact absurd (Or.inl ⟨_, hheld.2, hheld.1⟩) hopen
  · exact (accepts_iff hitems).mpr (h.accepted hsome)
  · exact h.untaken ((accepts_iff hitems).mp hvalue)

/-- `cancelFinishing()` comes with the end of the submission: nothing holds the latches any more. -/
theorem Latches.refuses (h : Latches s history) (hwired : Wired spec s) (hsole : Sole s)
    {index startedAt : Nat} {result : PipelineResult}
    (hstage : s.stages[index]? = some (.submitting startedAt)) :
    Latches
      { s with
        run := { s.run with handle := s.run.handle.cancelFinishing }
        stages := s.stages.set index (.settled (.ok result))
        submitting := false } history := by
  have halone := hwired.alone hstage (.settled (.ok result)) rfl rfl
  have hnone : s.accepted.isSome = false := by
    cases hsome : s.accepted.isSome with
    | false => rfl
    | true => cases ((hsole.accepted hsome).2 _ (List.mem_of_getElem? hstage)).2
  obtain ⟨-, -, -, -, -, hlive⟩ :=
    hwired.live_of_submitting ⟨_, List.mem_of_getElem? hstage, rfl⟩
  refine ⟨fun hheld => ?_, fun _ _ => ⟨rfl, ?_⟩, fun hsome => ?_, fun hvalue => ?_⟩
  · rcases hheld with ⟨stage, hmem, hsubmitting⟩ | hsome
    · cases (halone stage hmem).2.symm.trans hsubmitting
    · cases hnone.symm.trans hsome
  · simp [RunHandle.cancelFinishing, hlive]
  · cases hnone.symm.trans hsome
  · rcases h.untaken hvalue with hsome | hdone
    · cases hnone.symm.trans hsome
    · cases hlive.symm.trans hdone

/-- **One block keeps the latches exact.** -/
theorem latches_step {label : SystemLabel T} {next : AgentSystem T × List (SystemItem T)}
    (hwired : Wired spec s) (hsole : Sole s) (h : Latches s history)
    (hstep : Acted spec s label next) : Latches next.1 (history ++ next.2) := by
  cases hstep with
  | @ran label next hfree hstep hboundary hinterrupt =>
    refine h.kept Iff.rfl (Or.inl rfl) rfl ?_ (finished_kept hwired.live hstep)
      (run_not_accepted _)
    refine finishing_kept hwired.live ?_ ?_ hstep <;> (rintro rfl; cases hfree)
  | opened hstep => exact h.opens hwired hstep
  | interrupted =>
    have hstep : s.run.step spec.loop .interrupt = some s.run.interrupt := rfl
    have hfinishing := finishing_kept hwired.live (by simp) (by simp) hstep
    have hfinished := finished_kept hwired.live hstep
    unfold AgentSystem.forwardAbort
    split <;> exact h.kept Iff.rfl (Or.inl rfl) rfl hfinishing hfinished (run_not_accepted _)
  | blocked =>
    exact h.kept Iff.rfl (Or.inl rfl) rfl (Or.inl rfl) id (plain_not_accepted (plain_batch _))
  | @dispatched part instant index b b' label hbatch hlabel hstep hhistory =>
    have hstages := submitting_dispatch hwired hbatch instant hstep hhistory
    have hplain : ∀ item ∈ SystemItem.batch (.started index) ::
        ({ s with batch := some b' }.dispatch spec index instant).2, item.isAccepted = false :=
      plain_not_accepted plain_dispatched
    rcases dispatch_eq spec { s with batch := some b' } index instant with heq | ⟨stage, heq, -⟩
    · rw [heq] at hstages ⊢
      exact h.kept hstages (Or.inl rfl) rfl (Or.inl rfl) id hplain
    · rw [heq] at hstages ⊢
      exact h.kept hstages (Or.inl rfl) rfl (Or.inl rfl) id hplain
  | settled index result hsettles =>
    refine h.kept ?_ (Or.inl rfl) rfl (Or.inl rfl) id (by simp)
    cases hsettles with
    | denied data hstage | stamped executed startedAt endedAt hstage | vetoed data hstage =>
      exact submitting_set hstage rfl rfl
  | executed index instant data call hstage | gatePassed index instant data call hstage =>
    exact h.kept (submitting_set hstage rfl rfl) (Or.inl rfl) rfl (Or.inl rfl) id
      (plain_not_accepted (by simp [SystemItem.isPlain]))
  | returned index instant startedAt answer result hstage =>
    exact h.kept (submitting_set hstage rfl rfl) (Or.inl rfl) rfl (Or.inl rfl) id (by simp)
  | submitted index instant data hstage => exact h.submits hstage
  | accepted index instant startedAt value hstage =>
    have hclosed := h.closed (Or.inl ⟨_, List.mem_of_getElem? hstage, rfl⟩)
    refine ⟨fun _ => hclosed, fun _ hopen => ?_, fun _ => ?_, fun _ => Or.inl rfl⟩
    · exact absurd (Or.inr rfl) hopen
    · exact ⟨value, index, List.mem_append_right _ (List.mem_singleton.mpr rfl)⟩
  | refused index instant startedAt verdict hverdict hstage =>
    rw [List.append_nil]
    exact h.refuses hwired hsole hstage
  | @batchReturned b results instant next hbatch hreturned hstep =>
    exact h.kept Iff.rfl (takeAccepted_cases hwired.live hstep) rfl
      (finishing_kept hwired.live (by simp) (by simp) hstep) (finished_kept hwired.live hstep)
      (run_not_accepted _)

theorem not_accepts_start (messages : List UserMessage) :
    ∀ value, ¬ Accepts (AgentSystem.start (T := T) spec messages).history value := by
  rintro value ⟨index, hmem⟩
  obtain ⟨_, -, hitem⟩ := List.mem_map.mp hmem
  cases hitem

theorem latches_start (messages : List UserMessage) :
    Latches (AgentSystem.start (T := T) spec messages).state
      (AgentSystem.start (T := T) spec messages).history := by
  have hopen : ¬ Held (AgentSystem.start (T := T) spec messages).state := by
    rintro (⟨stage, hstage, -⟩ | hsome)
    · cases hstage
    · cases hsome
  refine ⟨fun hheld => absurd hheld hopen, fun hlive _ => ⟨rfl, ?_⟩, nofun, ?_⟩
  · -- the first block of the loop has already run
    have hfresh : (AgentRun.fresh (T := T) messages).handle.finished = false := rfl
    cases account_loopHead spec.loop hfresh with
    | goesOn _ _ _ _ _ hkept => exact hkept
    | ends _ _ _ _ _ _ _ hdone => exact absurd (hlive.symm.trans hdone) nofun
  · rintro ⟨value, hvalue⟩
    exact absurd hvalue (not_accepts_start messages value)

theorem latches_of_run {messages : List UserMessage} {ok : SystemHistory T → SystemLabel T → Prop}
    {labels : List (SystemLabel T)} {r : SystemHistory T}
    (run : Run (Recorded.step (AgentSystem.step spec)) ok (AgentSystem.start spec messages) labels
      r) : Latches r.state r.history := by
  refine run.invariant_of (J := fun r => Wired spec r.state ∧ Sole r.state)
    (I := fun r => Latches r.state r.history) (fun run => ⟨wired_of_run run, sole_of_run run⟩) ?_ ?_
  · exact latches_start messages
  · intro r label r' _ ⟨hwired, hsole⟩ hr hstep
    obtain ⟨state, items, hstate, rfl⟩ := Recorded.step_cases hstep
    exact latches_step hwired hsole hr (acted_of_step hstate)

end Latches

/-! ## From the acceptance to the finish -/

/-- Where an accepted submission is: on its way to the loop, on an aborted signal or on a live one,
or at the finish. -/
inductive Bound (spec : RunSpec) (s : AgentSystem T) (history : List (SystemItem T)) : Prop
  | aborted (calls : List ToolUseBlock) (hwaiting : s.run.phase = .batch calls)
      (haccepted : s.accepted.isSome = true) (haborted : s.run.handle.aborted = true)
  | pending (index : Nat) (value : T) (call : ToolUseBlock) (b : BatchRun)
      (hfits : Chronicle Fits history) (h : Pending spec s history index value call b)
  | finished (hexited : s.run.phase = .exited)

section Bound

variable {spec : RunSpec} {s s' : AgentSystem T} {history items : List (SystemItem T)}

/-- Before any acceptance nothing has to fit. -/
theorem fits_of_none (hnone : ∀ value, ¬ Accepts history value) : Chronicle Fits history := by
  intro before item after hhistory
  have hbefore : ∀ value, ¬ Accepts before value := by
    rintro value ⟨index, hmem⟩
    exact hnone value ⟨index, hhistory ▸ List.mem_append_left _ hmem⟩
  cases item with
  | run item =>
    cases item with
    | requested messages => exact hbefore
    | finished outcome gate => exact fun value hvalue => absurd hvalue (hbefore value)
    | _ => trivial
  | accepted index value =>
    exact absurd ⟨index, hhistory ▸ List.mem_append_right _ List.mem_cons_self⟩ (hnone value)
  | _ => trivial

/-- An aborted signal ends the run at the return of the batch. -/
theorem commitBatch_aborted {cfg : LoopConfig} (run : AgentRun T) (calls : List ToolUseBlock)
    (executed : List ToolCallResult) (accepted : Option T) (instant : Nat)
    (haborted : run.handle.aborted = true) :
    (run.commitBatch cfg calls executed accepted instant).1.phase = .exited := by
  unfold AgentRun.commitBatch
  dsimp only
  by_cases hterminal : (normalizeBatch calls executed instant).any (·.isTerminal) = true
  · rw [if_pos hterminal]
    split <;> rfl
  · rw [if_neg hterminal, if_pos haborted]
    rfl

/-- **While the loop waits for a batch, nothing but the return of the batch moves it.** -/
theorem batch_kept {calls : List ToolUseBlock} {label : SystemLabel T}
    {next : AgentSystem T × List (SystemItem T)} (hwaiting : s.run.phase = .batch calls)
    (hlabel : ∀ instant, label ≠ .batchReturns instant) (hstep : Acted spec s label next) :
    next.1.run.phase = .batch calls := by
  cases hstep with
  | ran hfree hstep => exact phase_kept hwaiting hfree hstep
  | opened hstep => simp [AgentRun.step, hwaiting] at hstep
  | interrupted =>
    rw [phase_forwardAbort]
    exact (outside_interrupt s.run).1.phase.trans hwaiting
  | @dispatched part instant index b b' =>
    dsimp only
    rw [(dispatch_run spec { s with batch := some b' } index instant).1]
    exact hwaiting
  | batchReturned => exact absurd rfl (hlabel _)
  | _ => exact hwaiting

/-- Only an acceptance sets `accepted`, and only the return of the batch takes it. -/
theorem accepted_kept {label : SystemLabel T} {next : AgentSystem T × List (SystemItem T)}
    (hstep : Acted spec s label next) (haccepts : label.accepts = none)
    (hreturns : ∀ instant, label ≠ .batchReturns instant) : next.1.accepted = s.accepted := by
  cases hstep with
  | opened =>
    unfold AgentSystem.openBatch
    split <;> rfl
  | interrupted =>
    unfold AgentSystem.forwardAbort
    split <;> rfl
  | @dispatched part instant index b b' =>
    rcases dispatch_eq spec { s with batch := some b' } index instant with heq | ⟨stage, heq, -⟩
    all_goals
      dsimp only
      rw [heq]
  | accepted => cases haccepts
  | batchReturned => exact absurd rfl (hreturns _)
  | _ => rfl

/-- After an acceptance no other one comes. -/
theorem not_accepts (hsole : Sole s) {label : SystemLabel T}
    {next : AgentSystem T × List (SystemItem T)} (hstep : Acted spec s label next)
    (hsome : s.accepted.isSome = true) : label.accepts = none := by
  cases hstep with
  | accepted index instant startedAt value hstage =>
    have hsubmitting := ((hsole.accepted hsome).2 _ (List.mem_of_getElem? hstage)).2
    cases hsubmitting
  | refused index instant startedAt verdict hverdict =>
    cases verdict with
    | accept value => exact absurd rfl (hverdict value)
    | _ => rfl
  | settled index result hsettles hterminal hlabel hverdict =>
    cases label with
    | submitReturns index verdict instant => exact absurd rfl (hverdict index verdict instant)
    | _ => rfl
  | _ => rfl

/-- An aborted signal stays so. -/
theorem aborted_kept (hwired : Wired spec s) {label : SystemLabel T}
    {next : AgentSystem T × List (SystemItem T)} (hstep : Acted spec s label next)
    (haborted : s.run.handle.aborted = true) : next.1.run.handle.aborted = true := by
  rcases refines_step hstep with ⟨heq, -⟩ | ⟨inner, hinner⟩
  · rw [heq]
    exact haborted
  · by_cases hinterrupt : inner = .interrupt
    · subst hinterrupt
      have hrun : s.run.interrupt.1 = next.1.run := congrArg Prod.fst (Option.some.inj hinner)
      rw [← hrun]
      exact interrupt_aborted s.run (Or.inl haborted)
    · exact (aborted_step hwired.live hinterrupt hinner).1.trans haborted

theorem accepted_none {label : SystemLabel T} {next : AgentSystem T × List (SystemItem T)}
    (hstep : Acted spec s label next) (haccepts : label.accepts = none)
    (hnone : s.accepted = none) : next.1.accepted = none := by
  by_cases hreturns : ∀ instant, label ≠ .batchReturns instant
  · exact (accepted_kept hstep haccepts hreturns).trans hnone
  · obtain ⟨instant, hlabel⟩ := not_forall.mp hreturns
    obtain rfl := not_not.mp hlabel
    cases hstep with
    | settled => exact hnone
    | batchReturned =>
      dsimp only [AgentSystem.takeAccepted]
      split
      · split
        · rfl
        · exact hnone
      · exact hnone

/-- A loop that has exited stays so. -/
theorem exited_kept (hwired : Wired spec s) {label : SystemLabel T}
    {next : AgentSystem T × List (SystemItem T)} (hexited : s.run.phase = .exited)
    (hstep : Acted spec s label next) : next.1.run.phase = .exited := by
  rcases refines_step hstep with ⟨heq, -⟩ | ⟨inner, hinner⟩
  · rw [heq]
    exact hexited
  · have houtside := outside_of_exited hwired.live hexited hinner
    exact (outside_step houtside hinner).1.phase.trans hexited

/-- **The acceptance.** -/
theorem bound_accepted (hwired : Wired spec s)
    (hunfinished : s.run.handle.finished = false →
      ∀ outcome gate, .run (.finished outcome gate) ∉ history)
    (hnone : ∀ value, ¬ Accepts history value) {index instant : Nat} {value : T}
    {next : AgentSystem T × List (SystemItem T)}
    (hok : Unshadowed { state := s, history } (.submitReturns index (.accept value) instant))
    (hstep : Acted spec s (.submitReturns index (.accept value) instant) next) :
    Bound spec next.1 (history ++ next.2) := by
  by_cases haborted : s.run.handle.aborted = true
  · cases hstep with
    | settled _ _ _ _ _ hverdict => exact absurd rfl (hverdict index (.accept value) instant)
    | refused _ _ _ _ hverdict => exact absurd rfl (hverdict value)
    | accepted index instant startedAt value hstage =>
      obtain ⟨b, position, -, -, -, hwaiting⟩ := hwired.current_batch hstage
      exact .aborted b.batch.calls hwaiting rfl haborted
  · have hlive : s.run.handle.aborted = false := by simpa using haborted
    have hreused : reused s index = false := by
      simpa [Unshadowed, SystemLabel.accepts, hlive] using hok
    have hclean : CommitsCleanly { state := s, history }
        (.submitReturns index (.accept value) instant) := by
      refine ⟨nofun, ?_⟩
      simp [SystemLabel.accepts, hlive, hreused]
    obtain ⟨hfits, hcommitment⟩ :=
      commitment_free hwired hclean hunfinished (fits_of_none hnone) hnone hstep
    cases hcommitment with
    | free hnone' =>
      cases hstep with
      | settled _ _ _ _ _ hverdict => exact absurd rfl (hverdict index (.accept value) instant)
      | refused _ _ _ _ hverdict => exact absurd rfl (hverdict value)
      | accepted =>
        exact absurd ⟨index, List.mem_append_right _ (List.mem_singleton.mpr rfl)⟩ (hnone' value)
    | pending index value call b h => exact .pending index value call b hfits h
    | finished hexited => exact .finished hexited

/-- **On an aborted signal.** -/
theorem bound_aborted {label : SystemLabel T} {next : AgentSystem T × List (SystemItem T)}
    (hwired : Wired spec s) (hsole : Sole s) {calls : List ToolUseBlock}
    (hwaiting : s.run.phase = .batch calls) (haccepted : s.accepted.isSome = true)
    (haborted : s.run.handle.aborted = true) (hstep : Acted spec s label next) :
    Bound spec next.1 (history ++ next.2) := by
  by_cases hreturns : ∀ instant, label ≠ .batchReturns instant
  · have hkept := accepted_kept hstep (not_accepts hsole hstep haccepted) hreturns
    exact .aborted calls (batch_kept hwaiting hreturns hstep) (hkept ▸ haccepted)
      (aborted_kept hwired hstep haborted)
  · obtain ⟨instant, hlabel⟩ := not_forall.mp hreturns
    obtain rfl := not_not.mp hlabel
    cases hstep with
    | settled => exact .aborted calls hwaiting haccepted haborted
    | @batchReturned b results instant next hbatch hreturned hstep =>
      rw [AgentRun.step, hwaiting] at hstep
      cases hstep
      exact .finished (commitBatch_aborted s.run calls results s.accepted instant haborted)

/-- `interrupt()` aborts the signal of a run that has not finished. -/
theorem aborted_of_interrupt {label : SystemLabel T} {next : AgentSystem T × List (SystemItem T)}
    (hlive : s.run.handle.finished = false) (hlabel : label.isInterrupt = true)
    (hstep : Acted spec s label next) : next.1.run.handle.aborted = true := by
  cases hstep with
  | @ran inner next hfree hstep hboundary hinterrupt =>
    cases inner with
    | interrupt => exact absurd rfl hinterrupt
    | _ => cases hlabel
  | interrupted =>
    rw [phase_forwardAbort]
    refine interrupt_aborted s.run ?_
    by_cases haborted : s.run.handle.aborted = true
    · exact Or.inl haborted
    · refine Or.inr ?_
      unfold AgentRun.interrupt
      rw [if_neg (by simp [hlive, haborted])]
      exact List.mem_singleton.mpr rfl
  | settled index result hsettles hterminal hnot =>
    cases label with
    | run inner => exact absurd rfl (hnot inner)
    | _ => cases hlabel
  | _ => cases hlabel

/-- **On a live signal.** -/
theorem bound_pending {label : SystemLabel T} {next : AgentSystem T × List (SystemItem T)}
    (hwired : Wired spec s) (hsole : Sole s) (hlatches : Latches s history)
    (hfits : Chronicle Fits history) {index : Nat} {value : T} {call : ToolUseBlock} {b : BatchRun}
    (h : Pending spec s history index value call b) (hstep : Acted spec s label next) :
    Bound spec next.1 (history ++ next.2) := by
  have haccepted : s.accepted.isSome = true := by
    rw [h.accepted]
    rfl
  have haccepts := not_accepts hsole hstep haccepted
  by_cases hinterrupt : label.isInterrupt = true
  · have hreturns : ∀ instant, label ≠ .batchReturns instant := by
      rintro instant rfl
      cases hinterrupt
    have hlive : s.run.handle.finished = false := by
      rcases hwired.live with ⟨hlive, -⟩ | ⟨-, hexited⟩
      · exact hlive
      · exact absurd (hexited.symm.trans h.waiting) nofun
    have hkept := accepted_kept hstep haccepts hreturns
    exact .aborted b.batch.calls (batch_kept h.waiting hreturns hstep) (hkept ▸ haccepted)
      (aborted_of_interrupt hlive hinterrupt hstep)
  · have hclean : CommitsCleanly { state := s, history } label := by
      refine ⟨fun hlabel => absurd hlabel hinterrupt, ?_⟩
      rw [haccepts]
      rfl
    obtain ⟨hfits', hcommitment⟩ := commitment_pending hwired hsole hclean hfits h hstep
    cases hcommitment with
    | free hnone =>
      obtain ⟨other, at', hmem⟩ := hlatches.accepted haccepted
      exact absurd ⟨at', List.mem_append_left _ hmem⟩ (hnone other)
    | pending index value call b h => exact .pending index value call b hfits' h
    | finished hexited => exact .finished hexited

/-- **One block after the acceptance**, whatever it is. -/
theorem bound_step {label : SystemLabel T} {next : AgentSystem T × List (SystemItem T)}
    (hwired : Wired spec s) (hsole : Sole s) (hlatches : Latches s history)
    (h : Bound spec s history) (hstep : Acted spec s label next) :
    Bound spec next.1 (history ++ next.2) := by
  cases h with
  | aborted calls hwaiting haccepted haborted =>
    exact bound_aborted hwired hsole hwaiting haccepted haborted hstep
  | pending index value call b hfits h => exact bound_pending hwired hsole hlatches hfits h hstep
  | finished hexited => exact .finished (exited_kept hwired hexited hstep)

theorem Bound.waits (hwired : Wired spec s) (h : Bound spec s history) :
    (∃ calls, s.run.phase = .batch calls) ∨ s.run.handle.finished = true := by
  cases h with
  | aborted calls hwaiting => exact Or.inl ⟨calls, hwaiting⟩
  | pending index value call b _ h => exact Or.inl ⟨b.batch.calls, h.waiting⟩
  | finished hexited =>
    refine Or.inr ?_
    rcases hwired.live with ⟨-, hne⟩ | ⟨hdone, -⟩
    · exact absurd hexited hne
    · exact hdone

/-- What is known of every state of a run. -/
structure Known (spec : RunSpec) (r : SystemHistory T) : Prop where
  wired : Wired spec r.state
  sole : Sole r.state
  latches : Latches r.state r.history
  unfinished : r.state.run.handle.finished = false →
    ∀ outcome gate, .run (.finished outcome gate) ∉ r.history

theorem known_of_run {messages : List UserMessage} {ok : SystemHistory T → SystemLabel T → Prop}
    {labels : List (SystemLabel T)} {r : SystemHistory T}
    (run : Run (Recorded.step (AgentSystem.step spec)) ok (AgentSystem.start spec messages) labels
      r) : Known spec r where
  wired := wired_of_run run
  sole := sole_of_run run
  latches := latches_of_run run
  unfinished := by
    intro hlive outcome gate hmem
    obtain ⟨_, hloop⟩ := refines_run run
    cases accounted_of_run hloop with
    | running _ _ hquiet => exact hquiet outcome gate (mem_runItems.mpr hmem)
    | finished hfinished => exact absurd (hfinished.symm.trans hlive) nofun

/-- **After the acceptance the run is about to finish.** -/
theorem Bound.aboutToFinish {messages : List UserMessage}
    {ok : SystemHistory T → SystemLabel T → Prop} {labels : List (SystemLabel T)}
    {r : SystemHistory T}
    (run : Run (Recorded.step (AgentSystem.step spec)) ok (AgentSystem.start spec messages) labels
      r) (h : Bound spec r.state r.history) : AboutToFinish spec r := by
  intro more r' hmore
  have hbound : Bound spec r'.state r'.history := by
    refine hmore.invariant_of (J := Known spec) (I := fun r => Bound spec r.state r.history)
      (fun later => known_of_run (run.free.trans later)) h ?_
    intro u label u' _ hknown hu hstep
    obtain ⟨state, items, hstate, rfl⟩ := Recorded.step_cases hstep
    exact bound_step hknown.wired hknown.sole hknown.latches hu (acted_of_step hstate)
  exact hbound.waits (known_of_run (run.free.trans hmore)).wired

/-- An accepted submission is bound to finish, when no later call has its id. -/
theorem bound_of_run {messages : List UserMessage} {labels : List (SystemLabel T)}
    {r : SystemHistory T}
    (run : Run (Recorded.step (AgentSystem.step spec)) Unshadowed (AgentSystem.start spec messages)
      labels r) : r.state.accepted = none ∨ Bound spec r.state r.history := by
  refine run.invariant_of (J := Known spec)
    (I := fun r => r.state.accepted = none ∨ Bound spec r.state r.history)
    (fun run => known_of_run run) (Or.inl rfl) ?_
  intro u label u' hok hknown hu hstep
  obtain ⟨state, items, hstate, rfl⟩ := Recorded.step_cases hstep
  have hacted := acted_of_step hstate
  rcases hu with hnone | hbound
  · by_cases haccepts : label.accepts = none
    · exact Or.inl (accepted_none hacted haccepts hnone)
    refine Or.inr ?_
    rcases hknown.wired.live with ⟨hlive, -⟩ | ⟨-, hexited⟩
    · have hbefore : ∀ value, ¬ Accepts u.history value := by
        intro value hvalue
        rcases hknown.latches.untaken ⟨value, hvalue⟩ with hsome | hdone
        · rw [hnone] at hsome
          cases hsome
        · exact absurd (hlive.symm.trans hdone) nofun
      cases label with
      | submitReturns index verdict instant =>
        cases verdict with
        | accept value => exact bound_accepted hknown.wired hknown.unfinished hbefore hok hacted
        | _ => exact absurd rfl haccepts
      | _ => exact absurd rfl haccepts
    · exact .finished (exited_kept hknown.wired hexited hacted)
  · exact Or.inr (bound_step hknown.wired hknown.sole hknown.latches hbound hacted)

end Bound

/-- **The finishing latch is exact and never sticks**, in every run in which no later call of its
batch has the id of a submission that is accepted on a live signal. -/
theorem finishing_latch {spec : RunSpec} {messages : List UserMessage}
    {labels : List (SystemLabel T)} {r : SystemHistory T}
    (run : Run (Recorded.step (AgentSystem.step spec)) Unshadowed (AgentSystem.start spec messages)
      labels r) : LatchExact spec r := by
  have hknown := known_of_run run
  have hlatches := hknown.latches
  -- until the run has finished, committing means that something holds the latches
  have hheld : r.state.run.handle.finished = false → (Committing spec r ↔ Held r.state) := by
    intro hlive
    constructor
    · rintro (hstage | ⟨hvalue, -⟩)
      · exact Or.inl hstage
      · rcases hlatches.untaken hvalue with hsome | hdone
        · exact Or.inr hsome
        · exact absurd (hlive.symm.trans hdone) nofun
    · rintro (hstage | hsome)
      · exact Or.inl hstage
      · rcases bound_of_run run with hnone | hbound
        · rw [hnone] at hsome
          cases hsome
        · exact Or.inr ⟨hlatches.accepted hsome, hbound.aboutToFinish run⟩
  refine ⟨fun message => ?_, fun hlive => ?_, fun hlive hphase => ?_⟩
  · rw [steer_refused]
    cases hlive : r.state.run.handle.finished with
    | true => simp
    | false =>
      rw [hheld hlive]
      constructor
      · rintro (hclosed | hdone)
        · refine Or.inr (Classical.not_not.mp fun hopen => ?_)
          exact absurd ((hlatches.opened hlive hopen).2.symm.trans hclosed) nofun
        · cases hdone
      · rintro (hdone | hs)
        · cases hdone
        · exact Or.inl (hlatches.closed hs).2
  · rw [mem_blockers, hheld hlive]
    constructor
    · intro hclosed
      refine Classical.not_not.mp fun hopen => ?_
      exact absurd ((hlatches.opened hlive hopen).1.symm.trans hclosed) nofun
    · exact fun hs => (hlatches.closed hs).1
  · refine hlatches.opened hlive ?_
    rintro (hstage | hsome)
    · obtain ⟨b, position, -, -, hwaiting, -⟩ := hknown.wired.live_of_submitting hstage
      exact hphase _ hwaiting
    · rcases bound_of_run run with hnone | hbound
      · rw [hnone] at hsome
        cases hsome
      · rcases hbound.waits hknown.wired with ⟨calls, hwaiting⟩ | hdone
        · exact hphase calls hwaiting
        · exact absurd (hlive.symm.trans hdone) nofun

/-- A submission that is accepted, and a second call with another id. -/
theorem finishing_latch_accepted :
    ∃ r : SystemHistory Unit, LatchExact sampleSpec r ∧
      r.history.any SystemItem.isAccepted = true ∧ r.state.run.handle.finished = false := by
  obtain ⟨r, run, hr⟩ := exists_run (Recorded.step (AgentSystem.step sampleSpec)) Unshadowed
    (AgentSystem.start sampleSpec [⟨userText "go", rfl⟩])
    (sampleTurn [("a", "submit"), ("b", "submit")] ++ sampleSubmit ++
      [.submitReturns 0 (.accept ()) 4])
    (fun r => r.history.any SystemItem.isAccepted && !r.state.run.handle.finished)
    (by decide +kernel)
  rw [Bool.and_eq_true, Bool.not_eq_true'] at hr
  exact ⟨r, finishing_latch run, hr⟩

/-- The loop is in `runAssistantTurn`. -/
def isStreaming : LoopPhase → Bool
  | .streaming _ _ => true
  | _ => false

/-- A second call of the batch with the id of the accepted one: the loop is in another provider
turn, and both latches are closed. -/
theorem latch_stuck :
    ∃ (r : SystemHistory Unit) (text reasoning : String),
      Run (Recorded.step (AgentSystem.step sampleSpec)) Free
        (AgentSystem.start sampleSpec [⟨userText "go", rfl⟩])
        (sampleTurn [("a", "submit"), ("a", "submit")] ++ sampleSubmit ++
          [.submitReturns 0 (.accept ()) 4, .block .resolveTerminal 5, .block .resumeTerminal 6,
            .preHookReturns 1 .passthrough 7, .block .resolveTerminal 8, .block .resumeTerminal 9,
            .batchReturns 10]) r ∧
      r.state.run.phase = .streaming text reasoning ∧ r.state.submitting = true ∧
      (∀ message, (r.state.run.handle.steer message).2.1 = false) ∧ ¬ LatchExact sampleSpec r := by
  obtain ⟨r, run, hr⟩ := exists_run (Recorded.step (AgentSystem.step sampleSpec)) Free
    (AgentSystem.start sampleSpec [⟨userText "go", rfl⟩])
    (sampleTurn [("a", "submit"), ("a", "submit")] ++ sampleSubmit ++
      [.submitReturns 0 (.accept ()) 4, .block .resolveTerminal 5, .block .resumeTerminal 6,
        .preHookReturns 1 .passthrough 7, .block .resolveTerminal 8, .block .resumeTerminal 9,
        .batchReturns 10])
    (fun r => r.state.submitting && r.state.run.handle.finishing &&
      !r.state.run.handle.finished && isStreaming r.state.run.phase) (by decide +kernel)
  simp only [Bool.and_eq_true, Bool.not_eq_true'] at hr
  obtain ⟨⟨⟨hsubmitting, hfinishing⟩, hlive⟩, htest⟩ := hr
  cases hphase : r.state.run.phase with
  | streaming text reasoning =>
    refine ⟨r, text, reasoning, run, hphase, hsubmitting, fun message => ?_, fun hexact => ?_⟩
    · exact (steer_refused _ message).mpr (Or.inl hfinishing)
    · have hopen := hexact.reopened hlive (by simp [hphase])
      cases hopen.1.symm.trans hsubmitting
  | _ =>
    rw [hphase] at htest
    cases htest

end EphemeralAgent.Runtime
