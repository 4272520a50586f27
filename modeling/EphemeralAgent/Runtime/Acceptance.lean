import EphemeralAgent.Engine.Endings
import EphemeralAgent.Runtime.FinishingLatch

/-!
# The outcome and the acceptance

* `Backed` — a terminal result, and an outcome with an accepted value, come from an acceptance
* `completed_iff_accepts` — a run that commits cleanly completes exactly when it has accepted
* `cancelled_of_aborted` — an aborted run that has accepted nothing ends as cancelled
* `Doomed`, `doomed_step` — and it stays bound to it while nothing is accepted
* `Flight`, `flight_step` — what a block does to the submission in flight
-/

namespace EphemeralAgent.Runtime

open Lib Engine Tool

variable {T : Type}

/-- The outcome that a run has finished with. -/
def outcomeOf (history : List (SystemItem T)) : Option (AgentOutcome T) :=
  history.findSome? fun item =>
    match item with
    | .run (.finished outcome _) => some outcome
    | _ => none

section Outcome

variable {history items : List (SystemItem T)} {outcome : AgentOutcome T}

theorem finished_of_outcomeOf (h : outcomeOf history = some outcome) :
    ∃ gate, .run (.finished outcome gate) ∈ history := by
  obtain ⟨item, hitem, heq⟩ := List.exists_of_findSome?_eq_some h
  split at heq
  · next outcome' gate =>
    cases heq
    exact ⟨gate, hitem⟩
  · cases heq

theorem outcomeOf_none (h : outcomeOf history = none) (outcome : AgentOutcome T)
    (gate : GateState) : .run (.finished outcome gate) ∉ history := by
  intro hmem
  have hitem := List.findSome?_eq_none_iff.mp h _ hmem
  cases hitem

theorem outcomeOf_append :
    outcomeOf (history ++ items) = (outcomeOf history).or (outcomeOf items) :=
  List.findSome?_append

/-- What a run has finished with does not change. -/
theorem outcomeOf_kept (h : outcomeOf history = some outcome) :
    outcomeOf (history ++ items) = some outcome := by
  rw [outcomeOf_append, h, Option.some_or]

end Outcome

/-! ## Terminal results -/

/-- Terminal results, the accepted value and a finish with it come from an acceptance. -/
structure Backed (s : AgentSystem T) (history : List (SystemItem T)) : Prop where
  stages : ∀ result : PipelineResult, .settled (.ok result) ∈ s.stages →
    result.isTerminal = true → ∃ value, Accepts history value
  batch : ∀ b, s.batch = some b → ∀ index result, .completed index result ∈ b.history →
    result.isTerminal = true → ∃ value, Accepts history value
  accepted : ∀ value, s.accepted = some value → Accepts history value
  finished : ∀ outcome gate, .run (.finished outcome gate) ∈ history →
    ∀ value, outcome.status = .completed (.accepted value) → Accepts history value

section Backed

variable {spec : RunSpec} {s s' : AgentSystem T} {history items : List (SystemItem T)}

theorem Accepts.append {value : T} (h : Accepts history value) : Accepts (history ++ items) value :=
  h.imp fun _ hmem => List.mem_append_left _ hmem

/-- A block that adds no terminal result. -/
theorem Backed.kept (h : Backed s history)
    (hstages : ∀ result : PipelineResult, .settled (.ok result) ∈ s'.stages →
      result.isTerminal = true → .settled (.ok result) ∈ s.stages)
    (hbatch : ∀ b', s'.batch = some b' → ∀ index result, .completed index result ∈ b'.history →
      result.isTerminal = true → (∃ value, Accepts history value) ∨
        ∃ b, s.batch = some b ∧ .completed index result ∈ b.history)
    (haccepted : ∀ value, s'.accepted = some value → s.accepted = some value)
    (hitems : ∀ outcome gate, .run (.finished outcome gate) ∈ items →
      ∀ value, outcome.status = .completed (.accepted value) → s.accepted = some value) :
    Backed s' (history ++ items) where
  stages := by
    intro result hmem hterminal
    obtain ⟨value, hvalue⟩ := h.stages result (hstages result hmem hterminal) hterminal
    exact ⟨value, hvalue.append⟩
  batch := by
    intro b' hb' index result hmem hterminal
    rcases hbatch b' hb' index result hmem hterminal with ⟨value, hvalue⟩ | ⟨b, hb, hold⟩
    · exact ⟨value, hvalue.append⟩
    · obtain ⟨value, hvalue⟩ := h.batch b hb index result hold hterminal
      exact ⟨value, hvalue.append⟩
  accepted := fun value hvalue => (h.accepted value (haccepted value hvalue)).append
  finished := by
    intro outcome gate hmem value hvalue
    rcases List.mem_append.mp hmem with hmem | hmem
    · exact (h.finished outcome gate hmem value hvalue).append
    · exact (h.accepted value (hitems outcome gate hmem value hvalue)).append

/-- A stage that is set to one without a terminal result. -/
theorem mem_set_plain {index : Nat} {new : CallStage}
    (hnew : ∀ result : PipelineResult, new = .settled (.ok result) → result.isTerminal = false) :
    ∀ result : PipelineResult, .settled (.ok result) ∈ s.stages.set index new →
      result.isTerminal = true → .settled (.ok result) ∈ s.stages := by
  intro result hmem hterminal
  rcases List.mem_or_eq_of_mem_set hmem with hmem | heq
  · exact hmem
  · exact absurd ((hnew result heq.symm).symm.trans hterminal) nofun

theorem mem_batch_kept : ∀ b, s.batch = some b → ∀ index (result : ToolCallResult),
    .completed index result ∈ b.history → result.isTerminal = true →
      (∃ value, Accepts history value) ∨ ∃ b, s.batch = some b ∧ .completed index result ∈ b.history :=
  fun b hb _ _ hmem _ => .inr ⟨b, hb, hmem⟩

/-- A call that is dispatched does not settle with a terminal result at once. -/
theorem dispatch_plain {index instant : Nat} : ∀ result : PipelineResult,
    .settled (.ok result) ∈ (s.dispatch spec index instant).1.stages → result.isTerminal = true →
      .settled (.ok result) ∈ s.stages := by
  unfold AgentSystem.dispatch
  split
  · next call hcall =>
    split
    · refine mem_set_plain fun result heq => ?_
      unfold enter at heq
      split at heq
      · cases heq
        rfl
      · split at heq
        · cases heq
        · cases heq
          rfl
        · cases heq
    · exact mem_set_plain nofun
  · exact fun _ hmem _ => hmem

/-- The batch settles a call with the outcome of its stage. -/
theorem settled_of_batchLabel {b : BatchRun} {part : BatchPart} {instant : Nat} {label : BatchLabel}
    (hlabel : s.batchLabel b instant part = some label) {outcome : Except String PipelineResult}
    (houtcome : label.outcome = some outcome) : .settled outcome ∈ s.stages := by
  cases part with
  | spawn | resume | proceed | resumeTerminal =>
    cases hlabel
    cases houtcome
  | resolve lane =>
    simp only [AgentSystem.batchLabel] at hlabel
    split at hlabel
    · split at hlabel
      · next hstage =>
        cases hlabel
        cases houtcome
        exact List.mem_of_getElem? hstage
      · cases hlabel
    · cases hlabel
  | resolveTerminal =>
    simp only [AgentSystem.batchLabel] at hlabel
    split at hlabel
    · split at hlabel
      · next hfound =>
        cases hlabel
        cases houtcome
        obtain ⟨i, -, hstage⟩ := Option.bind_eq_some_iff.mp hfound
        exact List.mem_of_getElem? hstage
      · cases hlabel
    · cases hlabel

/-- An error result is not terminal. -/
theorem ok_of_executeCall {tools : List String} {call : ToolUseBlock}
    {outcome : Except String PipelineResult} {instant : Nat}
    (h : (executeCall tools call outcome instant).isTerminal = true) :
    ∃ settled, outcome = .ok settled ∧ settled.isTerminal = true := by
  unfold executeCall at h
  split at h
  · cases outcome with
    | ok settled => exact ⟨settled, rfl, h⟩
    | error message => cases h
  · cases h

/-- **A terminal result of the batch is one of a call.** -/
theorem terminal_of_completed {b b' : BatchRun} {part : BatchPart} {instant : Nat}
    {label : BatchLabel} (hlabel : s.batchLabel b instant part = some label)
    (hstep : b.step spec.bound (.block label) = some b') {index : Nat} {result : ToolCallResult}
    (hmem : .completed index result ∈ b'.history) (hterminal : result.isTerminal = true) :
    .completed index result ∈ b.history ∨
      ∃ settled : PipelineResult, .settled (.ok settled) ∈ s.stages ∧ settled.isTerminal = true := by
  obtain ⟨next, hblock, rfl⟩ := Option.map_eq_some_iff.mp hstep
  rcases List.mem_append.mp hmem with hold | hnew
  · exact .inl hold
  obtain ⟨call, outcome, at', houtcome, rfl⟩ := completed_of_block hblock hnew
  obtain ⟨settled, rfl, hsettled⟩ := ok_of_executeCall hterminal
  exact .inr ⟨settled, settled_of_batchLabel hlabel houtcome, hsettled⟩

/-- No run item among these. -/
theorem not_finished_plain (h : ∀ item ∈ items, item.isPlain = true) (outcome : AgentOutcome T)
    (gate : GateState) : .run (.finished outcome gate) ∉ items :=
  fun hmem => absurd (h _ hmem) nofun

/-- A block of the loop finishes with an accepted value only when its batch hands it over. -/
theorem finished_accepted {label : RunLabel T} {next : AgentRun T × List (RunItem T)}
    (hstep : s.run.step spec.loop label = some next) {outcome : AgentOutcome T} {gate : GateState}
    (hmem : .run (.finished outcome gate) ∈ next.2.map (SystemItem.run (T := T))) {value : T}
    (hvalue : outcome.status = .completed (.accepted value)) :
    ∃ results instant, label = .batchReturns results (some value) instant := by
  obtain ⟨item, hitem, heq⟩ := List.mem_map.mp hmem
  cases heq
  have hending := ending_step hstep outcome gate hitem
  rw [hvalue] at hending
  cases hending with
  | accepted _ results instant hlabel => exact ⟨results, instant, hlabel⟩

/-- Only the return of the batch finishes a run with an accepted value. -/
theorem not_finished_accepted {label : RunLabel T} {next : AgentRun T × List (RunItem T)}
    (hstep : s.run.step spec.loop label = some next)
    (hlabel : ∀ results accepted instant, label ≠ .batchReturns results accepted instant) :
    ∀ outcome gate, .run (.finished outcome gate) ∈ next.2.map (SystemItem.run (T := T)) →
      ∀ value, outcome.status = .completed (.accepted value) → s.accepted = some value := by
  intro outcome gate hmem value hvalue
  obtain ⟨results, instant, heq⟩ := finished_accepted hstep hmem hvalue
  exact absurd heq (hlabel results _ instant)

theorem Backed.opens (h : Backed s history) {next : AgentRun T × List (RunItem T)}
    (hstep : s.run.step spec.loop .boundaryReturns = some next) :
    Backed ({ s with run := next.1 }.openBatch spec) (history ++ next.2.map .run) := by
  have hitems := not_finished_accepted hstep (by simp)
  unfold AgentSystem.openBatch
  split
  · refine h.kept ?_ ?_ (fun _ => id) hitems
    · intro result hmem
      cases List.eq_of_mem_replicate hmem
    · -- the new batch has recorded its abort at most
      intro b' hb' index result hmem
      cases hb'
      simp only [BatchRun.initial] at hmem
      split at hmem
      · cases List.mem_singleton.mp hmem
      · cases hmem
  · exact h.kept (fun _ hmem _ => hmem) mem_batch_kept (fun _ => id) hitems

theorem Backed.interrupted (h : Backed s history) :
    Backed ({ s with run := s.run.interrupt.1 }.forwardAbort spec)
      (history ++ s.run.interrupt.2.map .run) := by
  have hitems : ∀ outcome gate, .run (.finished outcome gate) ∈
      s.run.interrupt.2.map (SystemItem.run (T := T)) → ∀ value,
      outcome.status = .completed (.accepted value) → s.accepted = some value := by
    intro outcome gate hmem
    obtain ⟨item, hitem, heq⟩ := List.mem_map.mp hmem
    cases heq
    cases (outside_interrupt s.run).2 _ hitem
  unfold AgentSystem.forwardAbort
  split
  · refine h.kept (fun _ hmem _ => hmem) ?_ (fun _ => id) hitems
    intro b' hb' index result hmem _
    obtain ⟨b, hb, rfl⟩ := Option.map_eq_some_iff.mp hb'
    refine .inr ⟨b, hb, ?_⟩
    rw [BatchRun.step] at hmem
    split at hmem
    · exact hmem
    · rcases List.mem_append.mp hmem with hmem | hmem
      · exact hmem
      · cases List.mem_singleton.mp hmem
  · exact h.kept (fun _ hmem _ => hmem) mem_batch_kept (fun _ => id) hitems

/-- A terminal result that the batch records stands in a stage, which is backed. -/
theorem Backed.recorded (h : Backed s history) {b b' : BatchRun} {part : BatchPart} {instant : Nat}
    {label : BatchLabel} (hbatch : s.batch = some b)
    (hlabel : s.batchLabel b instant part = some label)
    (hstep : b.step spec.bound (.block label) = some b') {index : Nat} {result : ToolCallResult}
    (hmem : .completed index result ∈ b'.history) (hterminal : result.isTerminal = true) :
    (∃ value, Accepts history value) ∨ ∃ b, s.batch = some b ∧ .completed index result ∈ b.history := by
  rcases terminal_of_completed hlabel hstep hmem hterminal with hold | ⟨settled, hstage, hsettled⟩
  · exact .inr ⟨b, hbatch, hold⟩
  · exact .inl (h.stages settled hstage hsettled)

theorem dispatch_batch {index instant : Nat} :
    (s.dispatch spec index instant).1.batch = s.batch ∧
      (s.dispatch spec index instant).1.accepted = s.accepted := by
  rcases dispatch_eq spec s index instant with heq | ⟨_, heq, -⟩
  · rw [heq]
    exact ⟨rfl, rfl⟩
  · rw [heq]
    exact ⟨rfl, rfl⟩

/-- Once a value has been accepted, it backs whatever is terminal. -/
theorem Backed.accepts (h : Backed s history) {index : Nat} {value : T} {stages : List CallStage} :
    Backed { s with stages, accepted := some value } (history ++ [.accepted index value]) := by
  have haccepts : Accepts (history ++ [.accepted index value]) value :=
    ⟨index, List.mem_append_right _ (List.mem_singleton.mpr rfl)⟩
  refine ⟨fun _ _ _ => ⟨value, haccepts⟩, fun _ _ _ _ _ _ => ⟨value, haccepts⟩, ?_, ?_⟩
  · intro other hother
    cases hother
    exact haccepts
  · intro outcome gate hmem other hother
    rcases List.mem_append.mp hmem with hmem | hmem
    · exact (h.finished outcome gate hmem other hother).append
    · cases List.mem_singleton.mp hmem

/-- The value is taken once the batch returns, or stays as it is. -/
theorem accepted_of_takeAccepted {results : List ToolCallResult} {instant : Nat} {value : T}
    (h : s.takeAccepted results instant = some value) : s.accepted = some value := by
  unfold AgentSystem.takeAccepted at h
  split at h
  · split at h
    · cases h
    · exact h
  · exact h

/-- **One block.** -/
theorem backed_step {label : SystemLabel T} {next : AgentSystem T × List (SystemItem T)}
    (h : Backed s history) (hstep : Acted spec s label next) :
    Backed next.1 (history ++ next.2) := by
  cases hstep with
  | ran hfree hstep =>
    refine h.kept (fun _ hmem _ => hmem) mem_batch_kept (fun _ => id)
      (not_finished_accepted hstep ?_)
    rintro results accepted instant rfl
    cases hfree
  | opened hstep => exact h.opens hstep
  | interrupted => exact h.interrupted
  | blocked hbatch hlabel hstep =>
    refine h.kept (fun _ hmem _ => hmem) ?_ (fun _ => id) fun outcome gate hmem =>
      absurd hmem (not_finished_plain (plain_batch _) outcome gate)
    intro b' hb' index result hmem hterminal
    cases hb'
    exact h.recorded hbatch hlabel hstep hmem hterminal
  | dispatched hbatch hlabel hstep =>
    refine h.kept dispatch_plain ?_ (fun _ => dispatch_batch.2.symm.trans)
      fun outcome gate hmem => absurd hmem (not_finished_plain plain_dispatched outcome gate)
    intro b' hb' index result hmem hterminal
    cases hb'.symm.trans dispatch_batch.1
    exact h.recorded hbatch hlabel hstep hmem hterminal
  | settled index result _ hterminal =>
    refine h.kept (mem_set_plain fun settled heq => ?_) mem_batch_kept (fun _ => id) (by simp)
    cases heq
    exact hterminal
  | executed | gatePassed | returned | submitted =>
    exact h.kept (mem_set_plain (by simp)) mem_batch_kept (fun _ => id)
      fun outcome gate hmem => by simp at hmem
  | accepted => exact h.accepts
  | refused index instant startedAt verdict hverdict =>
    refine h.kept (mem_set_plain fun settled heq => ?_) mem_batch_kept (fun _ => id) (by simp)
    cases heq
    cases verdict with
    | accept value => exact absurd rfl (hverdict value)
    | reject reason => exact stamp_isTerminal _ _ _
    | threw message => exact stamp_isTerminal _ _ _
  | batchReturned hbatch hreturned hstep =>
    refine h.kept (fun _ hmem _ => hmem) mem_batch_kept (fun _ => accepted_of_takeAccepted) ?_
    intro outcome gate hmem value hvalue
    obtain ⟨_, _, hlabel⟩ := finished_accepted hstep hmem hvalue
    injection hlabel

theorem backed_of_run {messages : List UserMessage} {ok : SystemHistory T → SystemLabel T → Prop}
    {labels : List (SystemLabel T)} {r : SystemHistory T}
    (run : Run (Recorded.step (AgentSystem.step spec)) ok (AgentSystem.start spec messages) labels
      r) : Backed r.state r.history := by
  refine run.invariant (I := fun r => Backed r.state r.history) ⟨nofun, nofun, nofun, ?_⟩ ?_
  · intro outcome gate hmem value hvalue
    obtain ⟨item, hitem, heq⟩ := List.mem_map.mp hmem
    cases heq
    have hstart : EndsBy (Ending spec.loop (AgentRun.fresh (T := T) messages) .interrupt)
        (AgentRun.start (T := T) spec.loop messages).history := by
      refine EndsBy.append (endsBy_quiet fun item hitem => ?_) (endsBy_loopHead rfl)
      obtain ⟨message, -, rfl⟩ := List.mem_map.mp hitem
      rfl
    have hending := hstart outcome gate hitem
    rw [hvalue] at hending
    cases hending with
    | accepted _ _ _ hlabel => cases hlabel
  · intro r label r' _ hr hstep
    obtain ⟨state, items, hstate, rfl⟩ := Recorded.step_cases hstep
    exact backed_step hr (acted_of_step hstate)

/-! ## How an assembled run ends -/

/-- A terminal result in what the batch has returned was recorded by it. -/
theorem completed_of_normalized {b : BatchRun} (hsound : Sound b.batch.calls spec.terminal b)
    {results : List ToolCallResult} (hreturned : b.batch.phase = .returned results)
    {calls : List ToolUseBlock} {instant : Nat}
    (hterminal : (normalizeBatch calls results instant).any (·.isTerminal) = true) :
    ∃ index result, .completed index result ∈ b.history ∧ result.isTerminal = true := by
  obtain ⟨result, hresult, hterminal⟩ := List.any_eq_true.mp hterminal
  obtain ⟨call, -, rfl⟩ := List.mem_map.mp hresult
  -- an error result is not terminal
  have hfound : ∃ found ∈ results, found.isTerminal = true := by
    cases hfind : results.reverse.find? fun result => result.toolUseId == call.toolUseId with
    | none =>
      rw [hfind] at hterminal
      cases hterminal
    | some found =>
      rw [hfind] at hterminal
      exact ⟨found, List.mem_reverse.mp (List.mem_of_find?_eq_some hfind), hterminal⟩
  obtain ⟨found, hfound, hterminal⟩ := hfound
  obtain ⟨opened, -, hposition⟩ := hsound.position
  rw [hreturned] at hposition
  obtain ⟨-, -, ⟨at', rfl⟩, -⟩ := hposition
  obtain ⟨index, hlt, rfl⟩ := List.mem_mapIdx.mp hfound
  cases hslot : b.batch.settled[index]? with
  | none =>
    rw [hslot] at hterminal
    cases hterminal
  | some slot =>
    cases slot with
    | none =>
      rw [hslot] at hterminal
      cases hterminal
    | some result =>
      rw [hslot] at hterminal
      exact ⟨index, result, (hsound.slotted.completed index result).mpr hslot, hterminal⟩

/-- **An aborted run that has accepted nothing ends as cancelled.** -/
theorem cancelled_of_aborted {label : SystemLabel T}
    {next : AgentSystem T × List (SystemItem T)} (hwired : Wired spec s) (h : Backed s history)
    (hterminal : spec.terminal.isSome = true) (haborted : s.run.handle.aborted = true)
    (hnone : ∀ value, ¬ Accepts history value) (hstep : Acted spec s label next)
    {outcome : AgentOutcome T} {gate : GateState}
    (hmem : .run (.finished outcome gate) ∈ next.2) : outcome.status = .cancelled := by
  have hmode : spec.loop.mode = .terminal := by simp [RunSpec.loop, hterminal]
  -- what the label of the loop says of its end
  have hloop : ∀ {label : RunLabel T} {next : AgentRun T × List (RunItem T)},
      s.run.step spec.loop label = some next →
      .run (.finished outcome gate) ∈ next.2.map (SystemItem.run (T := T)) →
      (∀ results accepted instant, label ≠ .batchReturns results accepted instant) →
      outcome.status = .cancelled := by
    intro label next hstep hmem hlabel
    obtain ⟨item, hitem, heq⟩ := List.mem_map.mp hmem
    cases heq
    have hending := ending_step hstep outcome gate hitem
    generalize outcome.status = status at hending
    cases hending with
    | cancelled => rfl
    | text _ htext => cases hmode.symm.trans htext
    | accepted _ _ _ hbatch => exact absurd hbatch (hlabel _ _ _)
    | failed _ hlive => cases haborted.symm.trans hlive
    | unaccepted _ _ _ _ _ _ hbatch => exact absurd hbatch (hlabel _ _ _)
  cases hstep with
  | ran hfree hstep =>
    refine hloop hstep hmem ?_
    rintro results accepted instant rfl
    cases hfree
  | opened hstep => exact hloop hstep hmem (by simp)
  | interrupted =>
    have hstep : s.run.step spec.loop .interrupt = some s.run.interrupt := rfl
    exact hloop hstep hmem (by simp)
  | blocked => exact absurd hmem (not_finished_plain (plain_batch _) outcome gate)
  | dispatched => exact absurd hmem (not_finished_plain plain_dispatched outcome gate)
  | settled | returned | refused => cases hmem
  | executed | gatePassed | submitted | accepted => simp at hmem
  | @batchReturned b results instant next hbatch hreturned hstep =>
    obtain ⟨item, hitem, heq⟩ := List.mem_map.mp hmem
    cases heq
    have hending := ending_step hstep outcome gate hitem
    generalize hstatus : outcome.status = status at hending
    cases hending with
    | cancelled => rfl
    | text _ htext => cases hmode.symm.trans htext
    | accepted value _ _ hlabel =>
      injection hlabel with _ haccepted
      exact absurd (h.accepted value haccepted) (hnone value)
    | failed _ hlive => cases haborted.symm.trans hlive
    | unaccepted _ calls returned _ at' _ hlabel hresults =>
      injection hlabel with hsame
      subst hsame
      obtain ⟨index, result, hcompleted, hresult⟩ :=
        completed_of_normalized (hwired.sound b hbatch) hreturned hresults
      obtain ⟨value, hvalue⟩ := h.batch b hbatch index result hcompleted hresult
      exact absurd hvalue (hnone value)

/-- **A run that commits cleanly and has accepted completes**, and no other run does. -/
theorem completed_iff_accepts {messages : List UserMessage} {labels : List (SystemLabel T)}
    {r : SystemHistory T}
    (run : Run (Recorded.step (AgentSystem.step spec)) CommitsCleanly
      (AgentSystem.start spec messages) labels r) {outcome : AgentOutcome T}
    (houtcome : outcomeOf r.history = some outcome) (value : T) :
    outcome.status = .completed (.accepted value) ↔ Accepts r.history value := by
  obtain ⟨gate, hmem⟩ := finished_of_outcomeOf houtcome
  constructor
  · exact (backed_of_run run).finished outcome gate hmem value
  · rintro ⟨index, haccepted⟩
    obtain ⟨hfits, -⟩ := commitment_of_run run
    obtain ⟨before, after, hhistory⟩ := List.append_of_mem haccepted
    obtain ⟨-, hunfinished⟩ := hfits before _ after hhistory
    rw [hhistory, List.mem_append, List.mem_cons] at hmem
    rcases hmem with hmem | hmem | hmem
    · exact absurd hmem (hunfinished outcome gate)
    · cases hmem
    · obtain ⟨first, rest, rfl⟩ := List.append_of_mem hmem
      have hfinish : Fits (before ++ .accepted index value :: first)
          (.run (.finished outcome gate)) := hfits _ _ rest (by rw [hhistory]; simp)
      exact hfinish value ⟨index, by simp⟩

/-- What an agent with a terminal tool completes with has been accepted. -/
theorem accepts_of_completed {messages : List UserMessage} {ok : SystemHistory T → SystemLabel T → Prop}
    {labels : List (SystemLabel T)} {r : SystemHistory T} (hterminal : spec.terminal.isSome = true)
    (run : Run (Recorded.step (AgentSystem.step spec)) ok (AgentSystem.start spec messages) labels
      r) {outcome : AgentOutcome T} (houtcome : outcomeOf r.history = some outcome)
    {completion : Completion T} (hstatus : outcome.status = .completed completion) :
    ∃ value, completion = .accepted value ∧ Accepts r.history value := by
  obtain ⟨gate, hmem⟩ := finished_of_outcomeOf houtcome
  cases completion with
  | accepted value =>
    exact ⟨value, rfl, (backed_of_run run).finished outcome gate hmem value hstatus⟩
  | text text =>
    obtain ⟨_, hloop⟩ := refines_run run
    have hmode : spec.loop.mode = .terminal := by simp [RunSpec.loop, hterminal]
    have hshown : .finished outcome gate ∈ (SystemHistory.loop r).history :=
      List.mem_filterMap.mpr ⟨_, hmem, rfl⟩
    exact absurd hstatus (notText_of_run hmode hloop outcome gate hshown text)

/-- A run that has not ended with anything is live. -/
theorem live_of_outcomeOf_none {messages : List UserMessage}
    {ok : SystemHistory T → SystemLabel T → Prop} {labels : List (SystemLabel T)}
    {r : SystemHistory T}
    (run : Run (Recorded.step (AgentSystem.step spec)) ok (AgentSystem.start spec messages) labels
      r) (hnone : outcomeOf r.history = none) : r.state.run.handle.finished = false := by
  obtain ⟨_, hloop⟩ := refines_run run
  cases accounted_of_run hloop with
  | running hfinished => exact hfinished
  | finished _ _ before after outcome gate heq =>
    have hshown : .finished outcome gate ∈ runItems r.history := by
      rw [show runItems r.history = before ++ .finished outcome gate :: after from heq]
      simp
    obtain ⟨item, hitem, hrun⟩ := List.mem_filterMap.mp hshown
    split at hrun
    · cases hrun
      exact absurd hitem (outcomeOf_none hnone outcome gate)
    · cases hrun

/-- The run has ended as cancelled, or it has been aborted and can end no other way. -/
structure Doomed (r : SystemHistory T) : Prop where
  nothing : ∀ value, ¬ Accepts r.history value
  ends : outcomeOf r.history = none ∧ r.state.run.handle.aborted = true ∨
    ∃ outcome, outcomeOf r.history = some outcome ∧ outcome.status = .cancelled

/-- A doomed run stays so while nothing is accepted. -/
theorem doomed_step {r : SystemHistory T} {s' : AgentSystem T} {label : SystemLabel T}
    (hwired : Wired spec r.state) (hbacked : Backed r.state r.history)
    (hterminal : spec.terminal.isSome = true) (h : Doomed r)
    (hitems : ∀ item ∈ items, item.isAccepted = false)
    (hstep : Acted spec r.state label (s', items)) :
    Doomed { state := s', history := r.history ++ items } := by
  refine ⟨fun value => ?_, ?_⟩
  · rw [accepts_append hitems]
    exact h.nothing value
  rcases h.ends with ⟨hnone, haborted⟩ | ⟨outcome, houtcome, hstatus⟩
  · rw [outcomeOf_append, hnone, Option.none_or]
    cases hended : outcomeOf items with
    | none => exact .inl ⟨rfl, aborted_kept hwired hstep haborted⟩
    | some outcome =>
      obtain ⟨gate, hmem⟩ := finished_of_outcomeOf hended
      exact .inr ⟨outcome, rfl,
        cancelled_of_aborted hwired hbacked hterminal haborted h.nothing hstep hmem⟩
  · exact .inr ⟨outcome, outcomeOf_kept houtcome, hstatus⟩

/-- While `onSubmit` is executing nothing has finished. -/
theorem Known.unfinished_of_submitting {r : SystemHistory T} (h : Known spec r)
    (hflight : ∃ stage ∈ r.state.stages, isSubmitting stage = true) :
    outcomeOf r.history = none := by
  obtain ⟨-, -, -, -, -, hlive⟩ := h.wired.live_of_submitting hflight
  cases houtcome : outcomeOf r.history with
  | none => rfl
  | some outcome =>
    obtain ⟨gate, hmem⟩ := finished_of_outcomeOf houtcome
    exact absurd hmem (h.unfinished hlive outcome gate)

/-! ## The submission in flight -/

/-- The data that `onSubmit` is called with. -/
def SystemItem.submission? : SystemItem T → Option Json
  | .submitted _ data _ => some data
  | _ => none

/-- `await fn.onSubmit(..)`. -/
def Submitting (s : AgentSystem T) : Prop :=
  ∃ stage ∈ s.stages, isSubmitting stage = true

/-- What a block does to the submission in flight. -/
inductive Flight (s : AgentSystem T) (label : SystemLabel T)
    (next : AgentSystem T × List (SystemItem T)) : Prop
  | opened (index : Nat) (data : Json) (gate : GateState)
      (hlabel : ∀ index verdict instant, label ≠ .submitReturns index verdict instant)
      (hitems : next.2 = [.submitted index data gate]) (hbefore : ¬ Submitting s)
      (hafter : Submitting next.1)
  | closed (index : Nat) (verdict : SubmitVerdict T) (instant : Nat)
      (hlabel : label = .submitReturns index verdict instant)
      (hitems : next.2 = match verdict with
        | .accept value => [.accepted index value]
        | _ => []) (hbefore : Submitting s) (hafter : ¬ Submitting next.1)
  | kept (hlabel : ∀ index verdict instant, label ≠ .submitReturns index verdict instant)
      (hitems : ∀ item ∈ next.2, item.isAccepted = false ∧ item.submission? = none)
      (hstages : Submitting next.1 ↔ Submitting s)

theorem run_quiet (shown : List (RunItem T)) : ∀ item ∈ shown.map (SystemItem.run (T := T)),
    item.isAccepted = false ∧ item.submission? = none := by
  intro item hitem
  obtain ⟨_, -, rfl⟩ := List.mem_map.mp hitem
  exact ⟨rfl, rfl⟩

/-- **One block opens the submission in flight, closes it, or leaves it alone.** -/
theorem flight_step {label : SystemLabel T} {next : AgentSystem T × List (SystemItem T)}
    (hwired : Wired spec s) (hstep : Acted spec s label next) : Flight s label next := by
  cases hstep with
  | ran => exact .kept (by simp) (run_quiet _) Iff.rfl
  | @opened next hstep =>
    -- the loop waits for its batch while a call is submitting
    have hquiet : ¬ Submitting s := by
      intro hflight
      obtain ⟨b, position, -, -, hwaiting, -⟩ := hwired.live_of_submitting hflight
      simp [AgentRun.step, hwaiting] at hstep
    refine .kept (by simp) (run_quiet _) (iff_of_false ?_ hquiet)
    rintro ⟨stage, hstage, hsubmitting⟩
    exact hquiet ⟨stage, mem_openBatch_stages hstage (.inr hsubmitting), hsubmitting⟩
  | interrupted =>
    refine .kept (by simp) (run_quiet _) ?_
    unfold AgentSystem.forwardAbort
    split <;> exact Iff.rfl
  | blocked =>
    refine .kept (by simp) (fun item hitem => ?_) Iff.rfl
    obtain ⟨_, -, rfl⟩ := List.mem_map.mp hitem
    exact ⟨rfl, rfl⟩
  | dispatched hbatch hlabel hstep hhistory =>
    refine .kept (by simp) (fun item hitem => ?_) (submitting_dispatch hwired hbatch _ hstep hhistory)
    rcases List.mem_cons.mp hitem with rfl | hitem
    · exact ⟨rfl, rfl⟩
    · obtain ⟨facts, rfl⟩ := dispatch_items _ _ _ _ item hitem
      exact ⟨rfl, rfl⟩
  | settled index result hsettles _ _ hverdict =>
    refine .kept hverdict (by simp) ?_
    cases hsettles with
    | denied data hstage | stamped executed startedAt endedAt hstage | vetoed data hstage =>
      exact submitting_set hstage rfl rfl
  | executed index instant data call hstage | gatePassed index instant data call hstage =>
    exact .kept (by simp) (by simp [SystemItem.isAccepted, SystemItem.submission?])
      (submitting_set hstage rfl rfl)
  | returned index instant startedAt answer result hstage =>
    exact .kept (by simp) (by simp) (submitting_set hstage rfl rfl)
  | submitted index instant data hstage =>
    refine .opened index data _ (by simp) rfl ?_ ?_
    · -- the submission that waits for its hooks is the only one
      rintro ⟨stage, hmem, hsubmitting⟩
      obtain ⟨other, hother⟩ := List.getElem?_of_mem hmem
      cases stage with
      | submitting startedAt =>
        obtain rfl := hwired.unique ⟨_, hother, rfl⟩ ⟨_, hstage, rfl⟩
        cases hother.symm.trans hstage
      | _ => cases hsubmitting
    · refine ⟨.submitting instant, List.mem_of_getElem? (i := index) ?_, rfl⟩
      exact List.getElem?_set_self (List.getElem?_eq_some_iff.mp hstage).1
  -- both answers settle the only submission
  | accepted index instant startedAt value hstage =>
    refine .closed index _ instant rfl rfl ⟨_, List.mem_of_getElem? hstage, rfl⟩ ?_
    rintro ⟨stage, hmem, hsubmitting⟩
    have halone := hwired.alone hstage (.settled
      (.ok (Tool.submitted (.accept value) startedAt instant))) rfl rfl stage hmem
    cases halone.2.symm.trans hsubmitting
  | refused index instant startedAt verdict hverdict hstage =>
    refine .closed index verdict instant rfl ?_ ⟨_, List.mem_of_getElem? hstage, rfl⟩ ?_
    · cases verdict with
      | accept value => exact absurd rfl (hverdict value)
      | _ => rfl
    · rintro ⟨stage, hmem, hsubmitting⟩
      have halone := hwired.alone hstage (.settled
        (.ok (Tool.submitted verdict startedAt instant))) rfl rfl stage hmem
      cases halone.2.symm.trans hsubmitting
  | batchReturned => exact .kept (by simp) (run_quiet _) Iff.rfl

end Backed

end EphemeralAgent.Runtime
