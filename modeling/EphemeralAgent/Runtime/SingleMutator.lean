import EphemeralAgent.Lib.Update
import EphemeralAgent.Runtime.Submission
import EphemeralAgent.Tool.BatchContract

/-!
# The single mutator

An accepted submission completes the run with its value, unless the abort reaches the batch before
the accepted result is recorded, or a later call of the batch has the same id.

* `Commitment` — where an accepted submission is, from `onSubmit` to the finish
* `single_mutator` — **at most one submission is accepted, and it is the outcome of the run**
* `accepted_then_lost` — an interrupt while `onSubmit` is in flight, and a second call with the id
-/

namespace EphemeralAgent.Runtime

open Lib Engine Tool

variable {T : Type}

/-! ## The condition -/

/-- The submission that the batch runs has been accepted, and the batch has not seen it yet. -/
def unrecorded (s : AgentSystem T) : Bool :=
  match s.batch with
  | some b =>
    match b.batch.phase with
    | .terminalRunning position =>
      match (b.batch.terminal[position]?).bind fun index => s.stages[index]? with
      | some (.settled (.ok result)) => result.isTerminal
      | _ => false
    | _ => false
  | none => false

/-- A later call of the batch has the id of this one. -/
def reused (s : AgentSystem T) (index : Nat) : Bool :=
  match s.batch, s.call index with
  | some b, some call =>
    (b.batch.calls.drop (index + 1)).any fun other => other.toolUseId == call.toolUseId
  | _, _ => false

/-- The call whose `onSubmit` accepts. -/
def SystemLabel.accepts : SystemLabel T → Option Nat
  | .submitReturns index (.accept _) _ => some index
  | _ => none

/-- **The condition**: `onSubmit` accepts on a live signal, and no later call of the batch has the
id of the submission; `interrupt()` does not come between an acceptance and its record. -/
def CommitsCleanly (r : SystemHistory T) (label : SystemLabel T) : Prop :=
  (label.isInterrupt = true → unrecorded r.state = false) ∧
    (label.accepts.any fun index =>
      r.state.run.handle.aborted || reused r.state index) = false

instance (r : SystemHistory T) (label : SystemLabel T) : Decidable (CommitsCleanly r label) :=
  inferInstanceAs (Decidable (_ ∧ _))

/-! ## What may be shown after an acceptance -/

/-- A submission has been accepted with this value. -/
def Accepts (history : List (SystemItem T)) (value : T) : Prop :=
  ∃ index, .accepted index value ∈ history

/-- After an acceptance no turn is started, and the run finishes with the accepted value. -/
def Fits (before : List (SystemItem T)) : SystemItem T → Prop
  | .run (.requested _) => ∀ value, ¬ Accepts before value
  | .run (.finished outcome _) =>
    ∀ value, Accepts before value → outcome.status = .completed (.accepted value)
  | .accepted .. =>
    (∀ value, ¬ Accepts before value) ∧ ∀ outcome gate, .run (.finished outcome gate) ∉ before
  | _ => True

def SystemItem.isAccepted : SystemItem T → Bool
  | .accepted .. => true
  | _ => false

section Fits

variable {history items : List (SystemItem T)}

theorem accepts_append (hitems : ∀ item ∈ items, item.isAccepted = false) {value : T} :
    Accepts (history ++ items) value ↔ Accepts history value := by
  constructor
  · rintro ⟨index, hmem⟩
    rcases List.mem_append.mp hmem with hmem | hmem
    · exact ⟨index, hmem⟩
    · exact absurd (hitems _ hmem) nofun
  · rintro ⟨index, hmem⟩
    exact ⟨index, List.mem_append_left _ hmem⟩

/-- A block that accepts nothing. -/
theorem fits_append (h : Chronicle Fits history)
    (hitems : ∀ item ∈ items, item.isAccepted = false ∧ Fits history item) :
    Chronicle Fits (history ++ items) := by
  refine h.append fun before item after heq => ?_
  have hmem : ∀ other ∈ before, other.isAccepted = false := by
    intro other hother
    exact (hitems other (heq ▸ List.mem_append_left _ hother)).1
  obtain ⟨hnot, hfits⟩ := hitems item (heq ▸ List.mem_append_right _ List.mem_cons_self)
  cases item with
  | run item =>
    cases item with
    | requested messages => exact fun value => fun hv => hfits value ((accepts_append hmem).mp hv)
    | finished outcome gate => exact fun value hv => hfits value ((accepts_append hmem).mp hv)
    | _ => trivial
  | accepted => cases hnot
  | _ => trivial

/-- A block from outside the loop fits at any time. -/
theorem fits_outside {shown : List (RunItem T)} (h : ∀ item ∈ shown, item.isInside = false) :
    ∀ item ∈ shown.map (SystemItem.run (T := T)), item.isAccepted = false ∧ Fits history item := by
  intro item hitem
  obtain ⟨inner, hinner, rfl⟩ := List.mem_map.mp hitem
  refine ⟨rfl, ?_⟩
  have houtside := h inner hinner
  cases inner with
  | requested | finished => cases houtside
  | _ => trivial

/-- Before any acceptance every block fits. -/
theorem fits_before {shown : List (RunItem T)} (hnone : ∀ value, ¬ Accepts history value) :
    ∀ item ∈ shown.map (SystemItem.run (T := T)), item.isAccepted = false ∧ Fits history item := by
  intro item hitem
  obtain ⟨inner, hinner, rfl⟩ := List.mem_map.mp hitem
  refine ⟨rfl, ?_⟩
  cases inner with
  | requested messages => exact hnone
  | finished outcome gate => exact fun value hv => absurd hv (hnone value)
  | _ => trivial

end Fits

/-! ## From the acceptance to the finish -/

/-- The accepted result of a call is on its way into the batch, on a live signal, or in it. -/
inductive Delivered (s : AgentSystem T) (b : BatchRun) (index : Nat) : Prop
  | waits {position : Nat} {result : PipelineResult} (hlive : s.run.handle.aborted = false)
      (hphase : b.batch.phase = .terminalRunning position)
      (hindex : b.batch.terminal[position]? = some index)
      (hstage : s.stages[index]? = some (.settled (.ok result)))
      (hterminal : result.isTerminal = true)
  | recorded {result : ToolCallResult} (hcompleted : .completed index result ∈ b.history)
      (hterminal : result.isTerminal = true)

/-- A submission has been accepted, and the loop still waits for its batch. -/
structure Pending (spec : RunSpec) (s : AgentSystem T) (history : List (SystemItem T)) (index : Nat)
    (value : T) (call : ToolUseBlock) (b : BatchRun) : Prop where
  batch : s.batch = some b
  found : b.batch.calls[index]? = some call
  terminal : spec.isTerminal call = true
  last : ∀ j other, index < j → b.batch.calls[j]? = some other →
    other.toolUseId ≠ call.toolUseId
  waiting : s.run.phase = .batch b.batch.calls
  accepted : s.accepted = some value
  only : ∀ other, Accepts history other → other = value
  delivered : Delivered s b index

/-- Where the accepted submission of a run is. -/
inductive Commitment (spec : RunSpec) (s : AgentSystem T) (history : List (SystemItem T)) : Prop
  | free (hnone : ∀ value, ¬ Accepts history value)
  | pending (index : Nat) (value : T) (call : ToolUseBlock) (b : BatchRun)
      (h : Pending spec s history index value call b)
  | finished (hphase : s.run.phase = .exited)

section Commitment

variable {spec : RunSpec} {s : AgentSystem T} {history : List (SystemItem T)}

/-- An item that is neither the loop's nor an acceptance. -/
def SystemItem.isPlain : SystemItem T → Bool
  | .run _ => false
  | .accepted .. => false
  | _ => true

theorem not_accepted_of_plain {item : SystemItem T} (h : item.isPlain = true) :
    item.isAccepted = false := by
  cases item with
  | accepted => cases h
  | _ => rfl

theorem fits_plain {items : List (SystemItem T)} (h : ∀ item ∈ items, item.isPlain = true) :
    ∀ item ∈ items, item.isAccepted = false ∧ Fits history item := by
  intro item hitem
  have hplain := h item hitem
  cases item with
  | run | accepted => cases hplain
  | _ => exact ⟨rfl, trivial⟩

theorem plain_batch (items : List BatchItem) :
    ∀ item ∈ items.map (SystemItem.batch (T := T)), item.isPlain = true := by
  intro item hitem
  obtain ⟨_, -, rfl⟩ := List.mem_map.mp hitem
  rfl

theorem plain_dispatched {s : AgentSystem T} {index instant : Nat} :
    ∀ item ∈ SystemItem.batch (.started index) :: (s.dispatch spec index instant).2,
      item.isPlain = true := by
  intro item hitem
  rcases List.mem_cons.mp hitem with rfl | hitem
  · rfl
  · obtain ⟨facts, rfl⟩ := dispatch_items _ _ _ _ item hitem
    rfl

theorem phase_openBatch (run : AgentRun T) :
    ({ s with run }.openBatch spec).run = run := by
  unfold AgentSystem.openBatch
  split <;> rfl

theorem phase_forwardAbort (run : AgentRun T) :
    ({ s with run }.forwardAbort spec).run = run := by
  unfold AgentSystem.forwardAbort
  split <;> rfl

/-- A submission that is accepted belongs to the batch that the loop waits for. -/
theorem Wired.current_batch (hwired : Wired spec s) {index startedAt : Nat}
    (hstage : s.stages[index]? = some (.submitting startedAt)) :
    ∃ b position, s.batch = some b ∧ b.batch.phase = .terminalRunning position ∧
      b.batch.terminal[position]? = some index ∧ s.run.phase = .batch b.batch.calls := by
  obtain ⟨b, position, hbatch, hphase, hindex⟩ := hwired.current index ⟨_, hstage, rfl⟩
  refine ⟨b, position, hbatch, hphase, hindex, ?_⟩
  rcases hwired.waiting b hbatch with ⟨results, hreturned⟩ | hwaiting
  · exact absurd (hphase.symm.trans hreturned) nofun
  · exact hwaiting

/-- No later call has the id. -/
theorem last_of_reused {b : BatchRun} {index : Nat} {call : ToolUseBlock} (hbatch : s.batch = some b)
    (hcall : s.call index = some call) (h : reused s index = false) {j : Nat} {other : ToolUseBlock}
    (hj : index < j) (hother : b.batch.calls[j]? = some other) :
    other.toolUseId ≠ call.toolUseId := by
  simp only [reused, hbatch, hcall, List.any_eq_false, beq_iff_eq] at h
  refine h other (List.mem_of_getElem? (i := j - (index + 1)) ?_)
  rw [List.getElem?_drop, Nat.add_sub_cancel' hj]
  exact hother

/-- **Before any acceptance.** -/
theorem commitment_free {label : SystemLabel T} {next : AgentSystem T × List (SystemItem T)}
    (hwired : Wired spec s) (hok : CommitsCleanly { state := s, history } label)
    (hunfinished : s.run.handle.finished = false →
      ∀ outcome gate, .run (.finished outcome gate) ∉ history)
    (hfits : Chronicle Fits history) (hnone : ∀ value, ¬ Accepts history value)
    (hstep : Acted spec s label next) :
    Chronicle Fits (history ++ next.2) ∧ Commitment spec next.1 (history ++ next.2) := by
  have hkept : ∀ {items : List (SystemItem T)} {s' : AgentSystem T},
      (∀ item ∈ items, item.isAccepted = false ∧ Fits history item) →
      Chronicle Fits (history ++ items) ∧ Commitment spec s' (history ++ items) := by
    intro items s' hitems
    refine ⟨fits_append hfits hitems, .free fun value => ?_⟩
    rw [accepts_append fun item hitem => (hitems item hitem).1]
    exact hnone value
  cases hstep with
  | ran | opened | interrupted | batchReturned => exact hkept (fits_before hnone)
  | blocked => exact hkept (fits_plain (plain_batch _))
  | dispatched => exact hkept (fits_plain plain_dispatched)
  | settled | returned | refused => exact hkept nofun
  | executed | gatePassed | submitted => exact hkept (fits_plain (by simp [SystemItem.isPlain]))
  | accepted index instant startedAt value hstage =>
    obtain ⟨b, position, hbatch, hphase, hindex, hwaiting⟩ := hwired.current_batch hstage
    have hlive : s.run.handle.finished = false := by
      rcases hwired.live with ⟨hlive, -⟩ | ⟨-, hexited⟩
      · exact hlive
      · exact absurd (hexited.symm.trans hwaiting) nofun
    have hsound := hwired.sound b hbatch
    obtain ⟨hlt, -⟩ := mem_terminalCalls.mp (List.mem_of_getElem? hindex)
    have hget : b.batch.calls[index]? = some b.batch.calls[index] := List.getElem?_eq_getElem hlt
    have hcall : s.call index = some b.batch.calls[index] := by
      simp [AgentSystem.call, hbatch]
    obtain ⟨hsignal, hreused⟩ := Bool.or_eq_false_iff.mp (hok.2 : (_ || _) = false)
    have hresult : (Tool.submitted (.accept value) startedAt instant).isTerminal = true := rfl
    refine ⟨hfits.snoc ⟨hnone, hunfinished hlive⟩,
      .pending index value b.batch.calls[index] b ?_⟩
    refine ⟨hbatch, hget, ?_, ?_, hwaiting, rfl, ?_, .waits hsignal hphase hindex ?_ hresult⟩
    · exact (mem_terminal hbatch hsound.terminalName_eq hcall).mp (List.mem_of_getElem? hindex)
    · exact fun j other hj hother => last_of_reused hbatch hcall hreused hj hother
    · rintro other ⟨i, hmem⟩
      rcases List.mem_append.mp hmem with hmem | hmem
      · exact absurd ⟨i, hmem⟩ (hnone other)
      · cases List.mem_singleton.mp hmem
        rfl
    · exact List.getElem?_set_self (List.getElem?_eq_some_iff.mp hstage).1

/-- **After the finish.** -/
theorem commitment_finished {label : SystemLabel T} {next : AgentSystem T × List (SystemItem T)}
    (hwired : Wired spec s) (hfits : Chronicle Fits history) (hphase : s.run.phase = .exited)
    (hstep : Acted spec s label next) :
    Chronicle Fits (history ++ next.2) ∧ Commitment spec next.1 (history ++ next.2) := by
  have hplain : ∀ {items : List (SystemItem T)}, (∀ item ∈ items, item.isPlain = true) →
      Chronicle Fits (history ++ items) := fun hitems => fits_append hfits (fits_plain hitems)
  cases hstep with
  | ran hfree hstep =>
    obtain ⟨houtside, hitems⟩ := outside_step (outside_of_exited hwired.live hphase hstep) hstep
    exact ⟨fits_append hfits (fits_outside hitems), .finished (houtside.phase.trans hphase)⟩
  | opened hstep => simp [AgentRun.step, hphase] at hstep
  | interrupted =>
    obtain ⟨houtside, hitems⟩ := outside_interrupt s.run
    refine ⟨fits_append hfits (fits_outside hitems), .finished ?_⟩
    rw [phase_forwardAbort]
    exact houtside.phase.trans hphase
  | blocked => exact ⟨hplain (plain_batch _), .finished hphase⟩
  | @dispatched part instant index b b' =>
    refine ⟨hplain plain_dispatched, .finished ?_⟩
    dsimp only
    rw [(dispatch_run spec { s with batch := some b' } index instant).1]
    exact hphase
  | settled | returned | refused => exact ⟨hplain (by simp), .finished hphase⟩
  | executed | gatePassed | submitted =>
    exact ⟨hplain (by simp [SystemItem.isPlain]), .finished hphase⟩
  | accepted index instant startedAt value hstage =>
    obtain ⟨b, position, -, -, -, hwaiting⟩ := hwired.current_batch hstage
    cases hphase.symm.trans hwaiting
  | batchReturned _ _ hstep => simp [AgentRun.step, hphase] at hstep

/-! ### While the loop waits for the batch -/

/-- The executor knows the terminal tool. -/
theorem bound_of_isTerminal {call : ToolUseBlock} (h : spec.isTerminal call = true) :
    spec.bound.contains call.name = true := by
  rw [RunSpec.isTerminal, beq_iff_eq] at h
  simp [RunSpec.bound, h]

/-- **The batch records the accepted result**, or does not touch it. -/
theorem Delivered.batched {b b' : BatchRun} {index : Nat} {call : ToolUseBlock}
    (h : Delivered s b index) (hfound : b.batch.calls[index]? = some call)
    (hterminal : spec.isTerminal call = true) (hsignal : b.aborted = s.run.handle.aborted)
    {part : BatchPart} {instant : Nat} {label : BatchLabel} {items : List BatchItem}
    (hlabel : s.batchLabel b instant part = some label)
    (hstep : b.step spec.bound (.block label) = some b')
    (hhistory : b'.history = b.history ++ items) (hsame : b'.batch.terminal = b.batch.terminal) :
    Delivered s b' index := by
  cases h with
  | recorded hcompleted hresult =>
    refine .recorded ?_ hresult
    rw [hhistory]
    exact List.mem_append_left _ hcompleted
  | @waits position result hlive hphase hindex hstage hresult =>
    by_cases hresolves : ∃ outcome resolved, label = .resolveTerminal outcome resolved
    · obtain ⟨outcome, resolved, rfl⟩ := hresolves
      have hsettled := settled_of_resolve hlabel hphase hindex
      cases Option.some.inj (hstage.symm.trans hsettled)
      rw [hlive] at hsignal
      let kept : ToolCallResult := { result with toolUseId := call.toolUseId }
      have hrecorded : b'.history = b.history ++ [.completed index kept] := by
        simp only [BatchRun.step, Batch.step, hphase, hindex, hfound, Option.bind_some,
          Option.map_some, Batch.record, hsignal, executeCall, bound_of_isTerminal hterminal] at hstep
        cases hstep
        rfl
      have hmem : .completed index kept ∈ b'.history := by
        rw [hrecorded]
        exact List.mem_append_right _ (List.mem_singleton.mpr rfl)
      exact .recorded hmem hresult
    · refine .waits hlive (running_kept hstep hphase ?_) (hsame ▸ hindex) hstage hresult
      rintro outcome resolved rfl
      exact hresolves ⟨outcome, resolved, rfl⟩

/-- A call that has not settled is another one. -/
theorem Delivered.staged {b : BatchRun} {index i : Nat} {old new : CallStage}
    (h : Delivered s b index) (hold : s.stages[i]? = some old)
    (hunsettled : ∀ outcome, old ≠ .settled outcome) :
    Delivered { s with stages := s.stages.set i new } b index := by
  cases h with
  | recorded hcompleted hresult => exact .recorded hcompleted hresult
  | @waits position result hlive hphase hindex hstage hresult =>
    have hne : i ≠ index := by
      rintro rfl
      cases hold.symm.trans hstage
      exact hunsettled _ rfl
    refine .waits hlive hphase hindex ?_ hresult
    rw [List.getElem?_set_ne hne]
    exact hstage

/-- **The loop is handed the accepted result.** -/
theorem Pending.normalized {index : Nat} {value : T} {call : ToolUseBlock} {b : BatchRun}
    (h : Pending spec s history index value call b) (hsound : Sound b.batch.calls spec.terminal b)
    {results : List ToolCallResult} (hreturned : b.batch.phase = .returned results) (instant : Nat) :
    (normalizeBatch b.batch.calls results instant).any (·.isTerminal) = true := by
  obtain ⟨opened, -, hposition⟩ := hsound.position
  rw [hreturned] at hposition
  obtain ⟨-, -, ⟨at', hresults⟩, -⟩ := hposition
  cases h.delivered with
  | waits _ hphase => exact absurd (hreturned.symm.trans hphase) nofun
  | @recorded result hcompleted hresult =>
    have hslot := (hsound.slotted.completed index result).mp hcompleted
    have hat : results[index]? = some result := by
      rw [hresults, Batch.results, List.getElem?_mapIdx, h.found]
      simp [hslot]
    have hid : result.toolUseId = call.toolUseId :=
      hsound.slotted.paired index result call hslot h.found
    have hfind : results.reverse.find? (fun result => result.toolUseId == call.toolUseId) =
        some result := by
      refine find?_reverse_of_last hat (beq_iff_eq.mpr hid) fun j other hj hother => ?_
      have hids := congrArg (·[j]?) (hsound.results_ids at')
      rw [← hresults, List.getElem?_map, List.getElem?_map, hother] at hids
      obtain ⟨later, hlater, hsame⟩ := Option.map_eq_some_iff.mp hids.symm
      rw [beq_eq_false_iff_ne, ← show later.toolUseId = other.toolUseId from hsame]
      exact h.last j later hj hlater
    rw [List.any_eq_true]
    refine ⟨result, List.mem_map.mpr ⟨call, List.mem_of_getElem? h.found, ?_⟩, hresult⟩
    rw [hfind]
    rfl

/-- A block that leaves the loop and the batch alone. -/
theorem Pending.staged {index i : Nat} {value : T} {call : ToolUseBlock} {b : BatchRun}
    (h : Pending spec s history index value call b) {old : CallStage}
    (hold : s.stages[i]? = some old) (hunsettled : ∀ outcome, old ≠ .settled outcome)
    (new : CallStage) {items : List (SystemItem T)} (hitems : ∀ item ∈ items, item.isPlain = true) :
    Pending spec { s with stages := s.stages.set i new } (history ++ items) index value call b where
  batch := h.batch
  found := h.found
  terminal := h.terminal
  last := h.last
  waiting := h.waiting
  accepted := h.accepted
  only := fun other hother => h.only other
    ((accepts_append fun item hitem => not_accepted_of_plain (hitems item hitem)).mp hother)
  delivered := h.delivered.staged hold hunsettled

/-- A block of the loop, which waits. -/
theorem Pending.moved {index : Nat} {value : T} {call : ToolUseBlock} {b : BatchRun}
    (h : Pending spec s history index value call b) {run : AgentRun T}
    {shown : List (RunItem T)} (hphase : run.phase = s.run.phase)
    (haborted : run.handle.aborted = s.run.handle.aborted) :
    Pending spec { s with run } (history ++ shown.map .run) index value call b where
  batch := h.batch
  found := h.found
  terminal := h.terminal
  last := h.last
  waiting := hphase.trans h.waiting
  accepted := h.accepted
  only := by
    intro other hother
    refine h.only other ((accepts_append fun item hitem => ?_).mp hother)
    obtain ⟨_, -, rfl⟩ := List.mem_map.mp hitem
    rfl
  delivered := by
    cases h.delivered with
    | recorded hcompleted hresult => exact .recorded hcompleted hresult
    | waits hlive hbatch hindex hstage hresult =>
      exact .waits (haborted.trans hlive) hbatch hindex hstage hresult

/-- A block of the batch. -/
theorem Pending.batched {index : Nat} {value : T} {call : ToolUseBlock} {b b' : BatchRun}
    (h : Pending spec s history index value call b) (hwired : Wired spec s) {part : BatchPart}
    {instant : Nat} {label : BatchLabel} {items : List BatchItem}
    (hlabel : s.batchLabel b instant part = some label)
    (hstep : b.step spec.bound (.block label) = some b')
    (hhistory : b'.history = b.history ++ items) {shown : List (SystemItem T)}
    (hshown : ∀ item ∈ shown, item.isPlain = true) :
    Pending spec { s with batch := some b' } (history ++ shown) index value call b' := by
  have hsound := hwired.sound b h.batch
  have hsound' := sound_step hsound (stepped_of_step hstep)
  have hterminal : b'.batch.terminal = b.batch.terminal := by
    rw [Batch.terminal, Batch.terminal, hsound'.calls_eq, hsound'.terminalName_eq,
      hsound.terminalName_eq]
  have hdelivered := h.delivered.batched h.found h.terminal (hwired.signal b h.batch) hlabel hstep
    hhistory hterminal
  refine ⟨rfl, hsound'.calls_eq ▸ h.found, h.terminal, hsound'.calls_eq ▸ h.last,
    hsound'.calls_eq ▸ h.waiting, h.accepted, fun other hother => ?_, ?_⟩
  · exact h.only other
      ((accepts_append fun item hitem => not_accepted_of_plain (hshown item hitem)).mp hother)
  · cases hdelivered with
    | recorded hcompleted hresult => exact .recorded hcompleted hresult
    | waits hlive hphase hindex hstage hresult => exact .waits hlive hphase hindex hstage hresult

/-- A block in which the batch dispatches a call: another one than the accepted one. -/
theorem Pending.dispatched {index i : Nat} {value : T} {call : ToolUseBlock} {b b' : BatchRun}
    (h : Pending spec s history index value call b) (hwired : Wired spec s) {part : BatchPart}
    {instant : Nat} {label : BatchLabel} (hlabel : s.batchLabel b instant part = some label)
    (hstep : b.step spec.bound (.block label) = some b')
    (hhistory : b'.history = b.history ++ [.started i]) {shown : List (SystemItem T)}
    (hshown : ∀ item ∈ shown, item.isPlain = true) :
    Pending spec ({ s with batch := some b' }.dispatch spec i instant).1 (history ++ shown) index
      value call b' := by
  have hmoved := h.batched hwired hlabel hstep hhistory hshown
  rcases dispatch_eq spec { s with batch := some b' } i instant with heq | ⟨stage, heq, -⟩
  · rw [heq]
    exact hmoved
  rw [heq]
  refine { hmoved with delivered := ?delivered }
  cases h.delivered with
  | recorded hcompleted hresult =>
    exact .recorded (hhistory ▸ List.mem_append_left _ hcompleted) hresult
  | @waits position result hlive hphase hindex hstage hresult =>
    have hne : i ≠ index := by
      rintro rfl
      rcases stepped_started (stepped_of_step hstep) hhistory with ⟨hordinary, -⟩ | ⟨_, hturn, -⟩
      · exact not_terminal_of_ordinary hordinary (List.mem_of_getElem? hindex)
      · rcases hturn with ⟨hracing, -⟩ | ⟨_, hreturning, -⟩
        · exact absurd (hphase.symm.trans hracing) nofun
        · exact absurd (hphase.symm.trans hreturning) nofun
    cases hmoved.delivered with
    | recorded hcompleted hresult => exact .recorded hcompleted hresult
    | waits hlive hphase hindex hstage hresult =>
      refine .waits hlive hphase hindex ?_ hresult
      rw [List.getElem?_set_ne hne]
      exact hstage

/-- An interrupt, once the batch has recorded the accepted result. -/
theorem Pending.interrupted {index : Nat} {value : T} {call : ToolUseBlock} {b : BatchRun}
    (h : Pending spec s history index value call b) {result : ToolCallResult}
    (hcompleted : .completed index result ∈ b.history) (hresult : result.isTerminal = true) :
    ∃ b', Pending spec ({ s with run := s.run.interrupt.1 }.forwardAbort spec)
      (history ++ s.run.interrupt.2.map .run) index value call b' := by
  have honly : ∀ other, Accepts (history ++ s.run.interrupt.2.map .run) other → other = value := by
    intro other hother
    refine h.only other ((accepts_append fun item hitem => ?_).mp hother)
    obtain ⟨_, -, rfl⟩ := List.mem_map.mp hitem
    rfl
  have hphase := (outside_interrupt s.run).1.phase.trans h.waiting
  obtain ⟨b', hb', hcalls, hhistory⟩ : ∃ b', (b.step spec.bound .abort).getD b = b' ∧
      b'.batch = b.batch ∧ .completed index result ∈ b'.history := by
    refine ⟨_, rfl, ?_⟩
    rw [BatchRun.step]
    split
    · exact ⟨rfl, hcompleted⟩
    · exact ⟨rfl, List.mem_append_left _ hcompleted⟩
  unfold AgentSystem.forwardAbort
  split
  · refine ⟨b', ?_, hcalls ▸ h.found, h.terminal, hcalls ▸ h.last, hcalls ▸ hphase, h.accepted,
      honly, .recorded hhistory hresult⟩
    rw [← hb', h.batch]
    rfl
  · exact ⟨b, h.batch, h.found, h.terminal, h.last, hphase, h.accepted, honly,
      .recorded hcompleted hresult⟩

/-- A batch with a terminal result, and the value that was accepted in it. -/
theorem commitBatch_accepted {cfg : LoopConfig} (run : AgentRun T) (value : T)
    (hmode : cfg.mode = .terminal) {calls : List ToolUseBlock} {executed : List ToolCallResult}
    {instant : Nat}
    (hterminal : (normalizeBatch calls executed instant).any (·.isTerminal) = true) :
    (run.commitBatch cfg calls executed (some value) instant).1.phase = .exited ∧
      ∀ item ∈ (run.commitBatch cfg calls executed (some value) instant).2,
        (∃ message, item = .appended (.toolResults message)) ∨
          (∃ outcome gate, item = .finished outcome gate ∧
            outcome.status = .completed (.accepted value)) ∨
          ∃ shown, item = .task shown := by
  unfold AgentRun.commitBatch
  dsimp only
  rw [if_pos hterminal]
  split
  · next accepted _ haccepted =>
    cases haccepted
    refine ⟨rfl, fun item hitem => ?_⟩
    rcases List.mem_append.mp hitem with hitem | hitem
    · exact Or.inl ⟨_, List.mem_singleton.mp hitem⟩
    · rcases mem_exit hitem with ⟨-, rfl⟩ | htask
      · exact Or.inr (Or.inl ⟨_, _, rfl, rfl⟩)
      · exact Or.inr (Or.inr htask)
  · next hother => exact absurd rfl (hother value hmode)

/-- **The return of the batch completes the run.** -/
theorem Pending.returned {index : Nat} {value : T} {call : ToolUseBlock} {b : BatchRun}
    (h : Pending spec s history index value call b) (hsound : Sound b.batch.calls spec.terminal b)
    (hfits : Chronicle Fits history) {results : List ToolCallResult} {instant : Nat}
    {next : AgentRun T × List (RunItem T)} (hreturned : b.batch.phase = .returned results)
    (hstep : s.run.step spec.loop (.batchReturns results s.accepted instant) = some next) :
    Chronicle Fits (history ++ next.2.map .run) ∧ next.1.phase = .exited := by
  have hmode : spec.loop.mode = .terminal := by
    have hname : spec.terminal = some call.name := beq_iff_eq.mp h.terminal
    simp [RunSpec.loop, hname]
  have hnext : s.run.commitBatch spec.loop b.batch.calls results (some value) instant = next := by
    rw [AgentRun.step, h.waiting, h.accepted] at hstep
    exact Option.some.inj hstep
  obtain ⟨hexited, hitems⟩ := commitBatch_accepted s.run value hmode
    (h.normalized hsound hreturned instant)
  rw [hnext] at hexited hitems
  refine ⟨fits_append hfits fun item hitem => ?_, hexited⟩
  obtain ⟨shown, hshown, rfl⟩ := List.mem_map.mp hitem
  refine ⟨rfl, ?_⟩
  rcases hitems shown hshown with ⟨message, rfl⟩ | ⟨outcome, gate, rfl, hstatus⟩ | ⟨item, rfl⟩
  · trivial
  · intro other hother
    rw [h.only other hother]
    exact hstatus
  · trivial

/-- **Between the acceptance and the finish.** -/
theorem commitment_pending {label : SystemLabel T} {next : AgentSystem T × List (SystemItem T)}
    {index : Nat} {value : T} {call : ToolUseBlock} {b : BatchRun}
    (hwired : Wired spec s) (hsole : Sole s) (hok : CommitsCleanly { state := s, history } label)
    (hfits : Chronicle Fits history) (h : Pending spec s history index value call b)
    (hstep : Acted spec s label next) :
    Chronicle Fits (history ++ next.2) ∧ Commitment spec next.1 (history ++ next.2) := by
  have hplain : ∀ {items : List (SystemItem T)}, (∀ item ∈ items, item.isPlain = true) →
      Chronicle Fits (history ++ items) := fun hitems => fits_append hfits (fits_plain hitems)
  have hnone := (hsole.accepted (by rw [h.accepted]; rfl)).2
  cases hstep with
  | ran hfree hstep hboundary hinterrupt =>
    obtain ⟨houtside, hitems⟩ := outside_step (outside_of_batch h.waiting hfree hstep) hstep
    exact ⟨fits_append hfits (fits_outside hitems), .pending index value call b
      (h.moved houtside.phase (aborted_step hwired.live hinterrupt hstep).1)⟩
  -- the loop waits for the batch that holds the acceptance
  | opened hstep => simp [AgentRun.step, h.waiting] at hstep
  | interrupted =>
    obtain ⟨houtside, hitems⟩ := outside_interrupt s.run
    refine ⟨fits_append hfits (fits_outside hitems), ?_⟩
    -- `CommitsCleanly`: no interrupt between the acceptance and its record
    have hunrecorded := hok.1 rfl
    cases h.delivered with
    | waits hlive hphase hindex hstage hresult =>
      simp [unrecorded, h.batch, hphase, hindex, hstage, hresult] at hunrecorded
    | recorded hcompleted hresult =>
      obtain ⟨b', hpending⟩ := h.interrupted hcompleted hresult
      exact .pending index value call b' hpending
  | blocked hbatch hlabel hstep hhistory =>
    cases h.batch.symm.trans hbatch
    exact ⟨hplain (plain_batch _), .pending index value call _
      (h.batched hwired hlabel hstep hhistory (plain_batch _))⟩
  | @dispatched part instant i b₀ b' label hbatch hlabel hstep hhistory =>
    cases h.batch.symm.trans hbatch
    exact ⟨hplain plain_dispatched, .pending index value call b'
      (h.dispatched hwired hlabel hstep hhistory plain_dispatched)⟩
  | settled i result hsettles =>
    refine ⟨hplain (by simp), .pending index value call b ?_⟩
    cases hsettles with
    | denied data hstage => exact h.staged hstage (by simp) _ (by simp)
    | stamped executed startedAt endedAt hstage => exact h.staged hstage (by simp) _ (by simp)
    | vetoed data hstage => exact h.staged hstage (by simp) _ (by simp)
  | executed i instant data other hstage =>
    exact ⟨hplain (by simp [SystemItem.isPlain]), .pending index value call b
      (h.staged hstage (by simp) _ (by simp [SystemItem.isPlain]))⟩
  | gatePassed i instant data other hstage =>
    exact ⟨hplain (by simp [SystemItem.isPlain]), .pending index value call b
      (h.staged hstage (by simp) _ (by simp [SystemItem.isPlain]))⟩
  | returned i instant startedAt answer result hstage =>
    exact ⟨hplain (by simp), .pending index value call b (h.staged hstage (by simp) _ (by simp))⟩
  | submitted i instant data hstage =>
    -- with a value accepted no call is vetted or submitting
    have hvetting := (hnone _ (List.mem_of_getElem? hstage)).1
    cases hvetting
  | accepted i instant startedAt other hstage =>
    have hsubmitting := (hnone _ (List.mem_of_getElem? hstage)).2
    cases hsubmitting
  | refused i instant startedAt verdict hverdict hstage =>
    have hsubmitting := (hnone _ (List.mem_of_getElem? hstage)).2
    cases hsubmitting
  | @batchReturned b₀ results instant next hbatch hreturned hstep =>
    cases h.batch.symm.trans hbatch
    obtain ⟨hfinal, hexited⟩ := h.returned (hwired.sound b h.batch) hfits hreturned hstep
    exact ⟨hfinal, .finished hexited⟩

end Commitment

/-- **In every run that commits cleanly.** -/
theorem commitment_of_run {spec : RunSpec} {messages : List UserMessage}
    {labels : List (SystemLabel T)} {r : SystemHistory T}
    (run : Run (Recorded.step (AgentSystem.step spec)) CommitsCleanly
      (AgentSystem.start spec messages) labels r) :
    Chronicle Fits r.history ∧ Commitment spec r.state r.history := by
  refine run.invariant_of
    (J := fun r => Wired spec r.state ∧ Sole r.state ∧ Accounted (SystemHistory.loop r))
    (I := fun r => Chronicle Fits r.history ∧ Commitment spec r.state r.history) ?_ ?_ ?_
  · intro ms u run
    obtain ⟨_, hloop⟩ := refines_run run
    exact ⟨wired_of_run run, sole_of_run run, accounted_of_run hloop⟩
  · have hnone : ∀ value, ¬ Accepts (AgentSystem.start (T := T) spec messages).history value := by
      rintro value ⟨i, hmem⟩
      obtain ⟨_, -, hitem⟩ := List.mem_map.mp hmem
      cases hitem
    refine ⟨?_, .free hnone⟩
    have hempty : ∀ value, ¬ Accepts ([] : List (SystemItem T)) value := by
      rintro value ⟨_, hmem⟩
      cases hmem
    exact fits_append Chronicle.nil (fits_before hempty)
  · intro r label r' hok ⟨hwired, hsole, haccounted⟩ ⟨hfits, hcommitment⟩ hstep
    obtain ⟨state, items, hstate, rfl⟩ := Recorded.step_cases hstep
    have hacted := acted_of_step hstate
    cases hcommitment with
    | free hnone =>
      refine commitment_free hwired hok (fun hlive outcome gate hmem => ?_) hfits hnone hacted
      cases haccounted with
      | running _ _ hquiet => exact hquiet outcome gate (mem_runItems.mpr hmem)
      | finished hfinished => exact absurd (hfinished.symm.trans hlive) nofun
    | pending i value call b hpending =>
      exact commitment_pending hwired hsole hok hfits hpending hacted
    | finished hphase => exact commitment_finished hwired hfits hphase hacted

/-- **The single mutator**, for every run and every schedule in which each acceptance reaches its
batch on a live signal and is the last of its id: `onSubmit` accepts at most once, a run that has
accepted finishes with that value and in no other way, and no turn is started after the
acceptance. -/
theorem single_mutator {spec : RunSpec} {messages : List UserMessage}
    {labels : List (SystemLabel T)} {r : SystemHistory T}
    (run : Run (Recorded.step (AgentSystem.step spec)) CommitsCleanly
      (AgentSystem.start spec messages) labels r)
    {before after : List (SystemItem T)} {index : Nat} {value : T}
    (hhistory : r.history = before ++ .accepted index value :: after) :
    (∀ i other, .accepted i other ∉ before ∧ .accepted i other ∉ after) ∧
      (∀ outcome gate, .run (.finished outcome gate) ∈ r.history →
        outcome.status = .completed (.accepted value)) ∧
      ∀ conversation, .run (.requested conversation) ∉ after := by
  have h := commitment_of_run run
  obtain ⟨hnone, hunfinished⟩ := h.1 before _ after hhistory
  have hafter : ∀ item ∈ after, ∃ past, Accepts past value ∧ Fits past item := by
    intro item hitem
    obtain ⟨first, rest, rfl⟩ := List.append_of_mem hitem
    refine ⟨before ++ .accepted index value :: first, ⟨index, by simp⟩, ?_⟩
    exact h.1 _ item rest (by rw [hhistory]; simp)
  refine ⟨fun i other => ⟨fun hmem => hnone other ⟨i, hmem⟩, fun hmem => ?_⟩, ?_, ?_⟩
  · obtain ⟨past, haccepts, hfits⟩ := hafter _ hmem
    exact hfits.1 value haccepts
  · intro outcome gate hmem
    rw [hhistory, List.mem_append, List.mem_cons] at hmem
    rcases hmem with hmem | hmem | hmem
    · exact absurd hmem (hunfinished outcome gate)
    · cases hmem
    · obtain ⟨past, haccepts, hfits⟩ := hafter _ hmem
      exact hfits value haccepts
  · intro conversation hmem
    obtain ⟨past, haccepts, hfits⟩ := hafter _ hmem
    exact hfits value haccepts

/-- The blocks of the first submission of a batch, up to `onSubmit`. -/
def sampleSubmit : List (SystemLabel Unit) :=
  [.block .proceed 1, .preHookReturns 0 .passthrough 2, .postHookReturns 0 .passthrough 3]

/-- `onSubmit` has accepted the first call. -/
def acceptsFirst : SystemItem Unit → Bool
  | .accepted 0 () => true
  | _ => false

/-- Two submissions, and an interrupt once the first one is recorded: the second one is not
dispatched, and the run completes. -/
theorem single_mutator_interrupted :
    ∃ (r : SystemHistory Unit) (before after : List (SystemItem Unit)),
      r.history = before ++ .accepted 0 () :: after ∧ r.history.any SystemItem.isInterrupt = true ∧
      ∀ outcome gate, .run (.finished outcome gate) ∈ r.history →
        outcome.status = .completed (.accepted ()) := by
  obtain ⟨r, run, hr⟩ := exists_run (Recorded.step (AgentSystem.step sampleSpec)) CommitsCleanly
    (AgentSystem.start sampleSpec [⟨userText "go", rfl⟩])
    (sampleTurn [("a", "submit"), ("b", "submit")] ++ sampleSubmit ++
      [.submitReturns 0 (.accept ()) 4, .block .resolveTerminal 5, .run .interrupt,
        .block .resumeTerminal 6, .batchReturns 7])
    (fun r => r.history.any SystemItem.isInterrupt && r.history.any acceptsFirst)
    (by decide +kernel)
  rw [Bool.and_eq_true] at hr
  obtain ⟨item, hitem, htest⟩ := List.any_eq_true.mp hr.2
  unfold acceptsFirst at htest
  split at htest
  · obtain ⟨before, after, hhistory⟩ := List.append_of_mem hitem
    exact ⟨r, before, after, hhistory, hr.1, (single_mutator run hhistory).2.1⟩
  · cases htest

/-- The provider is asked. -/
def SystemItem.isRequest : SystemItem T → Bool
  | .run (.requested _) => true
  | _ => false

/-- A request that comes last, in a run that has accepted a submission. -/
theorem continues_of_last {history : List (SystemItem Unit)}
    (h : (history.getLast?.any SystemItem.isRequest && history.any SystemItem.isAccepted) = true) :
    ∃ before index after conversation, history = before ++ .accepted index () :: after ∧
      .run (.requested conversation) ∈ after := by
  rw [Bool.and_eq_true, Option.any_eq_true, List.any_eq_true] at h
  obtain ⟨⟨last, hlast, hrequested⟩, item, hitem, haccepted⟩ := h
  obtain ⟨init, rfl⟩ := List.getLast?_eq_some_iff.mp hlast
  unfold SystemItem.isRequest at hrequested
  split at hrequested
  · next conversation =>
    cases item with
    | accepted index value =>
      rcases List.mem_append.mp hitem with hitem | hitem
      · obtain ⟨before, after, rfl⟩ := List.append_of_mem hitem
        exact ⟨before, index, after ++ [.run (.requested conversation)], conversation, by simp,
          by simp⟩
      · cases List.mem_singleton.mp hitem
    | _ => cases haccepted
  · cases hrequested

/-- The run finishes cancelled. -/
def SystemItem.isCancelled : SystemItem T → Bool
  | .run (.finished { status := .cancelled, .. } _) => true
  | _ => false

/-- An interrupt while `onSubmit` is in flight: it accepts, and the run is cancelled.  A second
call of the batch with the id of the accepted one: the run goes on. -/
theorem accepted_then_lost :
    (∃ (r : SystemHistory Unit) (outcome : AgentOutcome Unit) (gate : GateState),
      Run (Recorded.step (AgentSystem.step sampleSpec)) Free
        (AgentSystem.start sampleSpec [⟨userText "go", rfl⟩])
        (sampleTurn [("a", "submit")] ++ sampleSubmit ++
          [.run .interrupt, .submitReturns 0 (.accept ()) 4, .block .resolveTerminal 5,
            .block .resumeTerminal 6, .batchReturns 7]) r ∧
      r.history.any SystemItem.isAccepted = true ∧
      .run (.finished outcome gate) ∈ r.history ∧ outcome.status = .cancelled) ∧
    ∃ (r : SystemHistory Unit) (before after : List (SystemItem Unit)) (index : Nat)
      (conversation : List Message),
      Run (Recorded.step (AgentSystem.step sampleSpec)) Free
        (AgentSystem.start sampleSpec [⟨userText "go", rfl⟩])
        (sampleTurn [("a", "submit"), ("a", "submit")] ++ sampleSubmit ++
          [.submitReturns 0 (.accept ()) 4, .block .resolveTerminal 5, .block .resumeTerminal 6,
            .preHookReturns 1 .passthrough 7, .block .resolveTerminal 8, .block .resumeTerminal 9,
            .batchReturns 10]) r ∧
      r.history = before ++ .accepted index () :: after ∧
      .run (.requested conversation) ∈ after := by
  constructor
  · obtain ⟨r, run, hr⟩ := exists_run (Recorded.step (AgentSystem.step sampleSpec)) Free
      (AgentSystem.start sampleSpec [⟨userText "go", rfl⟩])
      (sampleTurn [("a", "submit")] ++ sampleSubmit ++
        [.run .interrupt, .submitReturns 0 (.accept ()) 4, .block .resolveTerminal 5,
          .block .resumeTerminal 6, .batchReturns 7])
      (fun r => r.history.any SystemItem.isAccepted && r.history.any SystemItem.isCancelled)
      (by decide +kernel)
    rw [Bool.and_eq_true] at hr
    obtain ⟨item, hitem, htest⟩ := List.any_eq_true.mp hr.2
    unfold SystemItem.isCancelled at htest
    split at htest
    · exact ⟨r, _, _, run, hr.1, hitem, rfl⟩
    · cases htest
  · obtain ⟨r, run, hr⟩ := exists_run (Recorded.step (AgentSystem.step sampleSpec)) Free
      (AgentSystem.start sampleSpec [⟨userText "go", rfl⟩])
      (sampleTurn [("a", "submit"), ("a", "submit")] ++ sampleSubmit ++
        [.submitReturns 0 (.accept ()) 4, .block .resolveTerminal 5, .block .resumeTerminal 6,
          .preHookReturns 1 .passthrough 7, .block .resolveTerminal 8, .block .resumeTerminal 9,
          .batchReturns 10])
      (fun r => r.history.getLast?.any SystemItem.isRequest && r.history.any SystemItem.isAccepted)
      (by decide +kernel)
    obtain ⟨before, index, after, conversation, hhistory, hrequested⟩ := continues_of_last hr
    exact ⟨r, before, after, index, conversation, run, hhistory, hrequested⟩

end EphemeralAgent.Runtime
