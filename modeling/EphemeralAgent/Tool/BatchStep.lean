import EphemeralAgent.Tool.Batch
import EphemeralAgent.Lib.History

/-!
# What one block of a batch can do

* `ordinaryCalls_nodup`, `mem_ordinaryCalls` .. — the two index lists split the calls
* `Stepped` / `stepped_of_step` — the ways a block can go
-/

namespace EphemeralAgent.Tool

open Lib

variable {tools : List String} {calls : List ToolUseBlock} {terminalName : Option String}

/-! ## The two kinds of calls -/

theorem mem_ordinaryCalls {i : Nat} : i ∈ ordinaryCalls calls terminalName ↔
    i < calls.length ∧ isTerminalCall calls terminalName i = false := by
  simp [ordinaryCalls]

theorem mem_terminalCalls {i : Nat} : i ∈ terminalCalls calls terminalName ↔
    i < calls.length ∧ isTerminalCall calls terminalName i = true := by
  simp [terminalCalls]

theorem terminalCalls_sorted : (terminalCalls calls terminalName).Pairwise (· < ·) :=
  List.pairwise_lt_range.filter _

theorem ordinaryCalls_nodup : (ordinaryCalls calls terminalName).Nodup :=
  List.nodup_range.filter _

theorem terminalCalls_nodup : (terminalCalls calls terminalName).Nodup :=
  List.nodup_range.filter _

theorem not_terminal_of_ordinary {i : Nat} (h : i ∈ ordinaryCalls calls terminalName) :
    i ∉ terminalCalls calls terminalName := by
  intro hterminal
  rw [mem_ordinaryCalls] at h
  rw [mem_terminalCalls, h.2] at hterminal
  cases hterminal.2

theorem ordinary_or_terminal {i : Nat} (h : i < calls.length) :
    i ∈ ordinaryCalls calls terminalName ∨ i ∈ terminalCalls calls terminalName := by
  cases hi : isTerminalCall calls terminalName i with
  | false => exact Or.inl (mem_ordinaryCalls.mpr ⟨h, hi⟩)
  | true => exact Or.inr (mem_terminalCalls.mpr ⟨h, hi⟩)

/-! ## The blocks -/

/-- `lane()` is at its loop head: in the first block, or after a `dispatch`. -/
def Enters (b : Batch) (lane : Nat) (phase : BatchPhase) : Prop :=
  (b.phase = .starting lane ∧
    phase = if lane + 1 < b.lanes.length then .starting (lane + 1) else .racing) ∨
  (b.lanes[lane]? = some (.returning true) ∧ phase = b.phase)

/-- The loop over the terminal calls is at this position. -/
def Turn (s : BatchRun) (position : Nat) : Prop :=
  (s.batch.phase = .racing ∧ position = 0 ∧
    ((∀ lane ∈ s.batch.lanes, lane = .done) ∨ s.aborted = true)) ∨
  ∃ p, s.batch.phase = .terminalReturning p true ∧ position = p + 1

/-- The ways a step can go. -/
inductive Stepped (tools : List String) (s : BatchRun) : BatchRun → Prop
  /-- A lane claims an ordinary call. -/
  | dispatched (lane index : Nat) (phase : BatchPhase) (hlive : s.aborted = false)
      (hnext : s.batch.ordinary[s.batch.cursor]? = some index)
      (henters : Enters s.batch lane phase) :
      Stepped tools s
        { s with
          batch := { s.batch with
            cursor := s.batch.cursor + 1
            lanes := s.batch.lanes.set lane (.running index)
            phase }
          history := s.history ++ [.started index] }
  /-- A lane ends at its loop head. -/
  | finished (lane : Nat) (phase : BatchPhase)
      (hend : s.aborted = true ∨ s.batch.ordinary.length ≤ s.batch.cursor)
      (henters : Enters s.batch lane phase) :
      Stepped tools s
        { s with batch := { s.batch with lanes := s.batch.lanes.set lane .done, phase } }
  /-- The call of a lane settles in time. -/
  | completed (lane index : Nat) (call : ToolUseBlock) (outcome : Except String PipelineResult)
      (instant : Nat) (hlive : s.aborted = false) (hlane : s.batch.lanes[lane]? = some (.running index))
      (hcall : s.batch.calls[index]? = some call) :
      Stepped tools s
        { s with
          batch := { s.batch with
            settled := s.batch.settled.set index (some (executeCall tools call outcome instant))
            lanes := s.batch.lanes.set lane (.returning true) }
          history := s.history ++ [.completed index (executeCall tools call outcome instant)] }
  /-- The call of a lane settles after the abort. -/
  | dropped (lane index : Nat) (haborted : s.aborted = true)
      (hlane : s.batch.lanes[lane]? = some (.running index)) :
      Stepped tools s
        { s with
          batch := { s.batch with lanes := s.batch.lanes.set lane (.returning false) }
          history := s.history ++ [.dropped index] }
  /-- A lane ends after a dropped call. -/
  | stopped (lane : Nat) (hlane : s.batch.lanes[lane]? = some (.returning false)) :
      Stepped tools s { s with batch := { s.batch with lanes := s.batch.lanes.set lane .done } }
  /-- The next terminal call is dispatched. -/
  | submitted (position index : Nat) (hlive : s.aborted = false) (hturn : Turn s position)
      (hnext : s.batch.terminal[position]? = some index) :
      Stepped tools s
        { s with
          batch := { s.batch with phase := .terminalRunning position }
          history := s.history ++ [.started index] }
  /-- The batch returns from the loop over the terminal calls. -/
  | finishedAll (position instant : Nat) (hturn : Turn s position)
      (hend : s.aborted = true ∨ s.batch.terminal.length ≤ position) :
      Stepped tools s
        { s with batch := { s.batch with phase := .returned (s.batch.results instant) } }
  /-- A terminal call settles in time. -/
  | completedTerminal (position index : Nat) (call : ToolUseBlock)
      (outcome : Except String PipelineResult) (instant : Nat) (hlive : s.aborted = false)
      (hphase : s.batch.phase = .terminalRunning position)
      (hnext : s.batch.terminal[position]? = some index)
      (hcall : s.batch.calls[index]? = some call) :
      Stepped tools s
        { s with
          batch := { s.batch with
            settled := s.batch.settled.set index (some (executeCall tools call outcome instant))
            phase := .terminalReturning position true }
          history := s.history ++ [.completed index (executeCall tools call outcome instant)] }
  /-- A terminal call settles after the abort. -/
  | droppedTerminal (position index : Nat) (haborted : s.aborted = true)
      (hphase : s.batch.phase = .terminalRunning position)
      (hnext : s.batch.terminal[position]? = some index) :
      Stepped tools s
        { s with
          batch := { s.batch with phase := .terminalReturning position false }
          history := s.history ++ [.dropped index] }
  /-- The batch returns after a dropped terminal call. -/
  | cut (position instant : Nat) (hphase : s.batch.phase = .terminalReturning position false) :
      Stepped tools s
        { s with batch := { s.batch with phase := .returned (s.batch.results instant) } }
  | aborted (hlive : s.aborted = false) :
      Stepped tools s { s with aborted := true, history := s.history ++ [.aborted] }

theorem stepped_of_claim {s : BatchRun} {lane : Nat} {phase : BatchPhase}
    (henters : Enters s.batch lane phase) :
    Stepped tools s
      { s with
        batch := { (s.batch.claim s.aborted lane).1 with phase }
        history := s.history ++ (s.batch.claim s.aborted lane).2 } := by
  unfold Batch.claim
  split
  · next index hnext hlive => exact .dispatched lane index phase hlive hnext henters
  · next hend =>
    rw [List.append_nil]
    refine .finished lane phase ?_ henters
    cases haborted : s.aborted with
    | true => exact Or.inl rfl
    | false =>
      refine Or.inr (List.getElem?_eq_none_iff.mp ?_)
      cases hnext : s.batch.ordinary[s.batch.cursor]? with
      | none => rfl
      | some index => exact absurd haborted (hend index hnext)

theorem claim_phase {b : Batch} {aborted : Bool} {lane : Nat} :
    (b.claim aborted lane).1.phase = b.phase := by
  unfold Batch.claim
  split <;> rfl

theorem stepped_of_nextTerminal {s : BatchRun} {position instant : Nat} (hturn : Turn s position) :
    Stepped tools s
      { s with
        batch := (s.batch.nextTerminal s.aborted position instant).1
        history := s.history ++ (s.batch.nextTerminal s.aborted position instant).2 } := by
  unfold Batch.nextTerminal
  split
  · next index hnext hlive => exact .submitted position index hlive hturn hnext
  · next hend =>
    rw [List.append_nil]
    refine .finishedAll position instant hturn ?_
    cases haborted : s.aborted with
    | true => exact Or.inl rfl
    | false =>
      refine Or.inr (List.getElem?_eq_none_iff.mp ?_)
      cases hnext : s.batch.terminal[position]? with
      | none => rfl
      | some index => exact absurd haborted (hend index hnext)

theorem eq_done_of_laneDone {lane : Lane} (h : Batch.laneDone lane = true) : lane = .done := by
  cases lane <;> first | rfl | cases h

theorem stepped_of_step {s t : BatchRun} {l : BatchRunLabel} (h : s.step tools l = some t) :
    Stepped tools s t := by
  cases l with
  | abort =>
    simp only [BatchRun.step] at h
    split at h
    · cases h
    · next hlive => cases h; exact .aborted (by simpa using hlive)
  | block label =>
    obtain ⟨next, hstep, rfl⟩ := Option.map_eq_some_iff.mp h
    cases label with
    | spawn =>
      simp only [Batch.step] at hstep
      split at hstep
      · next lane hphase =>
        obtain rfl := Option.some.inj hstep
        exact stepped_of_claim (Or.inl ⟨hphase, rfl⟩)
      · cases hstep
    | resolve lane outcome instant =>
      simp only [Batch.step] at hstep
      split at hstep
      · next index hlane =>
        obtain ⟨call, hcall, rfl⟩ := Option.map_eq_some_iff.mp hstep
        unfold Batch.record
        split
        · next haborted => exact .dropped lane index haborted hlane
        · next hlive =>
          exact .completed lane index call outcome instant (by simpa using hlive) hlane hcall
      · cases hstep
    | resume lane =>
      simp only [Batch.step] at hstep
      split at hstep
      · next hlane =>
        obtain rfl := Option.some.inj hstep
        have henters : Enters s.batch lane s.batch.phase := Or.inr ⟨hlane, rfl⟩
        have hclaim : Stepped tools s _ := stepped_of_claim henters
        rw [← claim_phase (b := s.batch)] at hclaim
        exact hclaim
      · next hlane =>
        obtain rfl := Option.some.inj hstep
        rw [List.append_nil]
        exact .stopped lane hlane
      · cases hstep
    | proceed instant =>
      simp only [Batch.step] at hstep
      split at hstep
      · next hphase =>
        split at hstep
        · next hready =>
          obtain rfl := Option.some.inj hstep
          refine stepped_of_nextTerminal (Or.inl ⟨hphase, rfl, ?_⟩)
          rcases hready with hdone | haborted
          · exact Or.inl fun lane hlane =>
              eq_done_of_laneDone (List.all_eq_true.mp hdone lane hlane)
          · exact Or.inr haborted
        · cases hstep
      · cases hstep
    | resolveTerminal outcome instant =>
      simp only [Batch.step] at hstep
      split at hstep
      · next position hphase =>
        obtain ⟨index, hnext, hstep⟩ := Option.bind_eq_some_iff.mp hstep
        obtain ⟨call, hcall, rfl⟩ := Option.map_eq_some_iff.mp hstep
        unfold Batch.record
        split
        · next haborted => exact .droppedTerminal position index haborted hphase hnext
        · next hlive =>
          exact .completedTerminal position index call outcome instant (by simpa using hlive)
            hphase hnext hcall
      · cases hstep
    | resumeTerminal instant =>
      simp only [Batch.step] at hstep
      split at hstep
      · next position hphase =>
        obtain rfl := Option.some.inj hstep
        exact stepped_of_nextTerminal (Or.inr ⟨position, hphase, rfl⟩)
      · next position hphase =>
        obtain rfl := Option.some.inj hstep
        rw [List.append_nil]
        exact .cut position instant hphase
      · cases hstep

/-! ## What a block records -/

/-- The outcome that a block settles a call with. -/
def BatchLabel.outcome : BatchLabel → Option (Except String PipelineResult)
  | .resolve _ outcome _ => some outcome
  | .resolveTerminal outcome _ => some outcome
  | _ => none

section Records

variable {b : Batch} {isAborted : Bool} {index : Nat} {result : ToolCallResult}

theorem not_completed_claim (lane : Nat) : .completed index result ∉ (b.claim isAborted lane).2 := by
  unfold Batch.claim
  split <;> simp

theorem not_completed_nextTerminal (position instant : Nat) :
    .completed index result ∉ (b.nextTerminal isAborted position instant).2 := by
  unfold Batch.nextTerminal
  split <;> simp

theorem eq_of_completed_record {i : Nat} {recorded : ToolCallResult}
    (h : .completed index result ∈ (b.record isAborted i recorded).2.2) : result = recorded := by
  unfold Batch.record at h
  split at h
  · cases List.mem_singleton.mp h
  · cases List.mem_singleton.mp h
    rfl

/-- A block records no result but that of the call it settles. -/
theorem completed_of_block {label : BatchLabel} {next : Batch × List BatchItem}
    (h : b.step tools isAborted label = some next) (hmem : .completed index result ∈ next.2) :
    ∃ call outcome instant, label.outcome = some outcome ∧
      result = executeCall tools call outcome instant := by
  cases label with
  | spawn =>
    simp only [Batch.step] at h
    split at h
    · obtain rfl := Option.some.inj h
      exact absurd hmem (not_completed_claim _)
    · cases h
  | resolve lane outcome instant =>
    simp only [Batch.step] at h
    split at h
    · obtain ⟨call, -, rfl⟩ := Option.map_eq_some_iff.mp h
      exact ⟨call, outcome, instant, rfl, eq_of_completed_record hmem⟩
    · cases h
  | resume lane =>
    simp only [Batch.step] at h
    split at h
    · obtain rfl := Option.some.inj h
      exact absurd hmem (not_completed_claim _)
    · obtain rfl := Option.some.inj h
      exact absurd hmem (List.not_mem_nil)
    · cases h
  | proceed instant =>
    simp only [Batch.step] at h
    split at h
    · split at h
      · obtain rfl := Option.some.inj h
        exact absurd hmem (not_completed_nextTerminal _ _)
      · cases h
    · cases h
  | resolveTerminal outcome instant =>
    simp only [Batch.step] at h
    split at h
    · obtain ⟨i, -, h⟩ := Option.bind_eq_some_iff.mp h
      obtain ⟨call, -, rfl⟩ := Option.map_eq_some_iff.mp h
      exact ⟨call, outcome, instant, rfl, eq_of_completed_record hmem⟩
    · cases h
  | resumeTerminal instant =>
    simp only [Batch.step] at h
    split at h
    · obtain rfl := Option.some.inj h
      exact absurd hmem (not_completed_nextTerminal _ _)
    · obtain rfl := Option.some.inj h
      exact absurd hmem (List.not_mem_nil)
    · cases h

end Records

end EphemeralAgent.Tool
