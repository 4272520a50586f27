import Mathlib.Algebra.GroupWithZero.Nat
import Mathlib.Data.List.Perm.Subperm
import EphemeralAgent.Tool.BatchInvariant

/-!
# The contract of the batch executor

* `Batch.work` / `work_step` — every block uses up work, so a batch has finitely many blocks
* `batch_progress` — a batch that has not returned waits for one of its calls or can go on
* `batch_contract` — the contract of `executeBatch`
-/

namespace EphemeralAgent.Tool

open Lib

variable {tools : List String} {calls : List ToolUseBlock} {terminalName : Option String}

/-! ## A batch returns -/

/-- The blocks that a lane still has before it claims another call. -/
def Lane.work : Lane → Nat
  | .fresh => 1
  | .running _ => 2
  | .returning _ => 1
  | .done => 0

/-- The blocks that `executeBatch` itself still has. -/
def BatchPhase.work (terminals : Nat) : BatchPhase → Nat
  | .starting _ | .racing => 2 * terminals + 3
  | .terminalRunning position => 2 * (terminals - position) + 2
  | .terminalReturning position _ => 2 * (terminals - position) + 1
  | .returned _ => 0

/-- A bound on the blocks that a batch still has. -/
def Batch.work (b : Batch) : Nat :=
  3 * (b.ordinary.length - b.cursor) + (b.lanes.map Lane.work).sum +
    b.phase.work b.terminal.length

theorem sum_work_set {lanes : List Lane} {lane : Nat} {x : Lane} (hx : lanes[lane]? = some x)
    (y : Lane) : ((lanes.set lane y).map Lane.work).sum + x.work =
      (lanes.map Lane.work).sum + y.work := by
  induction lanes generalizing lane with
  | nil => cases hx
  | cons head rest ih =>
    cases lane with
    | zero =>
      cases hx
      simp only [List.set_cons_zero, List.map_cons, List.sum_cons]
      omega
    | succ lane =>
      have := ih hx
      simp only [List.set_cons_succ, List.map_cons, List.sum_cons]
      omega

/-- What a lane has left at its loop head. -/
theorem Sound.enters_work {s : BatchRun} (h : Sound calls terminalName s) {lane : Nat}
    {phase : BatchPhase} (henters : Enters s.batch lane phase) :
    (∃ x, s.batch.lanes[lane]? = some x ∧ x.work = 1) ∧
      phase.work s.batch.terminal.length = s.batch.phase.work s.batch.terminal.length := by
  rcases henters with ⟨hphase, rfl⟩ | ⟨hlane, rfl⟩
  · obtain ⟨opened, -, hposition⟩ := h.position
    rw [hphase] at hposition
    refine ⟨⟨.fresh, (hposition.2.2 lane).mpr ⟨Nat.le_refl _, hposition.2.1⟩, rfl⟩, ?_⟩
    rw [hphase]
    split <;> rfl
  · exact ⟨⟨_, hlane, rfl⟩, rfl⟩

/-- **Every block uses up work.** -/
theorem work_step {s t : BatchRun} (h : Sound calls terminalName s) (hstep : Stepped tools s t)
    (hblock : t.aborted = s.aborted) : t.batch.work < s.batch.work := by
  cases hstep with
  | dispatched lane index phase hlive hnext henters =>
    obtain ⟨⟨x, hx, hwork⟩, hphase⟩ := h.enters_work henters
    have hlt := (List.getElem?_eq_some_iff.mp hnext).1
    simp only [Batch.ordinary] at hlt
    have hsum := sum_work_set hx (.running index)
    rw [hwork, Lane.work] at hsum
    simp only [Batch.work, Batch.ordinary, Batch.terminal] at hphase ⊢
    rw [hphase]
    omega
  | finished lane phase hend henters =>
    obtain ⟨⟨x, hx, hwork⟩, hphase⟩ := h.enters_work henters
    have hsum := sum_work_set hx .done
    rw [hwork, Lane.work] at hsum
    simp only [Batch.work, Batch.ordinary, Batch.terminal] at hphase ⊢
    rw [hphase]
    omega
  | completed lane index call outcome instant hlive hlane hcall =>
    have hsum := sum_work_set hlane (.returning true)
    rw [Lane.work, Lane.work] at hsum
    simp only [Batch.work, Batch.ordinary, Batch.terminal]
    omega
  | dropped lane index haborted hlane =>
    have hsum := sum_work_set hlane (.returning false)
    rw [Lane.work, Lane.work] at hsum
    simp only [Batch.work, Batch.ordinary, Batch.terminal]
    omega
  | stopped lane hlane =>
    have hsum := sum_work_set hlane .done
    rw [Lane.work, Lane.work] at hsum
    simp only [Batch.work, Batch.ordinary, Batch.terminal]
    omega
  | submitted position index hlive hturn hnext =>
    have hlt := (List.getElem?_eq_some_iff.mp hnext).1
    simp only [Batch.terminal] at hlt
    simp only [Batch.work, Batch.ordinary, Batch.terminal]
    rcases hturn with ⟨hphase, rfl, -⟩ | ⟨p, hphase, rfl⟩
    · rw [hphase, BatchPhase.work, BatchPhase.work]
      omega
    · rw [hphase, BatchPhase.work, BatchPhase.work]
      omega
  | finishedAll position instant hturn hend =>
    simp only [Batch.work, Batch.ordinary, Batch.terminal]
    rcases hturn with ⟨hphase, rfl, -⟩ | ⟨p, hphase, rfl⟩
    · rw [hphase, BatchPhase.work, BatchPhase.work]
      omega
    · rw [hphase, BatchPhase.work, BatchPhase.work]
      omega
  | completedTerminal position index call outcome instant hlive hphase hnext hcall =>
    simp only [Batch.work, Batch.ordinary, Batch.terminal, hphase, BatchPhase.work]
    omega
  | droppedTerminal position index haborted hphase hnext =>
    simp only [Batch.work, Batch.ordinary, Batch.terminal, hphase, BatchPhase.work]
    omega
  | cut position instant hphase =>
    simp only [Batch.work, Batch.ordinary, Batch.terminal, hphase, BatchPhase.work]
    omega
  | aborted hlive =>
    rw [hlive] at hblock
    cases hblock

/-- The block of the batch in a label. -/
def BatchRunLabel.block? : BatchRunLabel → Option BatchLabel
  | .block label => some label
  | .abort => none

/-- Every run has as many blocks as the batch has used up work, at most. -/
theorem blocks_le_work {aborted : Bool} {ls : List BatchRunLabel} {s : BatchRun}
    (run : Run (BatchRun.step tools) Free (.initial calls terminalName aborted) ls s) :
    (ls.filterMap BatchRunLabel.block?).length + s.batch.work ≤
      (Batch.start calls terminalName).work := by
  induction run with
  | nil => exact Nat.le_of_eq (Nat.zero_add _)
  | @snoc t u ls l run hok hstep ih =>
    have hstepped := stepped_of_step hstep
    rw [List.filterMap_append, List.length_append]
    cases l with
    | block label =>
      have hflag : u.aborted = t.aborted := by
        obtain ⟨next, -, rfl⟩ := Option.map_eq_some_iff.mp hstep
        rfl
      have hwork := work_step (sound_of_run run) hstepped hflag
      simp only [List.filterMap_cons, BatchRunLabel.block?, List.filterMap_nil, List.length_singleton]
      omega
    | abort =>
      have hbatch : u.batch = t.batch := by
        simp only [BatchRun.step] at hstep
        split at hstep
        · cases hstep
        · cases hstep
          rfl
      rw [hbatch]
      simp only [List.filterMap_cons, BatchRunLabel.block?, List.filterMap_nil, List.length_nil]
      omega

theorem exists_of_block {s : BatchRun} (label : BatchLabel)
    (h : (s.batch.step tools s.aborted label).isSome = true) :
    ∃ label t, s.step tools (.block label) = some t := by
  obtain ⟨next, hnext⟩ := Option.isSome_iff_exists.mp h
  exact ⟨label, _, Option.map_eq_some_iff.mpr ⟨next, hnext, rfl⟩⟩

/-- **A batch that has not returned has a block to run**, which may be the settling of a call. -/
theorem batch_progress {s : BatchRun} (h : Sound calls terminalName s)
    (hopen : ∀ results, s.batch.phase ≠ .returned results) :
    ∃ label t, s.step tools (.block label) = some t := by
  obtain ⟨opened, hstarted, hposition⟩ := h.position
  have hcalled : ∀ {i : Nat}, i < s.batch.calls.length → ∃ call, s.batch.calls[i]? = some call :=
    fun hi => ⟨_, List.getElem?_eq_getElem hi⟩
  cases hphase : s.batch.phase with
  | starting lane => exact exists_of_block .spawn (by simp [Batch.step, hphase])
  | racing =>
    rw [hphase] at hposition
    by_cases hready : s.batch.lanes.all Batch.laneDone = true ∨ s.aborted = true
    · exact exists_of_block (.proceed 0) (by simp only [Batch.step, hphase, if_pos hready]; rfl)
    · rw [not_or, List.all_eq_true, not_forall] at hready
      obtain ⟨⟨lane, hlane⟩, -⟩ := hready
      rw [Classical.not_imp] at hlane
      obtain ⟨l, hl⟩ := List.mem_iff_getElem?.mp hlane.1
      cases lane with
      | fresh => exact absurd hlane.1 hposition.2
      | running index =>
        have hmem := (h.crewed.running l index hl).1
        obtain ⟨call, hcall⟩ := hcalled (mem_ordinaryCalls.mp (List.mem_of_mem_take hmem)).1
        exact exists_of_block (.resolve l (.error "") 0) (by simp [Batch.step, hl, hcall])
      | returning more =>
        cases more with
        | true => exact exists_of_block (.resume l) (by simp [Batch.step, hl])
        | false => exact exists_of_block (.resume l) (by simp [Batch.step, hl])
      | done => exact absurd rfl hlane.2
  | terminalRunning position =>
    rw [hphase] at hposition
    obtain ⟨index, hindex, -⟩ := hposition.2.2.2.1
    obtain ⟨call, hcall⟩ := hcalled (mem_terminalCalls.mp (List.mem_of_getElem? hindex)).1
    exact exists_of_block (.resolveTerminal (.error "") 0)
      (by simp [Batch.step, hphase, hindex, hcall])
  | terminalReturning position more =>
    cases more with
    | true => exact exists_of_block (.resumeTerminal 0) (by simp [Batch.step, hphase])
    | false => exact exists_of_block (.resumeTerminal 0) (by simp [Batch.step, hphase])
  | returned results => exact absurd hphase (hopen results)

/-! ## The results -/

/-- One result a call, with its id, in call order. -/
theorem Sound.results_ids {s : BatchRun} (h : Sound calls terminalName s) (instant : Nat) :
    (s.batch.results instant).map (·.toolUseId) = calls.map (·.toolUseId) := by
  rw [← h.calls_eq]
  refine List.ext_getElem? fun i => ?_
  rw [List.getElem?_map, List.getElem?_map, Batch.results, List.getElem?_mapIdx]
  cases hcall : s.batch.calls[i]? with
  | none => rfl
  | some call =>
    simp only [Option.map_some, Option.some.injEq]
    cases hslot : s.batch.settled[i]? with
    | none => rfl
    | some slot =>
      cases slot with
      | none => rfl
      | some result => exact h.slotted.paired i result call hslot hcall

/-- A result is the one of the completed event, and `interrupted` without one. -/
theorem Sound.results_settled {s : BatchRun} (h : Sound calls terminalName s) {instant i : Nat}
    {result : ToolCallResult} (hresult : (s.batch.results instant)[i]? = some result) :
    .completed i result ∈ s.history ∨
      ¬ Completed s.history i ∧ ∃ call, calls[i]? = some call ∧
        result = errorResult call.toolUseId "interrupted" instant := by
  rw [Batch.results, List.getElem?_mapIdx, Option.map_eq_some_iff] at hresult
  obtain ⟨call, hcall, rfl⟩ := hresult
  rw [← h.slotted.settled_iff, ← h.calls_eq]
  cases hslot : s.batch.settled[i]? with
  | none =>
    refine Or.inr ⟨?_, call, hcall, rfl⟩
    rintro ⟨other, hother⟩
    rw [hslot] at hother
    cases hother
  | some slot =>
    cases slot with
    | none =>
      refine Or.inr ⟨?_, call, hcall, rfl⟩
      rintro ⟨other, hother⟩
      rw [hslot] at hother
      cases hother
    | some other => exact Or.inl ((h.slotted.completed i other).mpr hslot)

/-- A batch that returns without an abort has dispatched every call. -/
theorem Sound.started_of_returned {s : BatchRun} (h : Sound calls terminalName s)
    {results : List ToolCallResult} (hphase : s.batch.phase = .returned results)
    (hlive : .aborted ∉ s.history) {i : Nat} (hi : i < calls.length) :
    i ∈ started s.history := by
  have hflag : s.aborted = false := by
    rw [← Bool.not_eq_true, ← h.aborted]
    exact hlive
  obtain ⟨opened, -, hposition⟩ := h.position
  rw [hphase] at hposition
  obtain ⟨-, hcalm, -, hterminal⟩ := hposition
  have hsettled : Settled s.batch i := by
    rw [← h.calls_eq] at hi
    rcases (ordinary_or_terminal hi : i ∈ s.batch.ordinary ∨ i ∈ s.batch.terminal) with
      hmem | hmem
    · exact h.settled_of_calm hflag hcalm i hmem
    · exact hterminal.resolve_left (by rw [hflag]; exact nofun) i hmem
  exact started_of_completed (h.slotted.settled_iff.mp hsettled) h.chronicle

/-- The call that the lane awaits. -/
def Lane.call? : Lane → Option Nat
  | .running index => some index
  | _ => none

/-- A call in flight occupies a lane of its own. -/
theorem Sound.inFlight_le {s : BatchRun} (h : Sound calls terminalName s) {indices : List Nat}
    (hnodup : indices.Nodup)
    (hflight : ∀ i ∈ indices, i ∈ ordinaryCalls calls terminalName ∧ InFlight s.history i) :
    indices.length ≤ maxToolConcurrency := by
  have hsub : indices ⊆ s.batch.lanes.filterMap Lane.call? := by
    intro i hi
    obtain ⟨hordinary, hstarted, hopen, hkept⟩ := hflight i hi
    obtain ⟨opened, heq, -⟩ := h.position
    rw [heq, List.mem_append] at hstarted
    have hclaimed : i ∈ s.batch.ordinary.take s.batch.cursor := by
      rcases hstarted with hmem | hmem
      · exact hmem
      · rw [← h.calls_eq, ← h.terminalName_eq] at hordinary
        exact absurd (List.mem_of_mem_take hmem) (not_terminal_of_ordinary hordinary)
    rcases h.crewed.claimed i hclaimed with hsettled | hdropped | ⟨l, hl⟩
    · exact absurd (h.slotted.settled_iff.mp hsettled) hopen
    · exact absurd hdropped hkept
    · exact List.mem_filterMap.mpr ⟨_, List.mem_of_getElem? hl, rfl⟩
  calc indices.length
      ≤ _ := (List.subperm_of_subset hnodup hsub).length_le
    _ ≤ s.batch.lanes.length := List.length_filterMap_le ..
    _ ≤ maxToolConcurrency := by rw [h.crewed.length]; exact Nat.min_le_left _ _

/-- Ordinary calls start in call order. -/
theorem Sound.ordinary_prefix {s : BatchRun} (h : Sound calls terminalName s) :
    (started s.history).filter (fun i => i ∈ ordinaryCalls calls terminalName) <+:
      ordinaryCalls calls terminalName := by
  obtain ⟨opened, heq, -⟩ := h.position
  rw [Batch.ordinary, Batch.terminal, h.calls_eq, h.terminalName_eq] at heq
  rw [heq, List.filter_append, List.filter_eq_self.mpr, List.filter_eq_nil_iff.mpr,
    List.append_nil]
  · exact List.take_prefix _ _
  · intro i hi
    rw [decide_eq_true_eq]
    exact fun hordinary => not_terminal_of_ordinary hordinary (List.mem_of_mem_take hi)
  · intro i hi
    rw [decide_eq_true_eq]
    exact List.mem_of_mem_take hi

/-- **The contract of `executeBatch`**, for every list of calls and every schedule: it returns
after finitely many blocks, with one result a call in call order, each the one of the completed
event or `interrupted`; a call is dispatched once, at most eight ordinary calls are in flight and
they start in call order; a terminal call starts after every ordinary and every earlier terminal
call has settled; a completed event comes once, after its start and before the abort. -/
theorem batch_contract {aborted : Bool} {ls : List BatchRunLabel} {s : BatchRun}
    (run : Run (BatchRun.step tools) Free (.initial calls terminalName aborted) ls s) :
    ((ls.filterMap BatchRunLabel.block?).length ≤ (Batch.start calls terminalName).work ∧
      ((∀ results, s.batch.phase ≠ .returned results) →
        ∃ label t, s.step tools (.block label) = some t)) ∧
    (∀ results, s.batch.phase = .returned results →
      results.map (·.toolUseId) = calls.map (·.toolUseId) ∧
      (∀ (i : Nat) (result : ToolCallResult), results[i]? = some result →
        .completed i result ∈ s.history ∨
          ¬ Completed s.history i ∧ ∃ call instant, calls[i]? = some call ∧
            result = errorResult call.toolUseId "interrupted" instant) ∧
      (.aborted ∉ s.history → ∀ i < calls.length, i ∈ started s.history)) ∧
    (started s.history).Nodup ∧
    (∀ indices : List Nat, indices.Nodup →
      (∀ i ∈ indices, i ∈ ordinaryCalls calls terminalName ∧ InFlight s.history i) →
      indices.length ≤ 8) ∧
    (started s.history).filter (fun i => i ∈ ordinaryCalls calls terminalName) <+:
      ordinaryCalls calls terminalName ∧
    (∀ before index after, s.history = before ++ .started index :: after →
      index ∈ terminalCalls calls terminalName →
        (∀ i ∈ ordinaryCalls calls terminalName, Completed before i) ∧
        ∀ i ∈ terminalCalls calls terminalName, i < index → Completed before i) ∧
    ∀ before index result after, s.history = before ++ .completed index result :: after →
      .started index ∈ before ∧ .aborted ∉ before ∧ ¬ Completed before index := by
  have h := sound_of_run run
  refine ⟨⟨?_, batch_progress h⟩, ?_, started_nodup h.chronicle, fun _ => h.inFlight_le,
    h.ordinary_prefix, ?_, ?_⟩
  · have := blocks_le_work run
    omega
  · intro results hphase
    obtain ⟨opened, -, hposition⟩ := h.position
    rw [hphase] at hposition
    obtain ⟨-, -, ⟨instant, rfl⟩, -⟩ := hposition
    refine ⟨h.results_ids instant, ?_, fun hlive _ => h.started_of_returned hphase hlive⟩
    intro i result hresult
    rcases h.results_settled hresult with hcompleted | ⟨hnone, call, hcall, heq⟩
    · exact Or.inl hcompleted
    · exact Or.inr ⟨hnone, call, instant, hcall, heq⟩
  · intro before index after heq
    exact (h.chronicle before _ after heq).2.2
  · intro before index result after heq
    obtain ⟨hlive, hstarted, hnone⟩ := h.chronicle before _ after heq
    exact ⟨mem_started.mp hstarted, hlive, hnone⟩

/-- What the batch has returned. -/
def BatchPhase.results? : BatchPhase → Option (List ToolCallResult)
  | .returned results => some results
  | _ => none

theorem BatchPhase.of_results? {phase : BatchPhase} {results : List ToolCallResult}
    (h : phase.results? = some results) : phase = .returned results := by
  unfold results? at h
  split at h
  · rw [Option.some.inj h]
  · cases h

/-- A terminal call and an ordinary call, in this order. -/
def samplePair : List ToolUseBlock :=
  [⟨"a", "submit", []⟩, ⟨"b", "read", []⟩]

/-- The ordinary call is denied, and the terminal call throws. -/
def samplePairRun : List BatchRunLabel :=
  [.block .spawn, .block (.resolve 0 (.ok (rejectedResult "denied" 1)) 1), .block (.resume 0),
    .block (.proceed 2), .block (.resolveTerminal (.error "lost") 3), .block (.resumeTerminal 4)]

theorem batch_contract_pair :
    ∃ (s : BatchRun) (results : List ToolCallResult),
      Run (BatchRun.step ["read", "submit"]) Free (.initial samplePair (some "submit") false)
        samplePairRun s ∧
      s.batch.phase = .returned results ∧ results.map (·.toolUseId) = ["a", "b"] ∧
      started s.history = [1, 0] ∧ (started s.history).Nodup ∧
      ∀ before after, s.history = before ++ .started 0 :: after → Completed before 1 := by
  obtain ⟨s, run, hs⟩ := exists_run (BatchRun.step ["read", "submit"]) Free
    (.initial samplePair (some "submit") false) samplePairRun
    (fun s => s.batch.phase.results?.isSome && started s.history == [1, 0]) (by decide +kernel)
  obtain ⟨hreturned, hstarted⟩ := Bool.and_eq_true_iff.mp hs
  obtain ⟨results, hresults?⟩ := Option.isSome_iff_exists.mp hreturned
  have hphase := BatchPhase.of_results? hresults?
  obtain ⟨-, hresults, hnodup, -, -, hterminal, -⟩ := batch_contract run
  refine ⟨s, results, run, hphase, (hresults results hphase).1, beq_iff_eq.mp hstarted, hnodup, ?_⟩
  intro before after heq
  exact (hterminal before 0 after heq (by decide)).1 1 (by decide)

end EphemeralAgent.Tool
