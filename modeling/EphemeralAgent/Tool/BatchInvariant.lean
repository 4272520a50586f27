import Mathlib.Data.List.Induction
import EphemeralAgent.Tool.BatchStep

/-!
# The invariant of the batch executor

For every list of calls, every order in which the calls settle and every abort.

* `Admissible` — when an item may be noted, judged by what was noted before it
* `Sound` — the invariant of lanes, cursor, slots and history
* `sound_step`, `sound_of_run` — it is kept by every block
-/

namespace EphemeralAgent.Tool

open Lib

variable {tools : List String} {calls : List ToolUseBlock} {terminalName : Option String}

/-- The call that an item starts. -/
def BatchItem.started? : BatchItem → Option Nat
  | .started index => some index
  | _ => none

/-- The calls that a history has started, in order. -/
def started (history : List BatchItem) : List Nat :=
  history.filterMap BatchItem.started?

/-- `tool_execution_completed` has been emitted for this call. -/
def Completed (history : List BatchItem) (index : Nat) : Prop :=
  ∃ result, .completed index result ∈ history

/-- The call has started and has not settled. -/
def InFlight (history : List BatchItem) (index : Nat) : Prop :=
  index ∈ started history ∧ ¬ Completed history index ∧ .dropped index ∉ history

/-- When an item may be noted. -/
def Admissible (calls : List ToolUseBlock) (terminalName : Option String)
    (before : List BatchItem) : BatchItem → Prop
  | .started index =>
    .aborted ∉ before ∧ index ∉ started before ∧
      (index ∈ terminalCalls calls terminalName →
        (∀ i ∈ ordinaryCalls calls terminalName, Completed before i) ∧
        ∀ i ∈ terminalCalls calls terminalName, i < index → Completed before i)
  | .completed index _ =>
    .aborted ∉ before ∧ index ∈ started before ∧ ¬ Completed before index
  | .dropped index => .aborted ∈ before ∧ index ∈ started before
  | .aborted => .aborted ∉ before

/-- The slot of a call holds its result. -/
def Settled (b : Batch) (index : Nat) : Prop :=
  ∃ result, b.settled[index]? = some (some result)

/-- This lane waits for this call. -/
def Runs (b : Batch) (lane index : Nat) : Prop :=
  b.lanes[lane]? = some (.running index)

/-- No lane has work left. -/
def Calm (s : BatchRun) : Prop :=
  s.aborted = true ∨
    (∀ lane ∈ s.batch.lanes, lane = .done) ∧ s.batch.ordinary.length ≤ s.batch.cursor

/-- What the place of `executeBatch` says; `opened` terminal calls have been started. -/
def Position (s : BatchRun) (opened : Nat) : BatchPhase → Prop
  | .starting lane =>
    opened = 0 ∧ lane < s.batch.lanes.length ∧
      ∀ l, s.batch.lanes[l]? = some .fresh ↔ lane ≤ l ∧ l < s.batch.lanes.length
  | .racing => opened = 0 ∧ .fresh ∉ s.batch.lanes
  | .terminalRunning position =>
    opened = position + 1 ∧ .fresh ∉ s.batch.lanes ∧ Calm s ∧
      (∃ index, s.batch.terminal[position]? = some index ∧ ¬ Settled s.batch index) ∧
      (s.aborted = true ∨ ∀ i ∈ s.batch.terminal.take position, Settled s.batch i)
  | .terminalReturning position more =>
    opened = position + 1 ∧ .fresh ∉ s.batch.lanes ∧ Calm s ∧
      (s.aborted = true ∨
        more = true ∧ ∀ i ∈ s.batch.terminal.take (position + 1), Settled s.batch i)
  | .returned results =>
    .fresh ∉ s.batch.lanes ∧ Calm s ∧ (∃ instant, results = s.batch.results instant) ∧
      (s.aborted = true ∨ ∀ i ∈ s.batch.terminal, Settled s.batch i)

/-- The invariant of the lanes. -/
structure Crewed (s : BatchRun) : Prop where
  length : s.batch.lanes.length = min maxToolConcurrency s.batch.ordinary.length
  /-- The call of a lane is claimed, and its slot is empty. -/
  running : ∀ l i, Runs s.batch l i →
    i ∈ s.batch.ordinary.take s.batch.cursor ∧ ¬ Settled s.batch i
  distinct : ∀ l l' i, Runs s.batch l i → Runs s.batch l' i → l = l'
  claimed : ∀ i ∈ s.batch.ordinary.take s.batch.cursor,
    Settled s.batch i ∨ .dropped i ∈ s.history ∨ ∃ l, Runs s.batch l i
  stopped : .returning false ∈ s.batch.lanes → s.aborted = true
  finished : .done ∈ s.batch.lanes → s.aborted = true ∨ s.batch.ordinary.length ≤ s.batch.cursor

/-- The invariant of the slots. -/
structure Slotted (s : BatchRun) : Prop where
  length : s.batch.settled.length = s.batch.calls.length
  completed : ∀ i result,
    .completed i result ∈ s.history ↔ s.batch.settled[i]? = some (some result)
  paired : ∀ (i : Nat) (result : ToolCallResult) (call : ToolUseBlock),
    s.batch.settled[i]? = some (some result) → s.batch.calls[i]? = some call →
    result.toolUseId = call.toolUseId

/-- The invariant of `executeBatch`. -/
structure Sound (calls : List ToolUseBlock) (terminalName : Option String) (s : BatchRun) :
    Prop where
  calls_eq : s.batch.calls = calls
  terminalName_eq : s.batch.terminalName = terminalName
  aborted : .aborted ∈ s.history ↔ s.aborted = true
  crewed : Crewed s
  slotted : Slotted s
  position : ∃ opened,
    started s.history =
      s.batch.ordinary.take s.batch.cursor ++ s.batch.terminal.take opened ∧
    Position s opened s.batch.phase
  chronicle : Chronicle (Admissible calls terminalName) s.history

/-! ## What the history knows -/

theorem started_append {history : List BatchItem} {item : BatchItem} :
    started (history ++ [item]) = started history ++ item.started?.toList := by
  rw [started, List.filterMap_append]
  cases item <;> rfl

theorem mem_started {history : List BatchItem} {i : Nat} :
    i ∈ started history ↔ .started i ∈ history := by
  rw [started, List.mem_filterMap]
  constructor
  · rintro ⟨item, hitem, heq⟩
    cases item with
    | started j => cases heq; exact hitem
    | completed j result => cases heq
    | dropped j => cases heq
    | aborted => cases heq
  · intro h
    exact ⟨_, h, rfl⟩

theorem started_mono {before history : List BatchItem} (h : before ⊆ history) {i : Nat}
    (hi : i ∈ started before) : i ∈ started history :=
  mem_started.mpr (h (mem_started.mp hi))

section Known

variable {history : List BatchItem}

theorem started_of_completed {i : Nat} (hi : Completed history i)
    (h : Chronicle (Admissible calls terminalName) history) : i ∈ started history := by
  obtain ⟨result, hmem⟩ := hi
  obtain ⟨before, hsub, -, hstarted, -⟩ := h.after hmem
  exact started_mono hsub hstarted

theorem aborted_of_dropped {i : Nat} (hi : .dropped i ∈ history)
    (h : Chronicle (Admissible calls terminalName) history) : .aborted ∈ history := by
  obtain ⟨before, hsub, haborted, -⟩ := h.after hi
  exact hsub haborted

/-- No call is dispatched twice. -/
theorem started_nodup (h : Chronicle (Admissible calls terminalName) history) :
    (started history).Nodup := by
  induction history using List.reverseRecOn with
  | nil => exact List.nodup_nil
  | append_singleton history item ih =>
    have hhistory : Chronicle (Admissible calls terminalName) history := by
      intro before other after heq
      exact h before other (after ++ [item]) (by rw [heq]; simp)
    have hitem := h history item [] rfl
    rw [started_append]
    cases item with
    | started i =>
      refine List.nodup_append.mpr ⟨ih hhistory, List.nodup_singleton i, ?_⟩
      rintro a ha b hb rfl
      rw [List.mem_singleton.mp hb] at ha
      exact hitem.2.1 ha
    | completed i result => simpa [BatchItem.started?] using ih hhistory
    | dropped i => simpa [BatchItem.started?] using ih hhistory
    | aborted => simpa [BatchItem.started?] using ih hhistory

end Known

section Read

variable {s : BatchRun}

theorem Slotted.settled_iff (h : Slotted s) {i : Nat} :
    Settled s.batch i ↔ Completed s.history i := by
  constructor
  · rintro ⟨result, hi⟩
    exact ⟨result, (h.completed i result).mpr hi⟩
  · rintro ⟨result, hi⟩
    exact ⟨result, (h.completed i result).mp hi⟩

theorem Sound.not_dropped (h : Sound calls terminalName s) (hlive : s.aborted = false) {i : Nat} :
    .dropped i ∉ s.history := by
  intro hi
  have haborted := h.aborted.mp (aborted_of_dropped hi h.chronicle)
  rw [hlive] at haborted
  cases haborted

theorem Sound.not_aborted (h : Sound calls terminalName s) (hlive : s.aborted = false) :
    .aborted ∉ s.history := by
  intro haborted
  rw [h.aborted.mp haborted] at hlive
  cases hlive

/-- A batch that is not aborted has a lane with work only before its terminal calls. -/
theorem Sound.opened_of_busy (h : Sound calls terminalName s) (hlive : s.aborted = false)
    {lane : Lane} (hlane : lane ∈ s.batch.lanes) (hbusy : lane ≠ .done) :
    s.batch.phase = .racing ∨ ∃ l, s.batch.phase = .starting l := by
  obtain ⟨opened, -, hposition⟩ := h.position
  have hcalm : ¬ Calm s := by
    rintro (haborted | ⟨hdone, -⟩)
    · rw [hlive] at haborted
      cases haborted
    · exact hbusy (hdone lane hlane)
  cases hphase : s.batch.phase with
  | racing => exact Or.inl rfl
  | starting l => exact Or.inr ⟨l, rfl⟩
  | terminalRunning position => rw [hphase] at hposition; exact absurd hposition.2.2.1 hcalm
  | terminalReturning position more =>
    rw [hphase] at hposition
    exact absurd hposition.2.2.1 hcalm
  | returned results => rw [hphase] at hposition; exact absurd hposition.2.1 hcalm

/-- Once the lanes are calm and nothing has aborted, every ordinary call has settled. -/
theorem Sound.settled_of_calm (h : Sound calls terminalName s) (hlive : s.aborted = false)
    (hcalm : Calm s) : ∀ i ∈ s.batch.ordinary, Settled s.batch i := by
  intro i hi
  rcases hcalm with haborted | ⟨hdone, hcursor⟩
  · rw [hlive] at haborted
    cases haborted
  · rw [← List.take_of_length_le hcursor] at hi
    rcases h.crewed.claimed i hi with hsettled | hdropped | ⟨l, hruns⟩
    · exact hsettled
    · exact absurd hdropped (h.not_dropped hlive)
    · cases hdone _ (List.mem_of_getElem? hruns)

end Read

/-! ## Moving one lane -/

section Lanes

variable {s t : BatchRun} {lane : Nat} {x y : Lane}

theorem getElem?_set_lane (hx : s.batch.lanes[lane]? = some x)
    (hlanes : t.batch.lanes = s.batch.lanes.set lane y) (l : Nat) :
    t.batch.lanes[l]? = if l = lane then some y else s.batch.lanes[l]? := by
  obtain ⟨hlt, -⟩ := List.getElem?_eq_some_iff.mp hx
  rw [hlanes, List.getElem?_set]
  by_cases hl : l = lane
  · rw [if_pos hl.symm, if_pos hlt, if_pos hl]
  · rw [if_neg (Ne.symm hl), if_neg hl]

theorem runs_set (hx : s.batch.lanes[lane]? = some x)
    (hlanes : t.batch.lanes = s.batch.lanes.set lane y) {l i : Nat} :
    Runs t.batch l i ↔ if l = lane then y = .running i else Runs s.batch l i := by
  unfold Runs
  rw [getElem?_set_lane hx hlanes]
  by_cases hl : l = lane
  · rw [if_pos hl, if_pos hl, Option.some.injEq]
  · rw [if_neg hl, if_neg hl]

theorem mem_set_lane (hlanes : t.batch.lanes = s.batch.lanes.set lane y) {z : Lane}
    (hz : z ∈ t.batch.lanes) (hzy : z ≠ y) : z ∈ s.batch.lanes := by
  rw [hlanes] at hz
  rcases List.mem_or_eq_of_mem_set hz with hz | rfl
  · exact hz
  · exact absurd rfl hzy

/-- A lane moves on; `executeBatch` itself stays where it is. -/
theorem Sound.position_set (h : Sound calls terminalName s) {opened : Nat}
    (hposition : Position s opened s.batch.phase) (hx : s.batch.lanes[lane]? = some x)
    (hfresh : x ≠ .fresh) (hbusy : x ≠ .done) (hy : y ≠ .fresh)
    (hlanes : t.batch.lanes = s.batch.lanes.set lane y) (hflag : t.aborted = s.aborted)
    (hrest : s.aborted = true → t.batch.settled = s.batch.settled ∧
      t.batch.calls = s.batch.calls ∧ t.batch.terminalName = s.batch.terminalName) :
    Position t opened s.batch.phase := by
  have hkept : .fresh ∉ s.batch.lanes → .fresh ∉ t.batch.lanes := fun hno hmem =>
    hno (mem_set_lane hlanes hmem (Ne.symm hy))
  have hearly : (s.batch.phase = .racing ∨ ∃ l, s.batch.phase = .starting l) →
      Position t opened s.batch.phase := by
    rintro (hphase | ⟨k, hphase⟩)
    · rw [hphase] at hposition ⊢
      exact ⟨hposition.1, hkept hposition.2⟩
    · rw [hphase] at hposition ⊢
      have hlength : t.batch.lanes.length = s.batch.lanes.length := by
        rw [hlanes, List.length_set]
      refine ⟨hposition.1, by rw [hlength]; exact hposition.2.1, ?_⟩
      intro l
      rw [getElem?_set_lane hx hlanes, hlength, ← hposition.2.2 l]
      by_cases hl : l = lane
      · rw [if_pos hl, hl, hx, Option.some.injEq, Option.some.injEq]
        exact ⟨fun heq => absurd heq hy, fun heq => absurd heq hfresh⟩
      · rw [if_neg hl]
  by_cases haborted : s.aborted = true
  · obtain ⟨hsettled, hcalls, hname⟩ := hrest haborted
    have hsame : ∀ i, Settled t.batch i ↔ Settled s.batch i := by
      intro i
      unfold Settled
      rw [hsettled]
    have haborted' : t.aborted = true := hflag.trans haborted
    cases hphase : s.batch.phase with
    | racing => rw [← hphase]; exact hearly (Or.inl hphase)
    | starting k => rw [← hphase]; exact hearly (Or.inr ⟨k, hphase⟩)
    | terminalRunning position =>
      rw [hphase] at hposition
      obtain ⟨hopened, hno, -, ⟨index, hindex, hempty⟩, -⟩ := hposition
      refine ⟨hopened, hkept hno, Or.inl haborted', ⟨index, ?_, ?_⟩, Or.inl haborted'⟩
      · rw [Batch.terminal, hcalls, hname]
        exact hindex
      · rw [hsame]
        exact hempty
    | terminalReturning position more =>
      rw [hphase] at hposition
      exact ⟨hposition.1, hkept hposition.2.1, Or.inl haborted', Or.inl haborted'⟩
    | returned results =>
      rw [hphase] at hposition
      obtain ⟨hno, -, ⟨instant, hresults⟩, -⟩ := hposition
      refine ⟨hkept hno, Or.inl haborted', ⟨instant, ?_⟩, Or.inl haborted'⟩
      rw [hresults, Batch.results, Batch.results, hcalls, hsettled]
  · rw [Bool.not_eq_true] at haborted
    exact hearly (h.opened_of_busy haborted (List.mem_of_getElem? hx) hbusy)

/-- What `lane()` finds at its loop head, and where `executeBatch` is afterwards. -/
theorem Sound.position_enter (h : Sound calls terminalName s) {opened : Nat} {phase : BatchPhase}
    (hposition : Position s opened s.batch.phase) (henters : Enters s.batch lane phase)
    (hy : y ≠ .fresh) (hlanes : t.batch.lanes = s.batch.lanes.set lane y)
    (hflag : t.aborted = s.aborted) (hrest : t.batch.settled = s.batch.settled ∧
      t.batch.calls = s.batch.calls ∧ t.batch.terminalName = s.batch.terminalName) :
    (∃ x, s.batch.lanes[lane]? = some x ∧ x ≠ .done ∧ ∀ i, x ≠ .running i) ∧
      Position t opened phase := by
  rcases henters with ⟨hphase, rfl⟩ | ⟨hlane, rfl⟩
  · rw [hphase] at hposition
    obtain ⟨hopened, hlt, hfresh⟩ := hposition
    have hlane : s.batch.lanes[lane]? = some .fresh := (hfresh lane).mpr ⟨Nat.le_refl _, hlt⟩
    refine ⟨⟨.fresh, hlane, nofun, nofun⟩, ?_⟩
    have hfresh' : ∀ l, t.batch.lanes[l]? = some .fresh ↔ lane + 1 ≤ l ∧ l < s.batch.lanes.length := by
      intro l
      rw [getElem?_set_lane hlane hlanes]
      by_cases hl : l = lane
      · rw [if_pos hl, Option.some.injEq]
        exact ⟨fun heq => absurd heq hy, fun hle => by omega⟩
      · rw [if_neg hl, hfresh l]
        omega
    have hlength : t.batch.lanes.length = s.batch.lanes.length := by rw [hlanes, List.length_set]
    split
    · next hmore =>
      refine ⟨hopened, by omega, ?_⟩
      rw [hlength]
      exact hfresh'
    · next hlast =>
      refine ⟨hopened, fun hmem => ?_⟩
      obtain ⟨l, hl⟩ := List.mem_iff_getElem?.mp hmem
      have := (hfresh' l).mp hl
      omega
  · refine ⟨⟨_, hlane, nofun, nofun⟩, ?_⟩
    exact h.position_set hposition hlane nofun nofun hy hlanes hflag fun _ => hrest

end Lanes

/-! ## The blocks of a lane -/

section Blocks

variable {s : BatchRun}

/-- The next ordinary call has not been started. -/
theorem Sound.fresh_ordinary (h : Sound calls terminalName s) {index : Nat}
    (hnext : s.batch.ordinary[s.batch.cursor]? = some index) : index ∉ started s.history := by
  obtain ⟨opened, hstarted, -⟩ := h.position
  rw [hstarted, List.mem_append, not_or]
  refine ⟨not_mem_take ordinaryCalls_nodup hnext, fun hmem => ?_⟩
  exact not_terminal_of_ordinary (List.mem_of_getElem? hnext) (List.mem_of_mem_take hmem)

/-- The next terminal call has not been started. -/
theorem fresh_terminal {index opened : Nat}
    (hstarted : started s.history =
      s.batch.ordinary.take s.batch.cursor ++ s.batch.terminal.take opened)
    (hnext : s.batch.terminal[opened]? = some index) : index ∉ started s.history := by
  rw [hstarted, List.mem_append, not_or]
  refine ⟨fun hmem => ?_, not_mem_take terminalCalls_nodup hnext⟩
  exact not_terminal_of_ordinary (List.mem_of_mem_take hmem) (List.mem_of_getElem? hnext)

theorem Sound.unsettled_of_fresh (h : Sound calls terminalName s) {index : Nat}
    (hfresh : index ∉ started s.history) : ¬ Settled s.batch index := fun hsettled =>
  hfresh (started_of_completed (h.slotted.settled_iff.mp hsettled) h.chronicle)

theorem Sound.aborted_append (h : Sound calls terminalName s) {item : BatchItem}
    (hitem : item ≠ .aborted) : .aborted ∈ s.history ++ [item] ↔ s.aborted = true := by
  rw [List.mem_append, List.mem_singleton, h.aborted]
  constructor
  · rintro (haborted | heq)
    · exact haborted
    · exact absurd heq.symm hitem
  · exact Or.inl

theorem Slotted.started (h : Slotted s) {index : Nat} (i : Nat) (result : ToolCallResult) :
    .completed i result ∈ s.history ++ [.started index] ↔
      s.batch.settled[i]? = some (some result) := by
  rw [List.mem_append, List.mem_singleton, ← h.completed]
  constructor
  · rintro (hmem | heq)
    · exact hmem
    · cases heq
  · exact Or.inl

theorem take_cursor_succ {index : Nat} (hnext : s.batch.ordinary[s.batch.cursor]? = some index) :
    s.batch.ordinary.take (s.batch.cursor + 1) =
      s.batch.ordinary.take s.batch.cursor ++ [index] := by
  rw [List.take_add_one, hnext]
  rfl

/-- A lane without a call takes the next ordinary one. -/
theorem Crewed.claim (h : Crewed s) {lane index : Nat} {phase : BatchPhase} {x : Lane}
    (hnext : s.batch.ordinary[s.batch.cursor]? = some index)
    (hempty : ¬ Settled s.batch index) (hx : s.batch.lanes[lane]? = some x)
    (hidle : ∀ i, x ≠ .running i) :
    Crewed
      { s with
        batch := { s.batch with
          cursor := s.batch.cursor + 1
          lanes := s.batch.lanes.set lane (.running index)
          phase }
        history := s.history ++ [.started index] } := by
  have htake := take_cursor_succ hnext
  have hruns : ∀ {l i : Nat}, Runs _ l i ↔ _ := fun {l i} =>
    runs_set (t := { s with
      batch := { s.batch with
        cursor := s.batch.cursor + 1
        lanes := s.batch.lanes.set lane (.running index)
        phase }
      history := s.history ++ [.started index] }) (l := l) (i := i) hx rfl
  refine { length := ?_, running := ?_, distinct := ?_, claimed := ?_, stopped := ?_,
           finished := ?_ }
  · exact (List.length_set ..).trans h.length
  · intro l i hl
    show i ∈ s.batch.ordinary.take (s.batch.cursor + 1) ∧ ¬ Settled s.batch i
    rw [htake, List.mem_append, List.mem_singleton]
    rw [hruns] at hl
    split at hl
    · cases hl
      exact ⟨Or.inr rfl, hempty⟩
    · exact ⟨Or.inl (h.running l i hl).1, (h.running l i hl).2⟩
  · intro l l' i hl hl'
    rw [hruns] at hl hl'
    -- the call that has just been claimed runs in no other lane
    have hother : ∀ {m : Nat}, ¬ Runs s.batch m index := fun hm =>
      not_mem_take ordinaryCalls_nodup hnext (h.running _ _ hm).1
    split at hl
    · next heq =>
      cases hl
      split at hl'
      · next heq' => exact heq.trans heq'.symm
      · exact absurd hl' hother
    · split at hl'
      · cases hl'
        exact absurd hl hother
      · exact h.distinct l l' i hl hl'
  · intro i hi
    show Settled s.batch i ∨ BatchItem.dropped i ∈ s.history ++ [BatchItem.started index] ∨ _
    replace hi : i ∈ s.batch.ordinary.take (s.batch.cursor + 1) := hi
    rw [htake, List.mem_append, List.mem_singleton] at hi
    rcases hi with hi | rfl
    · rcases h.claimed i hi with hsettled | hdropped | ⟨l, hl⟩
      · exact Or.inl hsettled
      · exact Or.inr (Or.inl (List.mem_append_left _ hdropped))
      · refine Or.inr (Or.inr ⟨l, hruns.mpr ?_⟩)
        rw [if_neg]
        · exact hl
        · rintro rfl
          rw [Runs, hx, Option.some.injEq] at hl
          exact hidle i hl
    · exact Or.inr (Or.inr ⟨lane, hruns.mpr (by rw [if_pos rfl])⟩)
  · intro hmem
    exact h.stopped (mem_set_lane (t := { s with batch := { s.batch with lanes := _ } })
      rfl hmem nofun)
  · intro hmem
    rcases h.finished (mem_set_lane
      (t := { s with batch := { s.batch with lanes := _ } }) rfl hmem nofun) with hab | hle
    · exact Or.inl hab
    · exact Or.inr (Nat.le_succ_of_le hle)

/-- While a lane is busy no terminal call has been opened. -/
theorem Sound.unopened (h : Sound calls terminalName s) (hlive : s.aborted = false) {opened : Nat}
    (hposition : Position s opened s.batch.phase) {lane : Nat} {x : Lane}
    (hx : s.batch.lanes[lane]? = some x) (hbusy : x ≠ .done) : opened = 0 := by
  rcases h.opened_of_busy hlive (List.mem_of_getElem? hx) hbusy with hphase | ⟨k, hphase⟩
  · rw [hphase] at hposition
    exact hposition.1
  · rw [hphase] at hposition
    exact hposition.1

/-- A lane claims an ordinary call. -/
theorem Sound.dispatched (h : Sound calls terminalName s) {lane index : Nat} {phase : BatchPhase}
    (hlive : s.aborted = false) (hnext : s.batch.ordinary[s.batch.cursor]? = some index)
    (henters : Enters s.batch lane phase) :
    Sound calls terminalName
      { s with
        batch := { s.batch with
          cursor := s.batch.cursor + 1
          lanes := s.batch.lanes.set lane (.running index)
          phase }
        history := s.history ++ [.started index] } := by
  obtain ⟨opened, hstarted, hposition⟩ := h.position
  have hfresh := h.fresh_ordinary hnext
  obtain ⟨⟨x, hx, hbusy, hidle⟩, hposition'⟩ := h.position_enter
    (t := { s with
      batch := { s.batch with
        cursor := s.batch.cursor + 1
        lanes := s.batch.lanes.set lane (.running index)
        phase }
      history := s.history ++ [.started index] })
    hposition henters (y := .running index) nofun rfl rfl ⟨rfl, rfl, rfl⟩
  refine { calls_eq := h.calls_eq, terminalName_eq := h.terminalName_eq,
           aborted := h.aborted_append nofun,
           crewed := h.crewed.claim hnext (h.unsettled_of_fresh hfresh) hx hidle,
           slotted := { h.slotted with completed := h.slotted.started },
           position := ⟨opened, ?_, hposition'⟩, chronicle := h.chronicle.snoc ?_ }
  · show started (s.history ++ [BatchItem.started index]) =
      s.batch.ordinary.take (s.batch.cursor + 1) ++ s.batch.terminal.take opened
    rw [started_append, hstarted, take_cursor_succ hnext, h.unopened hlive hposition hx hbusy]
    simp [BatchItem.started?]
  · refine ⟨h.not_aborted hlive, hfresh, fun hterminal => ?_⟩
    have hordinary := List.mem_of_getElem? hnext
    rw [Batch.ordinary, h.calls_eq, h.terminalName_eq] at hordinary
    exact absurd hterminal (not_terminal_of_ordinary hordinary)

/-- A lane ends. -/
theorem Sound.retired (h : Sound calls terminalName s) {lane : Nat} {phase : BatchPhase} {x : Lane}
    (hx : s.batch.lanes[lane]? = some x) (hidle : ∀ i, x ≠ .running i)
    (hend : s.aborted = true ∨ s.batch.ordinary.length ≤ s.batch.cursor) {opened : Nat}
    (hstarted : started s.history =
      s.batch.ordinary.take s.batch.cursor ++ s.batch.terminal.take opened)
    (hposition : Position
      { s with batch := { s.batch with lanes := s.batch.lanes.set lane .done, phase } }
      opened phase) :
    Sound calls terminalName
      { s with batch := { s.batch with lanes := s.batch.lanes.set lane .done, phase } } := by
  have hruns : ∀ {l i : Nat}, Runs _ l i ↔ _ := fun {l i} =>
    runs_set (t := { s with batch := { s.batch with lanes := s.batch.lanes.set lane .done, phase } })
      (l := l) (i := i) hx rfl
  -- what runs has run before: the lane that ends had no call
  have hold : ∀ {l i : Nat}, Runs { s.batch with lanes := s.batch.lanes.set lane .done, phase } l i ↔
      Runs s.batch l i := by
    intro l i
    rw [hruns]
    by_cases hl : l = lane
    · subst hl
      rw [if_pos rfl, Runs, hx, Option.some.injEq]
      exact ⟨nofun, fun heq => absurd heq (hidle i)⟩
    · rw [if_neg hl]
  refine { calls_eq := h.calls_eq, terminalName_eq := h.terminalName_eq, aborted := h.aborted,
           crewed := ?_, slotted := { h.slotted with }, position := ⟨opened, hstarted, hposition⟩,
           chronicle := h.chronicle }
  refine { length := (List.length_set ..).trans h.crewed.length, running := ?_, distinct := ?_,
           claimed := ?_, stopped := ?_, finished := fun _ => hend }
  · intro l i hl
    exact h.crewed.running l i (hold.mp hl)
  · intro l l' i hl hl'
    exact h.crewed.distinct l l' i (hold.mp hl) (hold.mp hl')
  · intro i hi
    rcases h.crewed.claimed i hi with hsettled | hdropped | ⟨l, hl⟩
    · exact Or.inl hsettled
    · exact Or.inr (Or.inl hdropped)
    · exact Or.inr (Or.inr ⟨l, hold.mpr hl⟩)
  · intro hmem
    exact h.crewed.stopped (mem_set_lane (t := { s with batch := { s.batch with lanes := _ } })
      rfl hmem nofun)

/-- The slot of a call is filled. -/
theorem Slotted.fill (h : Slotted s) {index : Nat} {call : ToolUseBlock} {result : ToolCallResult}
    (hcall : s.batch.calls[index]? = some call) (hid : result.toolUseId = call.toolUseId)
    (hempty : ¬ Settled s.batch index) (lanes : List Lane) (phase : BatchPhase) :
    Slotted
      { s with
        batch := { s.batch with settled := s.batch.settled.set index (some result), lanes, phase }
        history := s.history ++ [.completed index result] } := by
  have hlt : index < s.batch.settled.length := by
    rw [h.length]
    exact (List.getElem?_eq_some_iff.mp hcall).1
  refine { length := (List.length_set ..).trans h.length, completed := ?_, paired := ?_ }
  · intro i other
    show BatchItem.completed i other ∈ s.history ++ [BatchItem.completed index result] ↔
      (s.batch.settled.set index (some result))[i]? = some (some other)
    rw [List.mem_append, List.mem_singleton, h.completed, List.getElem?_set]
    by_cases hi : index = i
    · subst hi
      rw [if_pos rfl, if_pos hlt, Option.some.injEq, Option.some.injEq]
      constructor
      · rintro (hold | heq)
        · exact absurd ⟨other, hold⟩ hempty
        · cases heq
          rfl
      · rintro rfl
        exact Or.inr rfl
    · rw [if_neg hi]
      constructor
      · rintro (hold | heq)
        · exact hold
        · cases heq
          exact absurd rfl hi
      · exact Or.inl
  · intro i other call' hother hcall'
    replace hother : (s.batch.settled.set index (some result))[i]? = some (some other) := hother
    rw [List.getElem?_set] at hother
    by_cases hi : index = i
    · subst hi
      rw [if_pos rfl, if_pos hlt, Option.some.injEq, Option.some.injEq] at hother
      rw [show s.batch.calls[index]? = some call' from hcall', Option.some.injEq] at hcall
      rw [← hother, hcall, hid]
    · rw [if_neg hi] at hother
      exact h.paired i other call' hother hcall'

theorem executeCall_toolUseId {call : ToolUseBlock} {outcome : Except String PipelineResult}
    {instant : Nat} : (executeCall tools call outcome instant).toolUseId = call.toolUseId := by
  unfold executeCall
  split
  · cases outcome <;> rfl
  · rfl

theorem settled_fill {index : Nat} {result : ToolCallResult} {b : Batch} {lanes : List Lane}
    {phase : BatchPhase} (hlt : index < b.settled.length) {i : Nat} :
    Settled { b with settled := b.settled.set index (some result), lanes, phase } i ↔
      i = index ∨ Settled b i := by
  unfold Settled
  rw [List.getElem?_set]
  by_cases hi : index = i
  · subst hi
    rw [if_pos rfl, if_pos hlt]
    exact ⟨fun _ => Or.inl rfl, fun _ => ⟨result, rfl⟩⟩
  · rw [if_neg hi]
    constructor
    · exact Or.inr
    · rintro (rfl | hold)
      · exact absurd rfl hi
      · exact hold

/-- The call of a lane leaves it for its slot. -/
theorem Crewed.fill (h : Crewed s) {lane index : Nat} {result : ToolCallResult}
    (hlane : Runs s.batch lane index) (hlt : index < s.batch.settled.length) :
    Crewed
      { s with
        batch := { s.batch with
          settled := s.batch.settled.set index (some result)
          lanes := s.batch.lanes.set lane (.returning true) }
        history := s.history ++ [.completed index result] } := by
  have hruns : ∀ {l i : Nat}, Runs _ l i ↔ _ := fun {l i} =>
    runs_set (t := { s with
      batch := { s.batch with
        settled := s.batch.settled.set index (some result)
        lanes := s.batch.lanes.set lane (.returning true) }
      history := s.history ++ [.completed index result] }) (l := l) (i := i) hlane rfl
  refine { length := (List.length_set ..).trans h.length, running := ?_, distinct := ?_,
           claimed := ?_, stopped := ?_, finished := ?_ }
  · intro l i hl
    rw [hruns] at hl
    split at hl
    · cases hl
    · next hne =>
      refine ⟨(h.running l i hl).1, fun hsettled => ?_⟩
      rcases (settled_fill hlt).mp hsettled with rfl | hold
      · exact hne (h.distinct l lane i hl hlane)
      · exact (h.running l i hl).2 hold
  · intro l l' i hl hl'
    rw [hruns] at hl hl'
    split at hl
    · cases hl
    · split at hl'
      · cases hl'
      · exact h.distinct l l' i hl hl'
  · intro i hi
    by_cases heq : i = index
    · exact Or.inl ((settled_fill hlt).mpr (Or.inl heq))
    · rcases h.claimed i hi with hsettled | hdropped | ⟨l, hl⟩
      · exact Or.inl ((settled_fill hlt).mpr (Or.inr hsettled))
      · exact Or.inr (Or.inl (List.mem_append_left _ hdropped))
      · refine Or.inr (Or.inr ⟨l, hruns.mpr ?_⟩)
        rw [if_neg]
        · exact hl
        · rintro rfl
          rw [Runs, show s.batch.lanes[l]? = _ from hlane, Option.some.injEq] at hl
          cases hl
          exact heq rfl
  · intro hmem
    exact h.stopped (mem_set_lane (t := { s with batch := { s.batch with lanes := _ } })
      rfl hmem nofun)
  · intro hmem
    exact h.finished (mem_set_lane (t := { s with batch := { s.batch with lanes := _ } })
      rfl hmem nofun)

/-- The call of a lane settles in time. -/
theorem Sound.completed (h : Sound calls terminalName s) {lane index : Nat} {call : ToolUseBlock}
    {result : ToolCallResult} (hlive : s.aborted = false) (hlane : Runs s.batch lane index)
    (hcall : s.batch.calls[index]? = some call) (hid : result.toolUseId = call.toolUseId) :
    Sound calls terminalName
      { s with
        batch := { s.batch with
          settled := s.batch.settled.set index (some result)
          lanes := s.batch.lanes.set lane (.returning true) }
        history := s.history ++ [.completed index result] } := by
  obtain ⟨opened, hstarted, hposition⟩ := h.position
  obtain ⟨hclaimed, hempty⟩ := h.crewed.running lane index hlane
  have hlt : index < s.batch.settled.length := by
    rw [h.slotted.length]
    exact (List.getElem?_eq_some_iff.mp hcall).1
  refine { calls_eq := h.calls_eq, terminalName_eq := h.terminalName_eq,
           aborted := h.aborted_append nofun, crewed := h.crewed.fill hlane hlt,
           slotted := h.slotted.fill hcall hid hempty _ _,
           position := ⟨opened, ?_, ?_⟩, chronicle := h.chronicle.snoc ?_ }
  · show started (s.history ++ [BatchItem.completed index result]) = _
    rw [started_append, hstarted]
    exact List.append_nil _
  · refine h.position_set hposition hlane nofun nofun (y := .returning true) nofun rfl rfl ?_
    intro haborted
    rw [hlive] at haborted
    cases haborted
  · refine ⟨h.not_aborted hlive, ?_, fun hcompleted => hempty (h.slotted.settled_iff.mpr hcompleted)⟩
    rw [hstarted]
    exact List.mem_append_left _ hclaimed

/-- The call of a lane settles after the abort: its result is dropped. -/
theorem Sound.dropped (h : Sound calls terminalName s) {lane index : Nat}
    (haborted : s.aborted = true) (hlane : Runs s.batch lane index) :
    Sound calls terminalName
      { s with
        batch := { s.batch with lanes := s.batch.lanes.set lane (.returning false) }
        history := s.history ++ [.dropped index] } := by
  obtain ⟨opened, hstarted, hposition⟩ := h.position
  have hruns : ∀ {l i : Nat}, Runs _ l i ↔ _ := fun {l i} =>
    runs_set (t := { s with
      batch := { s.batch with lanes := s.batch.lanes.set lane (.returning false) }
      history := s.history ++ [.dropped index] }) (l := l) (i := i) hlane rfl
  refine { calls_eq := h.calls_eq, terminalName_eq := h.terminalName_eq,
           aborted := h.aborted_append nofun, crewed := ?_,
           slotted := { h.slotted with completed := ?_ },
           position := ⟨opened, ?_, ?_⟩, chronicle := h.chronicle.snoc ?_ }
  · refine { length := (List.length_set ..).trans h.crewed.length, running := ?_, distinct := ?_,
             claimed := ?_, stopped := fun _ => haborted, finished := fun _ => Or.inl haborted }
    · intro l i hl
      rw [hruns] at hl
      split at hl
      · cases hl
      · exact h.crewed.running l i hl
    · intro l l' i hl hl'
      rw [hruns] at hl hl'
      split at hl
      · cases hl
      · split at hl'
        · cases hl'
        · exact h.crewed.distinct l l' i hl hl'
    · intro i hi
      by_cases heq : i = index
      · exact Or.inr (Or.inl (by rw [heq]; simp))
      · rcases h.crewed.claimed i hi with hsettled | hdropped | ⟨l, hl⟩
        · exact Or.inl hsettled
        · exact Or.inr (Or.inl (List.mem_append_left _ hdropped))
        · refine Or.inr (Or.inr ⟨l, hruns.mpr ?_⟩)
          rw [if_neg]
          · exact hl
          · rintro rfl
            rw [Runs, show s.batch.lanes[l]? = _ from hlane, Option.some.injEq] at hl
            cases hl
            exact heq rfl
  · intro i result
    rw [← h.slotted.completed]
    simp
  · show started (s.history ++ [BatchItem.dropped index]) = _
    rw [started_append, hstarted]
    exact List.append_nil _
  · exact h.position_set hposition hlane nofun nofun (y := .returning false) nofun rfl rfl
      fun _ => ⟨rfl, rfl, rfl⟩
  · refine ⟨h.aborted.mpr haborted, ?_⟩
    rw [hstarted]
    exact List.mem_append_left _ (h.crewed.running lane index hlane).1

/-! ## The blocks of `executeBatch` itself -/

/-- Before a terminal call the lanes are calm and the earlier terminal calls have settled. -/
theorem Sound.turn (h : Sound calls terminalName s) {position opened : Nat}
    (hposition : Position s opened s.batch.phase) (hturn : Turn s position) :
    opened = position ∧ .fresh ∉ s.batch.lanes ∧ Calm s ∧
      (s.aborted = true ∨ ∀ i ∈ s.batch.terminal.take position, Settled s.batch i) := by
  rcases hturn with ⟨hphase, rfl, hready⟩ | ⟨p, hphase, rfl⟩
  · rw [hphase] at hposition
    refine ⟨hposition.1, hposition.2, ?_, Or.inr (by simp)⟩
    rcases hready with hdone | haborted
    · by_cases hlanes : s.batch.lanes = []
      · refine Or.inr ⟨hdone, ?_⟩
        have hlength := h.crewed.length
        rw [hlanes, List.length_nil, maxToolConcurrency] at hlength
        omega
      · obtain ⟨lane, hlane⟩ := List.exists_mem_of_ne_nil _ hlanes
        rcases h.crewed.finished (hdone lane hlane ▸ hlane) with haborted | hcursor
        · exact Or.inl haborted
        · exact Or.inr ⟨hdone, hcursor⟩
    · exact Or.inl haborted
  · rw [hphase] at hposition
    obtain ⟨hopened, hfresh, hcalm, hsettled⟩ := hposition
    exact ⟨hopened, hfresh, hcalm, hsettled.imp_right And.right⟩

/-- A block that leaves lanes and slots alone. -/
theorem Sound.advance (h : Sound calls terminalName s) {phase : BatchPhase} {opened : Nat}
    (hstarted : started s.history =
      s.batch.ordinary.take s.batch.cursor ++ s.batch.terminal.take opened)
    (hposition : Position { s with batch := { s.batch with phase } } opened phase) :
    Sound calls terminalName { s with batch := { s.batch with phase } } :=
  { calls_eq := h.calls_eq, terminalName_eq := h.terminalName_eq, aborted := h.aborted,
    crewed := { h.crewed with }, slotted := { h.slotted with },
    position := ⟨opened, hstarted, hposition⟩, chronicle := h.chronicle }

/-- The next terminal call is dispatched. -/
theorem Sound.submitted (h : Sound calls terminalName s) {position index : Nat}
    (hlive : s.aborted = false) (hturn : Turn s position)
    (hnext : s.batch.terminal[position]? = some index) :
    Sound calls terminalName
      { s with
        batch := { s.batch with phase := .terminalRunning position }
        history := s.history ++ [.started index] } := by
  obtain ⟨opened, hstarted, hposition⟩ := h.position
  obtain ⟨rfl, hnofresh, hcalm, hsettled⟩ := h.turn hposition hturn
  have hfresh := fresh_terminal hstarted hnext
  have hbefore := hsettled.resolve_left (by rw [hlive]; exact nofun)
  refine { calls_eq := h.calls_eq, terminalName_eq := h.terminalName_eq,
           aborted := h.aborted_append nofun, crewed := { h.crewed with claimed := ?_ },
           slotted := { h.slotted with completed := h.slotted.started },
           position := ⟨opened + 1, ?_, rfl, hnofresh, hcalm, ⟨index, hnext, ?_⟩, Or.inr hbefore⟩,
           chronicle := h.chronicle.snoc ⟨h.not_aborted hlive, hfresh, fun _ => ⟨?_, ?_⟩⟩ }
  · intro i hi
    exact (h.crewed.claimed i hi).imp_right (Or.imp_left (List.mem_append_left _))
  · show started (s.history ++ [BatchItem.started index]) =
      s.batch.ordinary.take s.batch.cursor ++ s.batch.terminal.take (opened + 1)
    rw [started_append, hstarted, List.take_add_one, hnext, List.append_assoc]
    rfl
  · exact h.unsettled_of_fresh hfresh
  · intro i hi
    rw [← h.calls_eq, ← h.terminalName_eq] at hi
    exact h.slotted.settled_iff.mp (h.settled_of_calm hlive hcalm i hi)
  · intro i hi hlt
    rw [← h.calls_eq, ← h.terminalName_eq] at hi
    exact h.slotted.settled_iff.mp (hbefore i (mem_take_of_lt terminalCalls_sorted hnext hi hlt))

/-- The loop over the terminal calls is over. -/
theorem Sound.finishedAll (h : Sound calls terminalName s) {position : Nat} (instant : Nat)
    (hturn : Turn s position) (hend : s.aborted = true ∨ s.batch.terminal.length ≤ position) :
    Sound calls terminalName
      { s with batch := { s.batch with phase := .returned (s.batch.results instant) } } := by
  obtain ⟨opened, hstarted, hposition⟩ := h.position
  obtain ⟨-, hfresh, hcalm, hsettled⟩ := h.turn hposition hturn
  refine h.advance hstarted ⟨hfresh, hcalm, ⟨instant, rfl⟩, ?_⟩
  rcases hend with haborted | hlength
  · exact Or.inl haborted
  · rwa [List.take_of_length_le hlength] at hsettled

/-- A terminal call settles in time. -/
theorem Sound.completedTerminal (h : Sound calls terminalName s) {position index : Nat}
    {call : ToolUseBlock} {result : ToolCallResult} (hlive : s.aborted = false)
    (hphase : s.batch.phase = .terminalRunning position)
    (hnext : s.batch.terminal[position]? = some index)
    (hcall : s.batch.calls[index]? = some call) (hid : result.toolUseId = call.toolUseId) :
    Sound calls terminalName
      { s with
        batch := { s.batch with
          settled := s.batch.settled.set index (some result)
          phase := .terminalReturning position true }
        history := s.history ++ [.completed index result] } := by
  obtain ⟨opened, hstarted, hposition⟩ := h.position
  rw [hphase] at hposition
  obtain ⟨rfl, hfresh, hcalm, ⟨index', hindex', hempty⟩, hsettled⟩ := hposition
  rw [hnext, Option.some.injEq] at hindex'
  subst hindex'
  have hbefore := hsettled.resolve_left (by rw [hlive]; exact nofun)
  have hdone := hcalm.resolve_left (by rw [hlive]; exact nofun)
  have hlt : index < s.batch.settled.length := by
    rw [h.slotted.length]
    exact (List.getElem?_eq_some_iff.mp hcall).1
  have hidle : ∀ {l i : Nat}, ¬ Runs s.batch l i := fun hl => by
    cases hdone.1 _ (List.mem_of_getElem? hl)
  refine { calls_eq := h.calls_eq, terminalName_eq := h.terminalName_eq,
           aborted := h.aborted_append nofun,
           crewed := { h.crewed with running := ?_, claimed := ?_ },
           slotted := h.slotted.fill hcall hid hempty _ _,
           position := ⟨position + 1, ?_, rfl, hfresh, hcalm, Or.inr ⟨rfl, ?_⟩⟩,
           chronicle := h.chronicle.snoc ⟨h.not_aborted hlive, ?_, fun hcompleted =>
             hempty (h.slotted.settled_iff.mpr hcompleted)⟩ }
  · intro l i hl
    exact absurd hl hidle
  · intro i hi
    rcases h.crewed.claimed i hi with hold | hdropped | ⟨l, hl⟩
    · exact Or.inl ((settled_fill hlt).mpr (Or.inr hold))
    · exact Or.inr (Or.inl (List.mem_append_left _ hdropped))
    · exact absurd hl hidle
  · show started (s.history ++ [BatchItem.completed index result]) = _
    rw [started_append, hstarted]
    exact List.append_nil _
  · intro i hi
    replace hi : i ∈ s.batch.terminal.take (position + 1) := hi
    rw [List.take_add_one, hnext, List.mem_append] at hi
    rcases hi with hi | hi
    · exact (settled_fill hlt).mpr (Or.inr (hbefore i hi))
    · exact (settled_fill hlt).mpr (Or.inl (List.mem_singleton.mp hi))
  · rw [hstarted, List.mem_append, List.take_add_one, hnext]
    exact Or.inr (List.mem_append_right _ (List.mem_singleton.mpr rfl))

/-- A terminal call settles after the abort: its result is dropped. -/
theorem Sound.droppedTerminal (h : Sound calls terminalName s) {position index : Nat}
    (haborted : s.aborted = true) (hphase : s.batch.phase = .terminalRunning position)
    (hnext : s.batch.terminal[position]? = some index) :
    Sound calls terminalName
      { s with
        batch := { s.batch with phase := .terminalReturning position false }
        history := s.history ++ [.dropped index] } := by
  obtain ⟨opened, hstarted, hposition⟩ := h.position
  rw [hphase] at hposition
  obtain ⟨rfl, hfresh, -, -, -⟩ := hposition
  refine { calls_eq := h.calls_eq, terminalName_eq := h.terminalName_eq,
           aborted := h.aborted_append nofun, crewed := { h.crewed with claimed := ?_ },
           slotted := { h.slotted with completed := ?_ },
           position := ⟨position + 1, ?_, rfl, hfresh, Or.inl haborted, Or.inl haborted⟩,
           chronicle := h.chronicle.snoc ⟨h.aborted.mpr haborted, ?_⟩ }
  · intro i hi
    exact (h.crewed.claimed i hi).imp_right (Or.imp_left (List.mem_append_left _))
  · intro i result
    rw [← h.slotted.completed]
    simp
  · show started (s.history ++ [BatchItem.dropped index]) = _
    rw [started_append, hstarted]
    exact List.append_nil _
  · rw [hstarted, List.mem_append, List.take_add_one, hnext]
    exact Or.inr (List.mem_append_right _ (List.mem_singleton.mpr rfl))

/-- The signal aborts. -/
theorem Sound.abort (h : Sound calls terminalName s) (hlive : s.aborted = false) :
    Sound calls terminalName { s with aborted := true, history := s.history ++ [.aborted] } := by
  obtain ⟨opened, hstarted, hposition⟩ := h.position
  refine { calls_eq := h.calls_eq, terminalName_eq := h.terminalName_eq, aborted := by simp,
           crewed := { h.crewed with claimed := ?_, stopped := fun _ => rfl,
                                     finished := fun _ => Or.inl rfl },
           slotted := { h.slotted with completed := ?_ }, position := ⟨opened, ?_, ?_⟩,
           chronicle := h.chronicle.snoc (h.not_aborted hlive) }
  · intro i hi
    exact (h.crewed.claimed i hi).imp_right (Or.imp_left (List.mem_append_left _))
  · intro i result
    rw [← h.slotted.completed]
    simp
  · show started (s.history ++ [BatchItem.aborted]) = _
    rw [started_append, hstarted]
    exact List.append_nil _
  · show Position _ opened s.batch.phase
    cases hphase : s.batch.phase with
    | starting lane => rw [hphase] at hposition; exact hposition
    | racing => rw [hphase] at hposition; exact hposition
    | terminalRunning position =>
      rw [hphase] at hposition
      obtain ⟨hopened, hfresh, -, hindex, -⟩ := hposition
      exact ⟨hopened, hfresh, Or.inl rfl, hindex, Or.inl rfl⟩
    | terminalReturning position more =>
      rw [hphase] at hposition
      exact ⟨hposition.1, hposition.2.1, Or.inl rfl, Or.inl rfl⟩
    | returned results =>
      rw [hphase] at hposition
      exact ⟨hposition.1, Or.inl rfl, hposition.2.2.1, Or.inl rfl⟩

end Blocks

/-! ## Every run -/

theorem sound_initial (calls : List ToolUseBlock) (terminalName : Option String) (aborted : Bool) :
    Sound calls terminalName (BatchRun.initial calls terminalName aborted) := by
  -- no slot is filled and no lane has a call
  have hsettled : ∀ i, ¬ Settled (.start calls terminalName) i := by
    rintro i ⟨result, hi⟩
    have := List.eq_of_mem_replicate (List.mem_of_getElem? hi)
    cases this
  have hlanes : ∀ lane ∈ (Batch.start calls terminalName).lanes, lane = .fresh := fun lane hlane =>
    List.eq_of_mem_replicate hlane
  have hruns : ∀ {l i : Nat}, ¬ Runs (.start calls terminalName) l i := fun hl => by
    cases hlanes _ (List.mem_of_getElem? hl)
  have hhistory : ∀ item ∈ (BatchRun.initial calls terminalName aborted).history,
      item = .aborted := by
    intro item hitem
    cases aborted with
    | false => cases hitem
    | true => exact List.mem_singleton.mp hitem
  refine { calls_eq := rfl, terminalName_eq := rfl, aborted := ?_, crewed := ?_, slotted := ?_,
           position := ⟨0, ?_, ?_⟩, chronicle := ?_ }
  · cases aborted <;> simp [BatchRun.initial]
  · refine { length := List.length_replicate, running := ?_, distinct := ?_, claimed := ?_,
             stopped := ?_, finished := ?_ }
    · intro l i hl
      exact absurd hl hruns
    · intro l l' i hl
      exact absurd hl hruns
    · intro i hi
      cases hi
    · intro hmem
      cases hlanes _ hmem
    · intro hmem
      cases hlanes _ hmem
  · refine { length := List.length_replicate, completed := ?_, paired := ?_ }
    · intro i result
      constructor
      · intro hmem
        cases hhistory _ hmem
      · intro hi
        exact absurd ⟨result, hi⟩ (hsettled i)
    · intro i result call hi
      exact absurd ⟨result, hi⟩ (hsettled i)
  · cases aborted <;> rfl
  · show Position _ 0 (if min maxToolConcurrency (ordinaryCalls calls terminalName).length = 0
      then .racing else .starting 0)
    split
    · next hnone =>
      refine ⟨rfl, fun hmem => ?_⟩
      -- without ordinary calls there is no lane
      have hlength := List.length_pos_of_mem hmem
      rw [show (BatchRun.initial calls terminalName aborted).batch.lanes.length = _ from
        List.length_replicate] at hlength
      omega
    · next hsome =>
      have hlength : (BatchRun.initial calls terminalName aborted).batch.lanes.length =
          min maxToolConcurrency (ordinaryCalls calls terminalName).length := List.length_replicate
      refine ⟨rfl, by omega, fun l => ?_⟩
      rw [hlength]
      show (List.replicate _ _)[l]? = _ ↔ _
      rw [List.getElem?_replicate]
      -- every lane is fresh, the first one included
      by_cases hl : l < min maxToolConcurrency (ordinaryCalls calls terminalName).length
      · rw [if_pos hl]
        exact ⟨fun _ => ⟨Nat.zero_le l, hl⟩, fun _ => rfl⟩
      · rw [if_neg hl]
        exact ⟨nofun, fun h => absurd h.2 hl⟩
  · cases aborted with
    | false => exact Chronicle.nil
    | true => exact Chronicle.nil.snoc (by simp [Admissible])

/-- **Every block of `executeBatch` preserves the invariant.** -/
theorem sound_step {s t : BatchRun} (h : Sound calls terminalName s) (hstep : Stepped tools s t) :
    Sound calls terminalName t := by
  cases hstep with
  | dispatched lane index phase hlive hnext henters => exact h.dispatched hlive hnext henters
  | finished lane phase hend henters =>
    obtain ⟨opened, hstarted, hposition⟩ := h.position
    obtain ⟨⟨x, hx, -, hidle⟩, hposition'⟩ := h.position_enter
      (t := { s with batch := { s.batch with lanes := s.batch.lanes.set lane .done, phase } })
      hposition henters (y := .done) nofun rfl rfl ⟨rfl, rfl, rfl⟩
    exact h.retired hx hidle hend hstarted hposition'
  | completed lane index call outcome instant hlive hlane hcall =>
    exact h.completed hlive hlane hcall executeCall_toolUseId
  | dropped lane index haborted hlane => exact h.dropped haborted hlane
  | stopped lane hlane =>
    obtain ⟨opened, hstarted, hposition⟩ := h.position
    have haborted := h.crewed.stopped (List.mem_of_getElem? hlane)
    exact h.retired hlane nofun (Or.inl haborted) hstarted
      (h.position_set hposition hlane nofun nofun (y := .done) nofun rfl rfl
        fun _ => ⟨rfl, rfl, rfl⟩)
  | submitted position index hlive hturn hnext => exact h.submitted hlive hturn hnext
  | finishedAll position instant hturn hend => exact h.finishedAll instant hturn hend
  | completedTerminal position index call outcome instant hlive hphase hnext hcall =>
    exact h.completedTerminal hlive hphase hnext hcall executeCall_toolUseId
  | droppedTerminal position index haborted hphase hnext =>
    exact h.droppedTerminal haborted hphase hnext
  | cut position instant hphase =>
    obtain ⟨opened, hstarted, hposition⟩ := h.position
    rw [hphase] at hposition
    obtain ⟨-, hfresh, hcalm, hsettled⟩ := hposition
    refine h.advance hstarted ⟨hfresh, hcalm, ⟨instant, rfl⟩, ?_⟩
    rcases hsettled with haborted | ⟨hmore, -⟩
    · exact Or.inl haborted
    · cases hmore
  | aborted hlive => exact h.abort hlive

theorem sound_of_run {aborted : Bool} {ls : List BatchRunLabel} {s : BatchRun}
    (run : Run (BatchRun.step tools) Free (.initial calls terminalName aborted) ls s) :
    Sound calls terminalName s :=
  run.invariant (sound_initial calls terminalName aborted) fun _ _ _ _ h hstep =>
    sound_step h (stepped_of_step hstep)

end EphemeralAgent.Tool
