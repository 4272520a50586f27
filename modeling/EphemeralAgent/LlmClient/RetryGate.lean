import EphemeralAgent.LlmClient.Retry

/-!
# The retry gate holds

The history of `retryStream` under every consumer, every sequence of attempts and every abort.

* `Moved` / `moved_of_step` — what one synchronous block can do
* `Gate` / `gate_step` — the invariant: where the generator is suspended says which attempts the
  history holds, what has been forwarded and how it may have ended
* `retry_gate` — the contract of `retryStream`
-/

namespace EphemeralAgent.LlmClient

variable {E : Type*}

namespace Item

/-- The attempt that an item starts. -/
def started? : Item E → Option Nat
  | .started attemptIndex => some attemptIndex
  | _ => none

/-- The item forwards a visible event of this attempt. -/
def Shows (attemptIndex : Nat) (item : Item E) : Prop :=
  ∃ event, item = .forwarded attemptIndex event ∧ isVisible event = true

/-- After this item no attempt may start. -/
def Bars (item : Item E) : Prop :=
  (∃ i, item.Shows i) ∨ ∃ reason, item = .aborted reason

end Item

/-- The attempts that a history has started, in order. -/
def starts (history : List (Item E)) : List Nat :=
  history.filterMap Item.started?

/-- The last attempt that a history has started. -/
def lastAttempt (history : List (Item E)) : Option Nat :=
  (starts history).getLast?

/-- Why an error of attempt `i` is thrown, judged by what had happened before it. -/
def Final (cfg : RetryConfig) (before : List (Item E)) (i : Nat) (error : Thrown E) : Prop :=
  error.retryable cfg = false ∨ (∃ j, ∃ item ∈ before, item.Shows j) ∨ cfg.maxRetries ≤ i ∨
    ∃ reason, .aborted reason ∈ before

/-- Attempt `i` is the last one, and it has failed with `error` for good. -/
def FailedFinally (cfg : RetryConfig) (history : List (Item E)) (i : Nat) (error : Thrown E) :
    Prop :=
  lastAttempt history = some i ∧
    ∃ before after, history = before ++ .failed i error :: after ∧ Final cfg before i error

/-- The attempt that the generator is working on. -/
def Phase.attempt? : Phase E → Option Nat
  | .streaming i | .yielded i | .sleeping i | .retrying i => some i
  | _ => none

/-! ## What one block can do -/

/-- The ways a step can go. -/
inductive Moved (cfg : RetryConfig) (s : State E) : State E → Prop
  /-- A new attempt starts: the first one, or the one after attempt `i - 1`. -/
  | began (i : Nat) (hphase : s.phase = .created ∧ i = 0 ∨ ∃ j, s.phase = .retrying j ∧ i = j + 1)
      (hlive : s.signal.reason = none) :
      Moved cfg s { s.note (.started i) with phase := .streaming i }
  /-- `throwIfAborted` throws. -/
  | refused (reason : Thrown E) (hreason : s.signal.reason = some reason)
      (hphase : s.phase.attempt? ≠ none ∨ s.phase = .created) :
      Moved cfg s { s with phase := .threw reason }
  | pulled (i : Nat) (hphase : s.phase = .yielded i) : Moved cfg s { s with phase := .streaming i }
  | forwarded (i : Nat) (event : LlmStreamEvent) (hphase : s.phase = .streaming i) :
      Moved cfg s (s.forward i event)
  | ended (i : Nat) (hphase : s.phase = .streaming i) :
      Moved cfg s { s.note (.ended i) with phase := .returned }
  /-- The attempt fails, and its error is thrown. -/
  | threw (i : Nat) (error : Thrown E) (hphase : s.phase.attempt? = some i)
      (hfinal : error.retryable cfg = false ∨ s.emittedVisible = true ∨ cfg.maxRetries ≤ i ∨
        ∃ reason, s.signal.reason = some reason) :
      Moved cfg s { s.note (.failed i error) with phase := .threw error }
  /-- The attempt fails, and another one may follow. -/
  | failed (i : Nat) (error : Thrown E) (phase : Phase E) (hphase : s.phase.attempt? = some i)
      (hnext : phase = .sleeping i ∨ phase = .retrying i) (hinvisible : s.emittedVisible = false)
      (hbudget : i < cfg.maxRetries) :
      Moved cfg s { s.note (.failed i error) with phase := phase }
  | woke (i : Nat) (hphase : s.phase = .sleeping i) : Moved cfg s { s with phase := .retrying i }
  | closed (hphase : s.phase = .created ∨ ∃ i, s.phase = .yielded i) :
      Moved cfg s { s with phase := .closed }
  | aborted (reason : Thrown E) (hsignal : s.signal = .live) :
      Moved cfg s { s.note (.aborted reason) with signal := .aborted reason }

theorem moved_of_enter {cfg : RetryConfig} {s : State E} {i : Nat}
    (h : s.phase = .created ∧ i = 0 ∨ ∃ j, s.phase = .retrying j ∧ i = j + 1) :
    Moved cfg s (s.enter i) := by
  unfold State.enter State.throwIfAborted
  split
  · next reason hreason =>
    refine .refused reason hreason ?_
    rcases h with ⟨hphase, -⟩ | ⟨j, hphase, -⟩
    · exact Or.inr hphase
    · exact Or.inl (by rw [hphase]; simp [Phase.attempt?])
  · next hlive => exact .began i h hlive

theorem moved_of_caught {cfg : RetryConfig} {s : State E} {i : Nat} {error : Thrown E}
    (h : s.phase.attempt? = some i) :
    Moved cfg s ((s.note (.failed i error)).caught cfg i error) := by
  unfold State.caught
  split
  · next reason hreason => exact .threw i error h (Or.inr (Or.inr (Or.inr ⟨reason, hreason⟩)))
  · next hlive =>
    split
    · next hstop =>
      refine .threw i error h (Or.inr ?_)
      rcases hstop with hvisible | hbudget
      · exact Or.inl hvisible
      · exact Or.inr (Or.inl hbudget)
    · next hgo =>
      rw [not_or, not_le, Bool.not_eq_true] at hgo
      cases error with
      | other value => exact .threw i (.other value) h (Or.inl rfl)
      | provider error =>
        dsimp only
        split
        · unfold State.backoff
          split
          · exact .failed i _ _ h (Or.inl rfl) hgo.1 hgo.2
          · rw [State.throwIfAborted, hlive]
            exact .failed i _ _ h (Or.inr rfl) hgo.1 hgo.2
        · next hretryable =>
          exact .threw i (.provider error) h (Or.inl (by simpa [Thrown.retryable] using hretryable))

theorem moved_of_step {cfg : RetryConfig} {s t : State E} {l : Label E}
    (h : step cfg s l = some t) : Moved cfg s t := by
  cases l with
  | next =>
    simp only [step] at h
    split at h
    · next hphase => cases h; exact moved_of_enter (Or.inl ⟨hphase, rfl⟩)
    · next i hphase => cases h; exact .pulled i hphase
    · cases h
  | close =>
    simp only [step] at h
    split at h
    · next hphase => cases h; exact .closed (Or.inl hphase)
    · next i hphase => cases h; exact .closed (Or.inr ⟨i, hphase⟩)
    · cases h
  | event event =>
    simp only [step] at h
    split at h
    · next i hphase => cases h; exact .forwarded i event hphase
    · cases h
  | finish =>
    simp only [step] at h
    split at h
    · next i hphase => cases h; exact .ended i hphase
    · cases h
  | fail error =>
    simp only [step] at h
    split at h
    · next i hphase => cases h; exact moved_of_caught (by rw [hphase]; rfl)
    · next i hphase => cases h; exact moved_of_caught (by rw [hphase]; rfl)
    · cases h
  | wake =>
    simp only [step] at h
    split at h
    · next i hphase =>
      cases h
      unfold State.throwIfAborted
      split
      · next reason hreason =>
        exact .refused reason hreason (Or.inl (by rw [hphase]; simp [Phase.attempt?]))
      · exact .woke i hphase
    · cases h
  | resume =>
    simp only [step] at h
    split at h
    · next i hphase => cases h; exact moved_of_enter (Or.inr ⟨i, hphase, rfl⟩)
    · cases h
  | abort reason =>
    simp only [step] at h
    split at h
    · next hsignal => cases h; exact .aborted reason hsignal
    · cases h

/-! ## The invariant -/

/-- No attempt has ended. -/
def NoEnd (history : List (Item E)) : Prop :=
  ∀ i, .ended i ∉ history

/-- What the place where the generator is suspended says about its history. -/
def Position (cfg : RetryConfig) (visible : Bool) (history : List (Item E)) : Phase E → Prop
  | .created => starts history = [] ∧ NoEnd history
  | .streaming i | .yielded i => starts history = List.range (i + 1) ∧ NoEnd history
  | .sleeping i | .retrying i =>
    starts history = List.range (i + 1) ∧ NoEnd history ∧ i < cfg.maxRetries ∧ visible = false
  | .returned => ∃ i, lastAttempt history = some i ∧ .ended i ∈ history
  | .threw error =>
    NoEnd history ∧ ((∃ i, FailedFinally cfg history i error) ∨ .aborted error ∈ history)
  | .closed => NoEnd history

/-- The invariant of `retryStream`. -/
structure Gate (cfg : RetryConfig) (s : State E) : Prop where
  /-- The history knows whether the signal has aborted. -/
  aborted : ∀ reason, .aborted reason ∈ s.history ↔ s.signal.reason = some reason
  /-- One flag spans all attempts. -/
  visible : s.emittedVisible = true ↔ ∃ i, ∃ item ∈ s.history, item.Shows i
  /-- Only the last attempt has shown anything. -/
  last : ∀ i, ∀ item ∈ s.history, item.Shows i → lastAttempt s.history = some i
  /-- No attempt starts after a visible event or an abort. -/
  barred : s.history.Pairwise fun a b => a.Bars → b.started? = none
  counted : ∃ n ≤ cfg.maxRetries + 1, starts s.history = List.range n
  position : Position cfg s.emittedVisible s.history s.phase

theorem starts_append_of_none {history : List (Item E)} {item : Item E}
    (h : item.started? = none) : starts (history ++ [item]) = starts history := by
  rw [starts, List.filterMap_append]
  simp [h, starts]

theorem lastAttempt_append_of_none {history : List (Item E)} {item : Item E}
    (h : item.started? = none) : lastAttempt (history ++ [item]) = lastAttempt history := by
  rw [lastAttempt, starts_append_of_none h, lastAttempt]

theorem lastAttempt_of_starts {history : List (Item E)} {i : Nat}
    (h : starts history = List.range (i + 1)) : lastAttempt history = some i := by
  rw [lastAttempt, h, List.range_succ, List.getLast?_append]
  rfl

theorem noEnd_append {history : List (Item E)} {item : Item E} (h : NoEnd history)
    (hitem : ∀ i, item ≠ .ended i) : NoEnd (history ++ [item]) := by
  intro i hi
  rcases List.mem_append.mp hi with hi | hi
  · exact h i hi
  · exact hitem i (List.mem_singleton.mp hi).symm

/-- A visible item keeps attempts from starting, and the flag knows of it. -/
theorem Gate.not_bars {cfg : RetryConfig} {s : State E} (h : Gate cfg s)
    (hlive : s.signal.reason = none) (hinvisible : s.emittedVisible = false) :
    ∀ item ∈ s.history, ¬ item.Bars := by
  rintro item hitem (⟨i, hshows⟩ | ⟨reason, rfl⟩)
  · have : s.emittedVisible = true := h.visible.mpr ⟨i, item, hitem, hshows⟩
    rw [hinvisible] at this
    cases this
  · rw [(h.aborted reason).mp hitem] at hlive
    cases hlive

/-- While the generator works on attempt `i`, that is the last one and none has ended. -/
theorem Gate.working {cfg : RetryConfig} {s : State E} (h : Gate cfg s) {i : Nat}
    (hphase : s.phase.attempt? = some i) :
    starts s.history = List.range (i + 1) ∧ NoEnd s.history := by
  have hposition := h.position
  cases hp : s.phase with
  | streaming j => rw [hp] at hphase hposition; cases hphase; exact hposition
  | yielded j => rw [hp] at hphase hposition; cases hphase; exact hposition
  | sleeping j => rw [hp] at hphase hposition; cases hphase; exact ⟨hposition.1, hposition.2.1⟩
  | retrying j => rw [hp] at hphase hposition; cases hphase; exact ⟨hposition.1, hposition.2.1⟩
  | created => rw [hp] at hphase; cases hphase
  | returned => rw [hp] at hphase; cases hphase
  | threw error => rw [hp] at hphase; cases hphase
  | closed => rw [hp] at hphase; cases hphase

/-! ### One block preserves the invariant -/

section Kept

variable {cfg : RetryConfig} {s : State E}

/-- A block that only moves the generator. -/
theorem Gate.move (h : Gate cfg s) {phase : Phase E}
    (hposition : Position cfg s.emittedVisible s.history phase) :
    Gate cfg { s with phase := phase } :=
  { aborted := h.aborted, visible := h.visible, last := h.last, barred := h.barred,
    counted := h.counted, position := hposition }

/-- A block that notes an item which neither starts an attempt nor shows anything. -/
theorem Gate.quiet (h : Gate cfg s) {item : Item E} (signal : Signal E) (phase : Phase E)
    (hstarted : item.started? = none) (hshows : ∀ i, ¬ item.Shows i)
    (haborted : ∀ reason, .aborted reason ∈ s.history ++ [item] ↔ signal.reason = some reason)
    (hposition : Position cfg s.emittedVisible (s.history ++ [item]) phase) :
    Gate cfg { s.note item with signal := signal, phase := phase } := by
  have hold : ∀ j, ∀ other ∈ s.history ++ [item], other.Shows j → other ∈ s.history := by
    intro j other hother hj
    rcases List.mem_append.mp hother with hother | hother
    · exact hother
    · rw [List.mem_singleton.mp hother] at hj
      exact absurd hj (hshows j)
  refine { aborted := haborted, position := hposition, visible := ?_, last := ?_, barred := ?_,
           counted := ?_ }
  · show s.emittedVisible = true ↔ ∃ i, ∃ other ∈ s.history ++ [item], other.Shows i
    rw [h.visible]
    constructor
    · rintro ⟨i, other, hother, hj⟩
      exact ⟨i, other, List.mem_append_left _ hother, hj⟩
    · rintro ⟨i, other, hother, hj⟩
      exact ⟨i, other, hold i other hother hj, hj⟩
  · intro i other hother hj
    show lastAttempt (s.history ++ [item]) = some i
    rw [lastAttempt_append_of_none hstarted]
    exact h.last i other (hold i other hother hj) hj
  · refine List.pairwise_append.mpr ⟨h.barred, List.pairwise_singleton _ _, ?_⟩
    intro a _ b hb _
    rw [List.mem_singleton.mp hb]
    exact hstarted
  · show ∃ n ≤ cfg.maxRetries + 1, starts (s.history ++ [item]) = List.range n
    rw [starts_append_of_none hstarted]
    exact h.counted

theorem Gate.aborted_append (h : Gate cfg s) {item : Item E}
    (hitem : ∀ reason, item ≠ .aborted reason) (reason : Thrown E) :
    .aborted reason ∈ s.history ++ [item] ↔ s.signal.reason = some reason := by
  rw [List.mem_append, List.mem_singleton, h.aborted]
  constructor
  · rintro (hreason | heq)
    · exact hreason
    · exact absurd heq.symm (hitem reason)
  · exact Or.inl

/-- The head of the loop starts the next attempt: nothing is visible and nothing has aborted. -/
theorem Gate.began (h : Gate cfg s) {i : Nat} (hlive : s.signal.reason = none)
    (hphase : s.phase = .created ∧ i = 0 ∨ ∃ j, s.phase = .retrying j ∧ i = j + 1) :
    Gate cfg { s.note (.started i) with phase := .streaming i } := by
  have hbefore : starts s.history = List.range i ∧ NoEnd s.history ∧ i ≤ cfg.maxRetries ∧
      s.emittedVisible = false := by
    have hposition := h.position
    rcases hphase with ⟨hphase, rfl⟩ | ⟨j, hphase, rfl⟩
    · rw [hphase] at hposition
      refine ⟨hposition.1, hposition.2, Nat.zero_le _, ?_⟩
      -- an item that shows something belongs to a started attempt
      rw [← Bool.not_eq_true, h.visible]
      rintro ⟨i, item, hitem, hi⟩
      have hlast := h.last i item hitem hi
      rw [lastAttempt, hposition.1] at hlast
      cases hlast
    · rw [hphase] at hposition
      exact ⟨hposition.1, hposition.2.1, hposition.2.2.1, hposition.2.2.2⟩
  obtain ⟨hstarts, hnoEnd, hbudget, hinvisible⟩ := hbefore
  have hstarts' : starts (s.history ++ [.started i]) = List.range (i + 1) := by
    rw [starts, List.filterMap_append, List.range_succ, ← hstarts]
    rfl
  have hshows : ∀ j, ∀ item ∈ s.history ++ [.started i], ¬ item.Shows j := by
    intro j item hitem hj
    rcases List.mem_append.mp hitem with hitem | hitem
    · exact h.not_bars hlive hinvisible item hitem (Or.inl ⟨j, hj⟩)
    · obtain ⟨event, heq, -⟩ := hj
      rw [List.mem_singleton.mp hitem] at heq
      cases heq
  refine { aborted := h.aborted_append (by intro _ heq; cases heq), visible := ?_, last := ?_,
           barred := ?_, counted := ⟨i + 1, Nat.succ_le_succ hbudget, hstarts'⟩,
           position := ⟨hstarts', noEnd_append hnoEnd (by intro _ heq; cases heq)⟩ }
  · constructor
    · intro hvisible
      rw [show s.emittedVisible = true from hvisible] at hinvisible
      cases hinvisible
    · rintro ⟨j, item, hitem, hj⟩
      exact absurd hj (hshows j item hitem)
  · intro j item hitem hj
    exact absurd hj (hshows j item hitem)
  · refine List.pairwise_append.mpr ⟨h.barred, List.pairwise_singleton _ _, ?_⟩
    intro a ha b _ hbars
    exact absurd hbars (h.not_bars hlive hinvisible a ha)

/-- The body of the `for await` keeps the flag and the last attempt in step. -/
theorem Gate.forwarded (h : Gate cfg s) {i : Nat} {event : LlmStreamEvent}
    (hphase : s.phase = .streaming i) : Gate cfg (s.forward i event) := by
  obtain ⟨hstarts, hnoEnd⟩ := h.working (i := i) (by rw [hphase]; rfl)
  have hitem : (Item.forwarded i event : Item E).started? = none := rfl
  refine { aborted := h.aborted_append (by intro _ heq; cases heq), visible := ?_, last := ?_,
           barred := ?_, counted := ?_, position := ?_ }
  · show (s.emittedVisible || isVisible event) = true ↔
      ∃ j, ∃ item ∈ s.history ++ [.forwarded i event], item.Shows j
    rw [Bool.or_eq_true, h.visible]
    constructor
    · rintro (⟨j, item, hitem, hj⟩ | hevent)
      · exact ⟨j, item, List.mem_append_left _ hitem, hj⟩
      · exact ⟨i, .forwarded i event, by simp, event, rfl, hevent⟩
    · rintro ⟨j, item, hitem, hj⟩
      rcases List.mem_append.mp hitem with hitem | hitem
      · exact Or.inl ⟨j, item, hitem, hj⟩
      · rw [List.mem_singleton.mp hitem] at hj
        obtain ⟨event', heq, hevent⟩ := hj
        cases heq
        exact Or.inr hevent
  · intro j item hmem hj
    show lastAttempt (s.history ++ [.forwarded i event]) = some j
    rw [lastAttempt_append_of_none hitem]
    rcases List.mem_append.mp hmem with hmem | hmem
    · exact h.last j item hmem hj
    · rw [List.mem_singleton.mp hmem] at hj
      obtain ⟨event', heq, -⟩ := hj
      cases heq
      exact lastAttempt_of_starts hstarts
  · refine List.pairwise_append.mpr ⟨h.barred, List.pairwise_singleton _ _, ?_⟩
    intro a _ b hb _
    rw [List.mem_singleton.mp hb]
    rfl
  · show ∃ n ≤ cfg.maxRetries + 1, starts (s.history ++ [.forwarded i event]) = List.range n
    rw [starts_append_of_none hitem]
    exact h.counted
  · refine ⟨?_, noEnd_append hnoEnd (by intro _ heq; cases heq)⟩
    show starts (s.history ++ [.forwarded i event]) = List.range (i + 1)
    rw [starts_append_of_none hitem, hstarts]

/-- An attempt fails: what it has thrown is noted, and nothing else happens to the history. -/
theorem Gate.failed (h : Gate cfg s) {i : Nat} {error : Thrown E} {phase : Phase E}
    (hposition : Position cfg s.emittedVisible (s.history ++ [.failed i error]) phase) :
    Gate cfg { s.note (.failed i error) with phase := phase } :=
  h.quiet s.signal phase rfl (by rintro j ⟨event, heq, -⟩; cases heq)
    (h.aborted_append (by intro _ heq; cases heq)) hposition

/-- The error of the last attempt is thrown for one of the four reasons. -/
theorem Gate.failedFinally (h : Gate cfg s) {i : Nat} {error : Thrown E}
    (hstarts : starts s.history = List.range (i + 1))
    (hfinal : error.retryable cfg = false ∨ s.emittedVisible = true ∨ cfg.maxRetries ≤ i ∨
      ∃ reason, s.signal.reason = some reason) :
    FailedFinally cfg (s.history ++ [.failed i error]) i error := by
  refine ⟨?_, s.history, [], rfl, ?_⟩
  · rw [lastAttempt_append_of_none rfl]
    exact lastAttempt_of_starts hstarts
  · rcases hfinal with hretryable | hvisible | hbudget | ⟨reason, hreason⟩
    · exact Or.inl hretryable
    · exact Or.inr (Or.inl (h.visible.mp hvisible))
    · exact Or.inr (Or.inr (Or.inl hbudget))
    · exact Or.inr (Or.inr (Or.inr ⟨reason, (h.aborted reason).mpr hreason⟩))

end Kept

theorem FailedFinally.append {cfg : RetryConfig} {history : List (Item E)} {i : Nat}
    {error : Thrown E} (h : FailedFinally cfg history i error) {item : Item E}
    (hitem : item.started? = none) : FailedFinally cfg (history ++ [item]) i error := by
  obtain ⟨hlast, before, after, heq, hfinal⟩ := h
  refine ⟨by rw [lastAttempt_append_of_none hitem]; exact hlast, before, after ++ [item], ?_, hfinal⟩
  rw [heq, List.append_assoc, List.cons_append]

/-- An abort by itself moves nothing. -/
theorem Position.aborted {cfg : RetryConfig} {visible : Bool} {history : List (Item E)}
    {phase : Phase E} (h : Position cfg visible history phase) (reason : Thrown E) :
    Position cfg visible (history ++ [.aborted reason]) phase := by
  have hstarts : starts (history ++ [.aborted reason]) = starts history :=
    starts_append_of_none rfl
  have hnoEnd : NoEnd history → NoEnd (history ++ [.aborted reason]) := fun hnoEnd =>
    noEnd_append hnoEnd (by intro _ heq; cases heq)
  cases phase with
  | created => exact ⟨hstarts.trans h.1, hnoEnd h.2⟩
  | streaming i => exact ⟨hstarts.trans h.1, hnoEnd h.2⟩
  | yielded i => exact ⟨hstarts.trans h.1, hnoEnd h.2⟩
  | sleeping i => exact ⟨hstarts.trans h.1, hnoEnd h.2.1, h.2.2⟩
  | retrying i => exact ⟨hstarts.trans h.1, hnoEnd h.2.1, h.2.2⟩
  | returned =>
    obtain ⟨i, hlast, hended⟩ := h
    exact ⟨i, (lastAttempt_append_of_none rfl).trans hlast, List.mem_append_left _ hended⟩
  | threw error =>
    refine ⟨hnoEnd h.1, ?_⟩
    rcases h.2 with ⟨i, hfailed⟩ | haborted
    · exact Or.inl ⟨i, hfailed.append rfl⟩
    · exact Or.inr (List.mem_append_left _ haborted)
  | closed => exact hnoEnd h

theorem gate_initial (cfg : RetryConfig) (signal : Signal E) : Gate cfg (initial signal) := by
  have hmem : ∀ item ∈ (initial signal).history, ∃ reason, item = .aborted reason := by
    intro item hitem
    cases signal with
    | absent => cases hitem
    | live => cases hitem
    | aborted reason => exact ⟨reason, List.mem_singleton.mp hitem⟩
  have hshows : ∀ i, ∀ item ∈ (initial signal).history, ¬ item.Shows i := by
    rintro i item hitem ⟨event, rfl, -⟩
    obtain ⟨reason, heq⟩ := hmem _ hitem
    cases heq
  have hstarts : starts (initial signal).history = [] := by
    cases signal <;> rfl
  refine { aborted := ?_, visible := ?_, last := ?_, barred := ?_, counted := ⟨0, by omega, hstarts⟩,
           position := ⟨hstarts, ?_⟩ }
  · intro reason
    cases signal <;> simp [initial, Signal.reason, eq_comm]
  · constructor
    · rintro ⟨⟩
    · rintro ⟨i, item, hitem, hi⟩
      exact absurd hi (hshows i item hitem)
  · intro i item hitem hi
    exact absurd hi (hshows i item hitem)
  · cases signal <;> simp [initial, Signal.reason]
  · intro i hi
    obtain ⟨reason, heq⟩ := hmem _ hi
    cases heq

/-- **Every block of `retryStream` preserves the invariant.** -/
theorem gate_step {cfg : RetryConfig} {s t : State E} (h : Gate cfg s) (hmoved : Moved cfg s t) :
    Gate cfg t := by
  cases hmoved with
  | began i hphase hlive => exact h.began hlive hphase
  | refused reason hreason hphase =>
    refine h.move ⟨?_, Or.inr ((h.aborted reason).mpr hreason)⟩
    rcases hphase with hphase | hphase
    · obtain ⟨i, hi⟩ := Option.ne_none_iff_exists'.mp hphase
      exact (h.working hi).2
    · have hposition := h.position
      rw [hphase] at hposition
      exact hposition.2
  | pulled i hphase => exact h.move (h.working (by rw [hphase]; rfl))
  | forwarded i event hphase => exact h.forwarded hphase
  | ended i hphase =>
    have hlast := lastAttempt_of_starts (h.working (i := i) (by rw [hphase]; rfl)).1
    refine h.quiet s.signal .returned rfl (by rintro j ⟨event, heq, -⟩; cases heq)
      (h.aborted_append (by intro _ heq; cases heq)) ⟨i, ?_, by simp⟩
    exact (lastAttempt_append_of_none rfl).trans hlast
  | threw i error hphase hfinal =>
    obtain ⟨hstarts, hnoEnd⟩ := h.working hphase
    exact h.failed ⟨noEnd_append hnoEnd (by intro _ heq; cases heq),
      Or.inl ⟨i, h.failedFinally hstarts hfinal⟩⟩
  | failed i error phase hphase hnext hinvisible hbudget =>
    obtain ⟨hstarts, hnoEnd⟩ := h.working hphase
    -- a failure is retried within the budget, before anything visible
    have hwaiting : starts (s.history ++ [.failed i error]) = List.range (i + 1) ∧
        NoEnd (s.history ++ [.failed i error]) ∧ i < cfg.maxRetries ∧ s.emittedVisible = false :=
      ⟨(starts_append_of_none rfl).trans hstarts, noEnd_append hnoEnd (by intro _ heq; cases heq),
        hbudget, hinvisible⟩
    rcases hnext with rfl | rfl
    · exact h.failed hwaiting
    · exact h.failed hwaiting
  | woke i hphase =>
    have hposition := h.position
    rw [hphase] at hposition
    exact h.move hposition
  | closed hphase =>
    refine h.move ?_
    rcases hphase with hphase | ⟨i, hphase⟩
    · have hposition := h.position
      rw [hphase] at hposition
      exact hposition.2
    · exact (h.working (i := i) (by rw [hphase]; rfl)).2
  | aborted reason hsignal =>
    refine h.quiet (.aborted reason) s.phase rfl (by rintro j ⟨event, heq, -⟩; cases heq) ?_
      (h.position.aborted reason)
    intro other
    rw [List.mem_append, List.mem_singleton, h.aborted, hsignal]
    constructor
    · rintro (hother | heq)
      · cases hother
      · cases heq; rfl
    · intro heq
      cases heq
      exact Or.inr rfl

theorem gate_of_run {cfg : RetryConfig} {signal : Signal E} {ls : List (Label E)} {s : State E}
    (run : Lib.Run (step cfg) Lib.Free (initial signal) ls s) : Gate cfg s :=
  run.invariant (gate_initial cfg signal) fun _ _ _ _ h hstep => gate_step h (moved_of_step hstep)

/-! ## The contract -/

/-- `Position` tells an ended attempt from every other way to be somewhere. -/
theorem Gate.returned_iff {cfg : RetryConfig} {s : State E} (h : Gate cfg s) :
    s.phase = .returned ↔ ∃ i, lastAttempt s.history = some i ∧ .ended i ∈ s.history := by
  have hposition := h.position
  constructor
  · intro hphase
    rw [hphase] at hposition
    exact hposition
  · rintro ⟨i, -, hended⟩
    cases hp : s.phase with
    | returned => rfl
    | created => rw [hp] at hposition; exact absurd hended (hposition.2 i)
    | streaming j => rw [hp] at hposition; exact absurd hended (hposition.2 i)
    | yielded j => rw [hp] at hposition; exact absurd hended (hposition.2 i)
    | sleeping j => rw [hp] at hposition; exact absurd hended (hposition.2.1 i)
    | retrying j => rw [hp] at hposition; exact absurd hended (hposition.2.1 i)
    | threw error => rw [hp] at hposition; exact absurd hended (hposition.1 i)
    | closed => rw [hp] at hposition; exact absurd hended (hposition i)

/-- **The retry gate**: visible events come from one attempt, no attempt starts after one or after
an abort, the attempts stay within the budget, the stream ends as its last attempt does, and what
it throws is either the abort reason or the error of the last attempt, for one of four reasons. -/
theorem retry_gate (cfg : RetryConfig) {signal : Signal E} {ls : List (Label E)} {s : State E}
    (run : Lib.Run (step cfg) Lib.Free (initial signal) ls s) :
    (∀ i j, ∀ a ∈ s.history, ∀ b ∈ s.history, a.Shows i → b.Shows j → i = j) ∧
    (s.history.Pairwise fun a b =>
      ((∃ i, a.Shows i) ∨ ∃ reason, a = .aborted reason) → b.started? = none) ∧
    (starts s.history).length ≤ cfg.maxRetries + 1 ∧
    (s.phase = .returned ↔ ∃ i, lastAttempt s.history = some i ∧ .ended i ∈ s.history) ∧
    ∀ error, s.phase = .threw error →
      (∃ i, FailedFinally cfg s.history i error) ∨ .aborted error ∈ s.history := by
  have h := gate_of_run run
  refine ⟨?_, h.barred, ?_, h.returned_iff, ?_⟩
  · intro i j a ha b hb hi hj
    have hlast := h.last i a ha hi
    rw [h.last j b hb hj] at hlast
    cases hlast
    rfl
  · obtain ⟨n, hn, heq⟩ := h.counted
    rw [heq, List.length_range]
    exact hn
  · intro error hphase
    have hposition := h.position
    rw [hphase] at hposition
    exact hposition.2

/-! ### A retry that succeeds -/

/-- A server failure without output is retried, and the second attempt is forwarded. -/
theorem retry_gate_second :
    ∃ s : State Unit,
      lastAttempt s.history = some 1 ∧ s.phase = .returned ∧
      (starts s.history).length ≤ 3 + 1 := by
  obtain ⟨s, run, hs⟩ := Lib.exists_run
    (step { maxRetries := 3, baseDelayS := (0 : ℚ), maxDelayS := (30 : ℚ), statusCodes := [503] })
    Lib.Free (initial (Signal.live : Signal Unit))
    [.next, .fail (.provider (.fromStatus 503 "unavailable" none none)), .resume,
      .event (.assistantTextDelta "a"), .next, .finish]
    (fun s => (lastAttempt s.history == some 1) &&
      (match s.phase with | .returned => true | _ => false)) (by decide +kernel)
  rw [Bool.and_eq_true, beq_iff_eq] at hs
  refine ⟨s, hs.1, ?_, (retry_gate _ run).2.2.1⟩
  cases hp : s.phase <;> simp_all

end EphemeralAgent.LlmClient
