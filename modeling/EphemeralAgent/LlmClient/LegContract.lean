import EphemeralAgent.LlmClient.StreamClient

/-!
# The leg contract

What `streamMessage` yields and how it ends, under either wire, every consumer, every provider,
every retry policy and every abort.

* `Moved` / `moved_of_step` — what one synchronous block can do
* `gate_run_of_run` — the client runs the retry gate, so its invariant holds here
* `Place` — where the client is suspended says whether it has yielded the completed message
* `Surfaced` — what has become of an attempt whose provider stream has ended
* `leg_contract` — the contract
-/

namespace EphemeralAgent.LlmClient.StreamClient

variable {wire : Wire} {E : Type*}

/-! ## What one block can do -/

/-- The ways a step can go. -/
inductive Moved (cfg : Config E) (s : State wire E) : State wire E → Prop
  /-- A new attempt opens. -/
  | began (i : Nat)
      (hphase : s.gate.phase = .created ∧ i = 0 ∨ ∃ j, s.gate.phase = .retrying j ∧ i = j + 1) :
      Moved cfg s { s with
        gate := { s.gate.note (.started i) with phase := .streaming i }, attempt := .opening }
  /-- `throwIfAborted` throws in `retryStream`. -/
  | refused (reason : Thrown E) (attempt : Attempt wire E)
      (hreason : s.gate.signal.reason = some reason)
      (hphase : s.gate.phase = .created ∨ ∃ i, s.gate.phase = .sleeping i ∨
        s.gate.phase = .retrying i) :
      Moved cfg s { s with gate := { s.gate with phase := .threw reason }, attempt }
  | woke (i : Nat) (hphase : s.gate.phase = .sleeping i) :
      Moved cfg s { s with gate := { s.gate with phase := .retrying i } }
  /-- The consumer asks for the event after the one it holds. -/
  | pulled (i : Nat) (d : wire.Decoder) (hphase : s.gate.phase = .yielded i)
      (hattempt : s.attempt = .held d) :
      Moved cfg s ({ s with gate := { s.gate with phase := .streaming i } }.loop d)
  | closed (attempt : Attempt wire E)
      (hphase : s.gate.phase = .created ∨ ∃ i, s.gate.phase = .yielded i) :
      Moved cfg s { s with gate := { s.gate with phase := .closed }, attempt }
  | aborted (reason : Thrown E) (hsignal : s.gate.signal = .live) :
      Moved cfg s { s with
        gate := { s.gate.note (.aborted reason) with signal := .aborted reason } }
  | opened (requestId : Option String) (hattempt : s.attempt = .opening) :
      Moved cfg s { s with requestId, attempt := .reading (wire.decoder requestId) }
  | openFailed (error : Thrown E) (hattempt : s.attempt = .opening) :
      Moved cfg s { s with attempt := .settled (.failed error) }
  | read (i : Nat) (d : wire.Decoder) (chunk : wire.Chunk) (hphase : s.gate.phase = .streaming i)
      (hattempt : s.attempt = .reading d) :
      Moved cfg s ({ s with reads := s.reads ++ [(i, some chunk)] }.handle d chunk)
  | ended (i : Nat) (d : wire.Decoder) (hphase : s.gate.phase = .streaming i)
      (hattempt : s.attempt = .reading d) :
      Moved cfg s { s with reads := s.reads ++ [(i, none)], attempt := .releasing d .ended }
  | readFailed (d : wire.Decoder) (error : Thrown E) (hattempt : s.attempt = .reading d) :
      Moved cfg s { s with attempt := .releasing d (.threw error) }
  | released (d : wire.Decoder) (exit : Exit E) (hattempt : s.attempt = .releasing d exit) :
      Moved cfg s (s.release cfg d exit)
  /-- An event reaches `retryStream`, which yields it. -/
  | forwarded (i : Nat) (d : wire.Decoder) (event : LlmStreamEvent)
      (hphase : s.gate.phase = .streaming i) (hattempt : s.attempt = .offering d event) :
      Moved cfg s { s with gate := s.gate.forward i event, attempt := .held d }
  | returned (i : Nat) (hphase : s.gate.phase = .streaming i)
      (hattempt : s.attempt = .settled .ended) :
      Moved cfg s { s with
        gate := { s.gate.note (.ended i) with phase := .returned }, attempt := .idle }
  /-- A failure of the attempt reaches the `catch` of `retryStream`. -/
  | caught (i : Nat) (error : Thrown E)
      (hphase : s.gate.phase = .streaming i ∨ s.gate.phase = .yielded i)
      (hattempt : s.attempt = .settled (.failed error)) :
      Moved cfg s { s with
        gate := (s.gate.note (.failed i error)).caught cfg.retry i error, attempt := .idle }

theorem moved_of_begin {cfg : Config E} {s : State wire E} {i : Nat}
    (h : s.gate.phase = .created ∧ i = 0 ∨ ∃ j, s.gate.phase = .retrying j ∧ i = j + 1) :
    Moved cfg s (s.begin (s.gate.enter i)) := by
  cases hreason : s.gate.signal.reason with
  | none =>
    rw [LlmClient.State.enter, LlmClient.State.throwIfAborted, hreason]
    exact .began i h
  | some reason =>
    rw [LlmClient.State.enter, LlmClient.State.throwIfAborted, hreason]
    refine .refused reason .idle hreason ?_
    rcases h with ⟨hphase, -⟩ | ⟨j, hphase, -⟩
    · exact Or.inl hphase
    · exact Or.inr ⟨j, Or.inr hphase⟩

theorem moved_of_next {cfg : Config E} {s t : State wire E} (h : step cfg s .next = some t) :
    Moved cfg s t := by
  simp only [step] at h
  split at h
  · next hphase _ =>
    simp only [LlmClient.step, hphase, Option.map_some, Option.some.injEq] at h
    rw [← h]
    exact moved_of_begin (Or.inl ⟨hphase, rfl⟩)
  · next i d hphase hattempt =>
    simp only [LlmClient.step, hphase, Option.map_some, Option.some.injEq] at h
    rw [← h]
    exact .pulled i d hphase hattempt
  · cases h

theorem moved_of_close {cfg : Config E} {s t : State wire E} (h : step cfg s .close = some t) :
    Moved cfg s t := by
  simp only [step] at h
  split at h
  · next hphase _ =>
    simp only [LlmClient.step, hphase, Option.map_some, Option.some.injEq] at h
    rw [← h]
    exact .closed s.attempt (Or.inl hphase)
  · next i d hphase _ =>
    simp only [LlmClient.step, hphase, Option.map_some, Option.some.injEq] at h
    rw [← h]
    exact .closed _ (Or.inr ⟨i, hphase⟩)
  · cases h

theorem moved_of_wake {cfg : Config E} {s t : State wire E} (h : step cfg s .wake = some t) :
    Moved cfg s t := by
  simp only [step, LlmClient.step] at h
  split at h
  · next i hphase =>
    rw [Option.map_some, Option.some.injEq] at h
    rw [← h]
    unfold LlmClient.State.throwIfAborted
    split
    · next reason hreason =>
      exact .refused reason s.attempt hreason (Or.inr ⟨i, Or.inl hphase⟩)
    · exact .woke i hphase
  · cases h

theorem moved_of_deliver {cfg : Config E} {s t : State wire E}
    (h : step cfg s .deliver = some t) : Moved cfg s t := by
  simp only [step] at h
  split at h
  · next d event hattempt =>
    simp only [LlmClient.step] at h
    split at h
    · next i hphase => cases h; exact .forwarded i d event hphase hattempt
    · cases h
  · next hattempt =>
    simp only [LlmClient.step] at h
    split at h
    · next i hphase => cases h; exact .returned i hphase hattempt
    · cases h
  · next error hattempt =>
    simp only [LlmClient.step] at h
    split at h
    · next i hphase => cases h; exact .caught i error (Or.inl hphase) hattempt
    · next i hphase => cases h; exact .caught i error (Or.inr hphase) hattempt
    · cases h
  · cases h

theorem moved_of_step {cfg : Config E} {s t : State wire E} {l : Label wire E}
    (h : step cfg s l = some t) : Moved cfg s t := by
  cases l with
  | next => exact moved_of_next h
  | close => exact moved_of_close h
  | wake => exact moved_of_wake h
  | deliver => exact moved_of_deliver h
  | opened requestId =>
    simp only [step] at h
    split at h
    · next hattempt => cases h; exact .opened requestId hattempt
    · cases h
  | openFailed error =>
    simp only [step] at h
    split at h
    · next hattempt => cases h; exact .openFailed _ hattempt
    · cases h
  | chunk chunk =>
    simp only [step] at h
    split at h
    · next i d hphase hattempt => cases h; exact .read i d chunk hphase hattempt
    · cases h
  | done =>
    simp only [step] at h
    split at h
    · next i d hphase hattempt => cases h; exact .ended i d hphase hattempt
    · cases h
  | readFailed error =>
    simp only [step] at h
    split at h
    · next d hattempt => cases h; exact .readFailed d error hattempt
    · cases h
  | timeout =>
    simp only [step] at h
    split at h
    · next d hattempt => cases h; exact .readFailed d _ hattempt
    · cases h
  | released =>
    simp only [step] at h
    split at h
    · next d exit hattempt => cases h; exact .released d exit hattempt
    · cases h
  | resume =>
    simp only [step, LlmClient.step] at h
    split at h
    · next i hphase =>
      rw [Option.map_some, Option.some.injEq] at h
      rw [← h]
      exact moved_of_begin (Or.inr ⟨i, hphase, rfl⟩)
    · cases h
  | abort reason =>
    simp only [step, LlmClient.step] at h
    split at h
    · next hsignal => cases h; exact .aborted reason hsignal
    · cases h

/-! ## The retry gate -/

@[simp] theorem State.handle_gate (s : State wire E) (d : wire.Decoder) (chunk : wire.Chunk) :
    (s.handle d chunk).gate = s.gate := by
  unfold State.handle
  split <;> rfl

@[simp] theorem State.handle_reads (s : State wire E) (d : wire.Decoder) (chunk : wire.Chunk) :
    (s.handle d chunk).reads = s.reads := by
  unfold State.handle
  split <;> rfl

@[simp] theorem State.release_gate (cfg : Config E) (s : State wire E) (d : wire.Decoder)
    (exit : Exit E) : (s.release cfg d exit).gate = s.gate := by
  cases exit <;> rfl

@[simp] theorem State.release_reads (cfg : Config E) (s : State wire E) (d : wire.Decoder)
    (exit : Exit E) : (s.release cfg d exit).reads = s.reads := by
  cases exit <;> rfl

@[simp] theorem State.begin_gate (s : State wire E) (gate : LlmClient.State E) :
    (s.begin gate).gate = gate := by
  unfold State.begin
  split <;> rfl

/-- A block of the client is one block of the retry gate, or none. -/
theorem gate_of_step {cfg : Config E} {s t : State wire E} {l : Label wire E}
    (h : step cfg s l = some t) :
    t.gate = s.gate ∨ ∃ gl, LlmClient.step cfg.retry s.gate gl = some t.gate := by
  cases l with
  | next =>
    simp only [step] at h
    split at h
    · obtain ⟨gate, hgate, rfl⟩ := Option.map_eq_some_iff.mp h
      exact Or.inr ⟨_, by rw [hgate, State.begin_gate]⟩
    · obtain ⟨gate, hgate, rfl⟩ := Option.map_eq_some_iff.mp h
      exact Or.inr ⟨_, hgate⟩
    · cases h
  | close =>
    simp only [step] at h
    split at h
    · obtain ⟨gate, hgate, rfl⟩ := Option.map_eq_some_iff.mp h
      exact Or.inr ⟨_, hgate⟩
    · obtain ⟨gate, hgate, rfl⟩ := Option.map_eq_some_iff.mp h
      exact Or.inr ⟨_, hgate⟩
    · cases h
  | deliver =>
    simp only [step] at h
    split at h
    · obtain ⟨gate, hgate, rfl⟩ := Option.map_eq_some_iff.mp h
      exact Or.inr ⟨_, hgate⟩
    · obtain ⟨gate, hgate, rfl⟩ := Option.map_eq_some_iff.mp h
      exact Or.inr ⟨_, hgate⟩
    · obtain ⟨gate, hgate, rfl⟩ := Option.map_eq_some_iff.mp h
      exact Or.inr ⟨_, hgate⟩
    · cases h
  | wake =>
    obtain ⟨gate, hgate, rfl⟩ := Option.map_eq_some_iff.mp h
    exact Or.inr ⟨_, hgate⟩
  | resume =>
    obtain ⟨gate, hgate, rfl⟩ := Option.map_eq_some_iff.mp h
    exact Or.inr ⟨_, by rw [hgate, State.begin_gate]⟩
  | abort reason =>
    obtain ⟨gate, hgate, rfl⟩ := Option.map_eq_some_iff.mp h
    exact Or.inr ⟨_, hgate⟩
  | _ =>
    -- these labels belong to the attempt alone
    simp only [step] at h
    split at h
    · cases h
      simp
    · cases h

/-- **The client refines the retry gate**: what it does to `retryStream` is a run of it. -/
theorem gate_run_of_run {cfg : Config E} {signal : Signal E} {ls : List (Label wire E)}
    {s : State wire E} (run : Lib.Run (step cfg) Lib.Free (initial wire signal) ls s) :
    ∃ gls, Lib.Run (LlmClient.step cfg.retry) Lib.Free (LlmClient.initial signal) gls s.gate := by
  refine run.invariant (I := fun s => ∃ gls, Lib.Run (LlmClient.step cfg.retry) Lib.Free
    (LlmClient.initial signal) gls s.gate) ⟨[], .nil _⟩ ?_
  rintro s l t - ⟨gls, hgls⟩ hstep
  rcases gate_of_step hstep with heq | ⟨gl, hgl⟩
  · rw [heq]
    exact ⟨gls, hgls⟩
  · exact ⟨gls ++ [gl], .snoc hgls trivial hgl⟩

/-! ## What has been yielded -/

/-- The event that an item forwards to the consumer. -/
def yielded? : Item E → Option LlmStreamEvent
  | .forwarded _ event => some event
  | _ => none

/-- What `streamMessage` has yielded, in order. -/
def State.yielded (s : State wire E) : List LlmStreamEvent :=
  s.gate.history.filterMap yielded?

/-- Only deltas. -/
def Quiet (events : List LlmStreamEvent) : Prop :=
  ∀ event ∈ events, event.isComplete = false

/-- Deltas, and then the completed message. -/
def Concluded (events : List LlmStreamEvent) : Prop :=
  ∃ deltas message, events = deltas ++ [message] ∧ Quiet deltas ∧ message.isComplete = true

/-- What a decoder that has completed, or has not, has told the consumer. -/
def Told (completed : Bool) (events : List LlmStreamEvent) : Prop :=
  if completed then Concluded events else Quiet events

theorem Told.quiet_or {completed : Bool} {events : List LlmStreamEvent}
    (h : Told completed events) : Quiet events ∨ Concluded events := by
  cases completed with
  | false => exact Or.inl h
  | true => exact Or.inr h

theorem told_append {events : List LlmStreamEvent} {event : LlmStreamEvent} (h : Quiet events) :
    Told event.isComplete (events ++ [event]) := by
  cases hevent : event.isComplete with
  | true => exact ⟨events, event, rfl, h, hevent⟩
  | false =>
    intro other hother
    rcases List.mem_append.mp hother with hother | hother
    · exact h other hother
    · rw [List.mem_singleton.mp hother, hevent]

/-- What the consumer has been told while an attempt is at work. -/
def Working (signal : Signal E) (events : List LlmStreamEvent) : Attempt wire E → Prop
  | .opening => Quiet events
  | .reading d => wire.completed d = false ∧ Quiet events
  | .offering d event => event.isComplete = wire.completed d ∧ Quiet events
  | .releasing d .broke => wire.completed d = true ∧ Concluded events
  | .releasing d .ended => wire.completed d = false ∧ Quiet events
  | .releasing _ (.threw _) => Quiet events
  | .settled .ended => Concluded events
  | .settled (.failed _) => Quiet events ∨ Concluded events ∧ signal.reason ≠ none
  | .releasing _ .closed | .held _ | .idle => False

/-- What the consumer has been told, by the place where `retryStream` is suspended. -/
def Located (signal : Signal E) (events : List LlmStreamEvent) (attempt : Attempt wire E) :
    Phase E → Prop
  | .streaming _ => Working signal events attempt
  | .yielded _ => ∃ d, attempt = .held d ∧ Told (wire.completed d) events
  | .created | .sleeping _ | .retrying _ => attempt = .idle ∧ Quiet events
  | .returned => Concluded events
  | .threw _ | .closed => Quiet events ∨ Concluded events

/-- The invariant of `streamMessage`. -/
def Place (s : State wire E) : Prop :=
  Located s.gate.signal s.yielded s.attempt s.gate.phase

section Place

variable {cfg : Config E} {s : State wire E}

theorem Working.quiet_or {signal : Signal E} {events : List LlmStreamEvent}
    {attempt : Attempt wire E} (h : Working signal events attempt) :
    Quiet events ∨ Concluded events := by
  unfold Working at h
  split at h
  · exact Or.inl h
  · exact Or.inl h.2
  · exact Or.inl h.2
  · exact Or.inr h.2
  · exact Or.inl h.2
  · exact Or.inl h
  · exact Or.inr h
  · exact h.imp id And.left
  all_goals exact h.elim

/-- Wherever the client is, it has yielded deltas, and after them at most the message. -/
theorem Place.quiet_or (h : Place s) : Quiet s.yielded ∨ Concluded s.yielded := by
  unfold Place at h
  cases hphase : s.gate.phase with
  | streaming i => rw [hphase] at h; exact Working.quiet_or h
  | yielded i =>
    rw [hphase] at h
    obtain ⟨d, -, h⟩ := h
    exact h.quiet_or
  | created => rw [hphase] at h; exact Or.inl h.2
  | sleeping i => rw [hphase] at h; exact Or.inl h.2
  | retrying i => rw [hphase] at h; exact Or.inl h.2
  | returned => rw [hphase] at h; exact Or.inr h
  | threw error => rw [hphase] at h; exact h
  | closed => rw [hphase] at h; exact h

theorem Place.located (h : Place s) {phase : Phase E} (hphase : s.gate.phase = phase) :
    Located s.gate.signal s.yielded s.attempt phase :=
  hphase ▸ h

/-- A move of an attempt that is at work. -/
theorem Place.move (h : Place s) {t : State wire E} (hgate : t.gate = s.gate)
    (hheld : ∀ d, s.attempt ≠ .held d) (hidle : s.attempt ≠ .idle)
    (hworking : Working s.gate.signal s.yielded s.attempt →
      Working s.gate.signal s.yielded t.attempt) : Place t := by
  have hyielded : t.yielded = s.yielded := by rw [State.yielded, hgate, State.yielded]
  rw [Place, hgate, hyielded]
  unfold Place at h
  cases hphase : s.gate.phase with
  | streaming i => rw [hphase] at h; exact hworking h
  | yielded i =>
    rw [hphase] at h
    obtain ⟨d, hd, -⟩ := h
    exact absurd hd (hheld d)
  | created => rw [hphase] at h; exact absurd h.1 hidle
  | sleeping i => rw [hphase] at h; exact absurd h.1 hidle
  | retrying i => rw [hphase] at h; exact absurd h.1 hidle
  | returned => rw [hphase] at h; exact h
  | threw error => rw [hphase] at h; exact h
  | closed => rw [hphase] at h; exact h

/-- Only a failure after the message looks at the signal. -/
theorem Working.aborted {signal : Signal E} {events : List LlmStreamEvent}
    {attempt : Attempt wire E} (h : Working signal events attempt) (reason : Thrown E) :
    Working (.aborted reason) events attempt := by
  cases attempt with
  | settled result =>
    cases result with
    | ended => exact h
    | failed error =>
      rcases h with h | h
      · exact Or.inl h
      · exact Or.inr ⟨h.1, by simp [Signal.reason]⟩
  | releasing d exit => cases exit <;> exact h
  | _ => exact h

theorem Located.aborted {signal : Signal E} {events : List LlmStreamEvent}
    {attempt : Attempt wire E} {phase : Phase E} (h : Located signal events attempt phase)
    (reason : Thrown E) : Located (.aborted reason) events attempt phase := by
  cases phase with
  | streaming i => exact Working.aborted h reason
  | _ => exact h

/-- The loop goes on with the next read unless the decoder has completed. -/
theorem working_loop {signal : Signal E} {events : List LlmStreamEvent} {d : wire.Decoder}
    (h : Told (wire.completed d) events) : Working signal events (s.loop d).attempt := by
  unfold State.loop
  cases hd : wire.completed d with
  | true => rw [hd] at h; exact ⟨hd, h⟩
  | false => rw [hd] at h; exact ⟨hd, h⟩

theorem working_handle {signal : Signal E} {events : List LlmStreamEvent} {d : wire.Decoder}
    {chunk : wire.Chunk} (hd : wire.completed d = false) (h : Quiet events) :
    Working signal events (s.handle d chunk).attempt := by
  unfold State.handle
  split
  · next d' event heq => exact ⟨wire.decoded hd heq, h⟩
  · next d' heq =>
    have hd' : wire.completed d' = false := wire.decoded hd heq
    exact working_loop (by rw [hd']; exact h)
  · exact h

theorem working_release {signal : Signal E} {d : wire.Decoder} {exit : Exit E}
    (hsignal : signal = s.gate.signal)
    (h : Working signal s.yielded (.releasing d exit : Attempt wire E)) :
    Working signal s.yielded (s.release cfg d exit).attempt := by
  subst hsignal
  cases exit with
  | threw error => exact Or.inl h
  | closed => exact h.elim
  | broke =>
    simp only [State.release, State.conclude]
    cases hreason : s.gate.signal.reason with
    | some reason => exact Or.inr ⟨h.2, by rw [hreason]; simp⟩
    | none =>
      dsimp only
      rw [if_pos h.1]
      exact h.2
  | ended =>
    simp only [State.release, State.conclude]
    cases hreason : s.gate.signal.reason with
    | some reason => exact Or.inl h.2
    | none =>
      dsimp only
      rw [if_neg (by rw [h.1]; simp)]
      exact Or.inl h.2

/-- An item that forwards nothing leaves what has been yielded. -/
theorem yielded_note {history : List (Item E)} {item : Item E} (h : yielded? item = none) :
    (history ++ [item]).filterMap yielded? = history.filterMap yielded? := by
  rw [List.filterMap_append]
  simp [h]

/-- The `catch` throws, or it retries on a live signal. -/
theorem caught_cases (cfg : RetryConfig) (g : LlmClient.State E) (i : Nat) (error : Thrown E) :
    g.caught cfg i error = { g with phase := .threw error } ∨
    g.signal.reason = none ∧ (g.caught cfg i error = { g with phase := .sleeping i } ∨
      g.caught cfg i error = { g with phase := .retrying i }) := by
  unfold LlmClient.State.caught
  cases hreason : g.signal.reason with
  | some reason => exact Or.inl rfl
  | none =>
    dsimp only
    split
    · exact Or.inl rfl
    · cases error with
      | other value => exact Or.inl rfl
      | provider error =>
        dsimp only
        split
        · unfold LlmClient.State.backoff
          split
          · exact Or.inr ⟨rfl, Or.inl rfl⟩
          · rw [LlmClient.State.throwIfAborted, hreason]
            exact Or.inr ⟨rfl, Or.inr rfl⟩
        · exact Or.inl rfl

theorem place_of_moved {t : State wire E} (h : Place s) (hmoved : Moved cfg s t) : Place t := by
  cases hmoved with
  | began i hphase =>
    have hquiet : Quiet s.yielded := by
      rcases hphase with ⟨hphase, -⟩ | ⟨j, hphase, -⟩
      · exact (h.located hphase).2
      · exact (h.located hphase).2
    show Quiet ((s.gate.history ++ [Item.started i]).filterMap yielded?)
    rw [yielded_note rfl]
    exact hquiet
  | refused reason attempt hreason hphase => exact h.quiet_or
  | woke i hphase =>
    have hlocated := h.located hphase
    exact hlocated
  | pulled i d hphase hattempt =>
    obtain ⟨d', hd', htold⟩ := h.located hphase
    rw [hattempt, Attempt.held.injEq] at hd'
    subst hd'
    exact working_loop htold
  | closed attempt hphase => exact h.quiet_or
  | aborted reason hsignal =>
    show Located _ ((s.gate.history ++ [Item.aborted reason]).filterMap yielded?) _ _
    rw [yielded_note rfl]
    exact Located.aborted h reason
  | opened requestId hattempt =>
    refine h.move rfl (by simp [hattempt]) (by simp [hattempt]) ?_
    rw [hattempt]
    exact fun hquiet => ⟨wire.fresh requestId, hquiet⟩
  | openFailed error hattempt =>
    refine h.move rfl (by simp [hattempt]) (by simp [hattempt]) ?_
    rw [hattempt]
    exact Or.inl
  | read i d chunk hphase hattempt =>
    refine h.move (by simp) (by simp [hattempt]) (by simp [hattempt]) ?_
    rw [hattempt]
    exact fun hworking => working_handle hworking.1 hworking.2
  | ended i d hphase hattempt =>
    refine h.move rfl (by simp [hattempt]) (by simp [hattempt]) ?_
    rw [hattempt]
    exact id
  | readFailed d error hattempt =>
    refine h.move rfl (by simp [hattempt]) (by simp [hattempt]) ?_
    rw [hattempt]
    exact And.right
  | released d exit hattempt =>
    refine h.move (by simp) (by simp [hattempt]) (by simp [hattempt]) ?_
    rw [hattempt]
    exact working_release rfl
  | forwarded i d event hphase hattempt =>
    have hworking : Working s.gate.signal s.yielded s.attempt := h.located hphase
    rw [hattempt] at hworking
    refine ⟨d, rfl, ?_⟩
    rw [← hworking.1]
    have hyielded : State.yielded { s with gate := s.gate.forward i event, attempt := .held d } =
        s.yielded ++ [event] := List.filterMap_append
    rw [hyielded]
    exact told_append hworking.2
  | returned i hphase hattempt =>
    have hworking : Working s.gate.signal s.yielded s.attempt := h.located hphase
    rw [hattempt] at hworking
    show Concluded ((s.gate.history ++ [Item.ended i]).filterMap yielded?)
    rw [yielded_note rfl]
    exact hworking
  | caught i error hphase hattempt =>
    have hworking : Working s.gate.signal s.yielded s.attempt := by
      rcases hphase with hphase | hphase
      · exact h.located hphase
      · obtain ⟨d, hd, -⟩ := h.located hphase
        rw [hattempt] at hd
        cases hd
    rw [hattempt] at hworking
    have hyielded : (s.gate.note (.failed i error)).history.filterMap yielded? = s.yielded :=
      yielded_note rfl
    rcases caught_cases cfg.retry (s.gate.note (.failed i error)) i error with
      heq | ⟨hlive, heq | heq⟩
    · rw [heq]
      show Quiet ((s.gate.note (.failed i error)).history.filterMap yielded?) ∨
        Concluded ((s.gate.note (.failed i error)).history.filterMap yielded?)
      rw [hyielded]
      exact hworking.imp id And.left
    -- a retry: the signal is live, so the failure has not come after the message
    · rw [heq]
      refine ⟨rfl, ?_⟩
      show Quiet ((s.gate.note (.failed i error)).history.filterMap yielded?)
      rw [hyielded]
      exact hworking.resolve_right fun hlate => hlate.2 hlive
    · rw [heq]
      refine ⟨rfl, ?_⟩
      show Quiet ((s.gate.note (.failed i error)).history.filterMap yielded?)
      rw [hyielded]
      exact hworking.resolve_right fun hlate => hlate.2 hlive

theorem place_initial (wire : Wire) (signal : Signal E) : Place (initial wire signal) := by
  refine ⟨rfl, ?_⟩
  cases signal with
  | absent => rintro event ⟨⟩
  | live => rintro event ⟨⟩
  | aborted reason => rintro event ⟨⟩

end Place

/-! ## A provider stream that has ended -/

/-- The failure of an attempt whose provider stream has ended. -/
def truncation (requestId : Option String) : Thrown E :=
  .provider (.truncatedStream requestId)

/-- `runAttempt` knows that the provider stream has ended, and `retryStream` does not yet. -/
def Attempt.Truncating (signal : Signal E) : Attempt wire E → Prop
  | .releasing d .ended => wire.completed d = false
  | .settled (.failed error) =>
    (∃ requestId, error = truncation requestId) ∨ signal.reason = some error
  | _ => False

/-- What has become of attempt `i`, whose provider stream has ended. -/
inductive Surfaced (s : State wire E) (i : Nat) : Prop
  /-- The attempt is about to fail. -/
  | settling (hphase : s.gate.phase = .streaming i)
      (hattempt : s.attempt.Truncating s.gate.signal)
  /-- It has failed as a truncated stream, and another attempt has started. -/
  | retried (requestId : Option String)
      (hfailed : .failed i (truncation requestId) ∈ s.gate.history)
      (hnext : .started (i + 1) ∈ s.gate.history)
  /-- It has failed as a truncated stream, and another attempt is about to start. -/
  | retrying (requestId : Option String)
      (hfailed : .failed i (truncation requestId) ∈ s.gate.history)
      (hphase : s.gate.phase = .sleeping i ∨ s.gate.phase = .retrying i)
  /-- The truncated stream is what the client has thrown. -/
  | thrown (requestId : Option String)
      (hfailed : .failed i (truncation requestId) ∈ s.gate.history)
      (hphase : s.gate.phase = .threw (truncation requestId))
  /-- The caller has aborted, and the abort reason is what the client has thrown. -/
  | aborted (reason : Thrown E) (hreason : s.gate.signal.reason = some reason)
      (hphase : s.gate.phase = .threw reason)

section Surfaced

variable {cfg : Config E} {s t : State wire E} {i : Nat}

/-- The history only grows. -/
theorem mem_of_moved (hmoved : Moved cfg s t) {item : Item E} (h : item ∈ s.gate.history) :
    item ∈ t.gate.history := by
  cases hmoved with
  | caught i error hphase hattempt =>
    have hnote : item ∈ (s.gate.note (.failed i error)).history := List.mem_append_left _ h
    rcases caught_cases cfg.retry (s.gate.note (.failed i error)) i error with
      heq | ⟨-, heq | heq⟩
    all_goals
      show item ∈ ((s.gate.note (.failed i error)).caught cfg.retry i error).history
      rw [heq]
      exact hnote
  | began i hphase => exact List.mem_append_left _ h
  | aborted reason hsignal => exact List.mem_append_left _ h
  | forwarded i d event hphase hattempt => exact List.mem_append_left _ h
  | returned i hphase hattempt => exact List.mem_append_left _ h
  | read i d chunk hphase hattempt => rw [State.handle_gate]; exact h
  | released d exit hattempt => rw [State.release_gate]; exact h
  | _ => exact h

/-- What the client has thrown is the last thing it does. -/
theorem threw_of_moved (hmoved : Moved cfg s t) {error : Thrown E}
    (h : s.gate.phase = .threw error) :
    t.gate.phase = .threw error ∧
    ∀ reason, s.gate.signal.reason = some reason → t.gate.signal.reason = some reason := by
  cases hmoved with
  | began j hphase => rcases hphase with ⟨hphase, -⟩ | ⟨k, hphase, -⟩ <;> simp [hphase] at h
  | refused reason attempt hreason hphase =>
    rcases hphase with hphase | ⟨j, hphase | hphase⟩ <;> simp [hphase] at h
  | woke j hphase => simp [hphase] at h
  | pulled j d hphase hattempt => simp [hphase] at h
  | closed attempt hphase => rcases hphase with hphase | ⟨j, hphase⟩ <;> simp [hphase] at h
  | aborted reason hsignal =>
    refine ⟨h, ?_⟩
    intro other hother
    rw [hsignal] at hother
    cases hother
  | read j d chunk hphase hattempt => simp [hphase] at h
  | ended j d hphase hattempt => simp [hphase] at h
  | released d exit hattempt => rw [State.release_gate]; exact ⟨h, fun _ => id⟩
  | forwarded j d event hphase hattempt => simp [hphase] at h
  | returned j hphase hattempt => simp [hphase] at h
  | caught j error hphase hattempt => rcases hphase with hphase | hphase <;> simp [hphase] at h
  | _ => exact ⟨h, fun _ => id⟩

/-- `runAttempt` after its loop: the abort reason, or a truncated stream. -/
theorem truncating_release {d : wire.Decoder} {exit : Exit E}
    (h : (Attempt.releasing d exit : Attempt wire E).Truncating s.gate.signal) :
    (s.release cfg d exit).attempt.Truncating s.gate.signal := by
  cases exit with
  | ended =>
    simp only [State.release, State.conclude]
    cases hreason : s.gate.signal.reason with
    | some reason => exact Or.inr hreason
    | none =>
      have hd : wire.completed d = false := h
      dsimp only
      rw [if_neg (by rw [hd]; simp)]
      exact Or.inl ⟨s.requestId, rfl⟩
  | broke => exact h.elim
  | threw error => exact h.elim
  | closed => exact h.elim

/-- The `catch` of `retryStream` after a truncated stream. -/
theorem surfaced_caught {error : Thrown E} {attempt : Attempt wire E}
    (h : (∃ requestId, error = truncation requestId) ∨ s.gate.signal.reason = some error) :
    Surfaced { s with
      gate := (s.gate.note (.failed i error)).caught cfg.retry i error, attempt } i := by
  have hmem : .failed i error ∈ (s.gate.note (.failed i error)).history := by
    simp [LlmClient.State.note]
  rcases h with ⟨requestId, rfl⟩ | hreason
  · rcases caught_cases cfg.retry (s.gate.note (.failed i (truncation requestId))) i
      (truncation requestId) with heq | ⟨-, heq | heq⟩
    · refine .thrown requestId ?_ ?_
      · rw [heq]; exact hmem
      · rw [heq]
    · refine .retrying requestId ?_ (Or.inl ?_)
      · rw [heq]; exact hmem
      · rw [heq]
    · refine .retrying requestId ?_ (Or.inr ?_)
      · rw [heq]; exact hmem
      · rw [heq]
  · have heq : (s.gate.note (.failed i error)).caught cfg.retry i error =
        { s.gate.note (.failed i error) with phase := .threw error } := by
      have hnote : (s.gate.note (.failed i error)).signal.reason = some error := hreason
      unfold LlmClient.State.caught
      rw [hnote]
    refine .aborted error ?_ ?_
    · rw [heq]; exact hreason
    · rw [heq]

theorem surfaced_of_settling (hphase : s.gate.phase = .streaming i)
    (htruncating : s.attempt.Truncating s.gate.signal) (hmoved : Moved cfg s t) :
    Surfaced t i := by
  cases hmoved with
  | began j hj => rcases hj with ⟨hj, -⟩ | ⟨k, hj, -⟩ <;> simp [hphase] at hj
  | refused reason attempt hreason hj =>
    rcases hj with hj | ⟨j, hj | hj⟩ <;> simp [hphase] at hj
  | woke j hj => simp [hphase] at hj
  | pulled j d hj hattempt => simp [hphase] at hj
  | closed attempt hj => rcases hj with hj | ⟨j, hj⟩ <;> simp [hphase] at hj
  | aborted reason hsignal =>
    refine .settling hphase ?_
    rw [hsignal] at htruncating
    show s.attempt.Truncating (.aborted reason)
    unfold Attempt.Truncating at htruncating ⊢
    split at htruncating
    · exact htruncating
    · exact htruncating.imp id fun hreason => by cases hreason
    · exact htruncating.elim
  | opened requestId hattempt => rw [hattempt] at htruncating; exact htruncating.elim
  | openFailed error hattempt => rw [hattempt] at htruncating; exact htruncating.elim
  | read j d chunk hj hattempt => rw [hattempt] at htruncating; exact htruncating.elim
  | ended j d hj hattempt => rw [hattempt] at htruncating; exact htruncating.elim
  | readFailed d error hattempt => rw [hattempt] at htruncating; exact htruncating.elim
  | released d exit hattempt =>
    rw [hattempt] at htruncating
    refine .settling ?_ ?_
    · rw [State.release_gate]; exact hphase
    · rw [State.release_gate]; exact truncating_release htruncating
  | forwarded j d event hj hattempt => rw [hattempt] at htruncating; exact htruncating.elim
  | returned j hj hattempt => rw [hattempt] at htruncating; exact htruncating.elim
  | caught j error hj hattempt =>
    have hij : j = i := by
      rcases hj with hj | hj
      · rw [hphase] at hj; cases hj; rfl
      · rw [hphase] at hj; cases hj
    rw [hattempt] at htruncating
    rw [hij]
    exact surfaced_caught htruncating

theorem surfaced_of_retrying {requestId : Option String}
    (hfailed : .failed i (truncation requestId) ∈ s.gate.history)
    (hphase : s.gate.phase = .sleeping i ∨ s.gate.phase = .retrying i) (hmoved : Moved cfg s t) :
    Surfaced t i := by
  have hkept := mem_of_moved hmoved hfailed
  cases hmoved with
  | began j hj =>
    have hij : j = i + 1 := by
      rcases hj with ⟨hj, -⟩ | ⟨k, hj, hk⟩
      · simp [hj] at hphase
      · simp [hj] at hphase; omega
    refine .retried requestId hkept ?_
    rw [hij]
    simp [LlmClient.State.note]
  | refused reason attempt hreason hj => exact .aborted reason hreason rfl
  | woke j hj =>
    have hij : j = i := by simpa [hj] using hphase
    exact .retrying requestId hkept (Or.inr (by rw [hij]))
  | pulled j d hj hattempt => simp [hj] at hphase
  | closed attempt hj => rcases hj with hj | ⟨j, hj⟩ <;> simp [hj] at hphase
  | aborted reason hsignal => exact .retrying requestId hkept hphase
  | read j d chunk hj hattempt => simp [hj] at hphase
  | ended j d hj hattempt => simp [hj] at hphase
  | released d exit hattempt =>
    refine .retrying requestId hkept ?_
    rw [State.release_gate]
    exact hphase
  | forwarded j d event hj hattempt => simp [hj] at hphase
  | returned j hj hattempt => simp [hj] at hphase
  | caught j error hj hattempt => rcases hj with hj | hj <;> simp [hj] at hphase
  | opened requestId' hattempt => exact .retrying requestId hkept hphase
  | openFailed error hattempt => exact .retrying requestId hkept hphase
  | readFailed d error hattempt => exact .retrying requestId hkept hphase

theorem surfaced_of_moved (h : Surfaced s i) (hmoved : Moved cfg s t) : Surfaced t i := by
  cases h with
  | settling hphase hattempt => exact surfaced_of_settling hphase hattempt hmoved
  | retried requestId hfailed hnext =>
    exact .retried requestId (mem_of_moved hmoved hfailed) (mem_of_moved hmoved hnext)
  | retrying requestId hfailed hphase => exact surfaced_of_retrying hfailed hphase hmoved
  | thrown requestId hfailed hphase =>
    exact .thrown requestId (mem_of_moved hmoved hfailed) (threw_of_moved hmoved hphase).1
  | aborted reason hreason hphase =>
    obtain ⟨hthrew, hsignal⟩ := threw_of_moved hmoved hphase
    exact .aborted reason (hsignal reason hreason) hthrew

end Surfaced

/-- Everything that has ended or is ending is accounted for. -/
structure Leg (s : State wire E) : Prop where
  place : Place s
  surfaced : ∀ i, (i, none) ∈ s.reads → Surfaced s i
  /-- No attempt whose provider stream has ended has ended normally. -/
  abnormal : ∀ i, (i, none) ∈ s.reads → Item.ended i ∉ s.gate.history

section Leg

variable {cfg : Config E} {s t : State wire E}

theorem reads_of_moved (hmoved : Moved cfg s t) {i : Nat} (h : (i, none) ∈ t.reads) :
    (i, none) ∈ s.reads ∨ ∃ d, s.gate.phase = .streaming i ∧ s.attempt = .reading d ∧
      t = { s with reads := s.reads ++ [(i, none)], attempt := .releasing d .ended } := by
  cases hmoved with
  | read j d chunk hphase hattempt =>
    rw [State.handle_reads] at h
    left
    simpa using h
  | ended j d hphase hattempt =>
    rcases List.mem_append.mp h with h | h
    · exact Or.inl h
    · cases List.mem_singleton.mp h
      exact Or.inr ⟨d, hphase, hattempt, rfl⟩
  | released d exit hattempt => rw [State.release_reads] at h; exact Or.inl h
  | _ => exact Or.inl h

/-- A normal end is noted when the attempt has settled normally, and only then. -/
theorem ended_of_moved (hmoved : Moved cfg s t) {i : Nat} (h : Item.ended i ∈ t.gate.history) :
    Item.ended i ∈ s.gate.history ∨
      s.gate.phase = .streaming i ∧ s.attempt = .settled .ended ∧ t.reads = s.reads := by
  cases hmoved with
  | began j hphase => left; simpa [LlmClient.State.note] using h
  | aborted reason hsignal => left; simpa [LlmClient.State.note] using h
  | forwarded j d event hphase hattempt =>
    left
    simpa [LlmClient.State.forward, LlmClient.State.note] using h
  | returned j hphase hattempt =>
    rcases List.mem_append.mp h with h | h
    · exact Or.inl h
    · cases List.mem_singleton.mp h
      exact Or.inr ⟨hphase, hattempt, rfl⟩
  | caught j error hphase hattempt =>
    left
    have hnote : Item.ended i ∈ (s.gate.note (.failed j error)).history := by
      rcases caught_cases cfg.retry (s.gate.note (.failed j error)) j error with
        heq | ⟨-, heq | heq⟩
      all_goals
        dsimp only at h
        rw [heq] at h
        exact h
    simpa [LlmClient.State.note] using hnote
  | read j d chunk hphase hattempt => rw [State.handle_gate] at h; exact Or.inl h
  | released d exit hattempt => rw [State.release_gate] at h; exact Or.inl h
  | _ => exact Or.inl h

theorem leg_of_moved (hgate : Gate cfg.retry s.gate) (h : Leg s) (hmoved : Moved cfg s t) :
    Leg t := by
  refine ⟨place_of_moved h.place hmoved, ?_, ?_⟩
  · intro i hi
    rcases reads_of_moved hmoved hi with hi | ⟨d, hphase, hattempt, rfl⟩
    · exact surfaced_of_moved (h.surfaced i hi) hmoved
    · have hworking : Working s.gate.signal s.yielded s.attempt := h.place.located hphase
      rw [hattempt] at hworking
      exact .settling hphase hworking.1
  · intro i hi hended
    rcases ended_of_moved hmoved hended with hended | ⟨hphase, hattempt, hreads⟩
    · rcases reads_of_moved hmoved hi with hi | ⟨d, hphase, -, -⟩
      · exact h.abnormal i hi hended
      · exact (hgate.working (i := i) (by rw [hphase]; rfl)).2 i hended
    -- an attempt that settles normally is the last one, and its stream has not ended
    · rw [hreads] at hi
      cases h.surfaced i hi with
      | settling _ htruncating => rw [hattempt] at htruncating; exact htruncating
      | retried requestId _ hnext =>
        have hstarts := (hgate.working (i := i) (by rw [hphase]; rfl)).1
        have hmem : i + 1 ∈ starts s.gate.history := List.mem_filterMap.mpr ⟨_, hnext, rfl⟩
        rw [hstarts, List.mem_range] at hmem
        omega
      | retrying requestId _ hj => simp [hphase] at hj
      | thrown requestId _ hj => simp [hphase] at hj
      | aborted reason _ hj => simp [hphase] at hj

theorem leg_of_run {signal : Signal E} {ls : List (Label wire E)}
    (run : Lib.Run (step cfg) Lib.Free (initial wire signal) ls s) : Leg s := by
  refine run.invariant_of (J := fun s => Gate cfg.retry s.gate) ?_ ?_ ?_
  · intro ms u run
    obtain ⟨gls, hgls⟩ := gate_run_of_run run
    exact gate_of_run hgls
  · refine ⟨place_initial wire signal, ?_, ?_⟩
    · rintro i ⟨⟩
    · rintro i ⟨⟩
  · intro s l t _ hgate h hstep
    exact leg_of_moved hgate h (moved_of_step hstep)

end Leg

/-! ## The contract -/

/-- An attempt that is about to fail goes on: its iterator is released, or `retryStream` resumes. -/
theorem goes_on (cfg : Config E) {s : State wire E} {i : Nat} (hphase : s.gate.phase = .streaming i)
    (hattempt : s.attempt.Truncating s.gate.signal) :
    (step cfg s .released).isSome = true ∨ (step cfg s .deliver).isSome = true := by
  unfold Attempt.Truncating at hattempt
  split at hattempt
  · next d heq => exact Or.inl (by simp only [step, heq, Option.isSome_some])
  · next error heq =>
    right
    simp only [step, heq, LlmClient.step, hphase, Option.map_some, Option.isSome_some]
  · exact hattempt.elim

/-- **The leg contract** of `streamMessage`: it yields deltas and after them at most one completed
message, it returns only after that message, and an attempt whose provider stream has ended without
the terminal event never ends normally: it surfaces as a truncated stream, or is retried because of
it, unless the caller aborts, and then the abort reason is thrown. -/
theorem leg_contract (provider : Provider) (jsonParse : String → Option Json) (cfg : Config E)
    {signal : Signal E} {ls : List (Label (provider.wire jsonParse) E)}
    {s : State (provider.wire jsonParse) E}
    (run : Lib.Run (step cfg) Lib.Free (initial (provider.wire jsonParse) signal) ls s) :
    (Quiet s.yielded ∨ Concluded s.yielded) ∧
    (s.gate.phase = .returned → Concluded s.yielded) ∧
    ∀ i, (i, none) ∈ s.reads →
      Item.ended i ∉ s.gate.history ∧ Surfaced s i ∧
      (s.gate.phase = .streaming i → s.attempt.Truncating s.gate.signal →
        (step cfg s .released).isSome = true ∨ (step cfg s .deliver).isSome = true) := by
  have h := leg_of_run run
  refine ⟨h.place.quiet_or, ?_, ?_⟩
  · intro hphase
    exact h.place.located hphase
  · intro i hi
    exact ⟨h.abnormal i hi, h.surfaced i hi, goes_on cfg⟩

/-! ### Concrete streams -/

/-- Three retries without a delay. -/
def promptly : Config Unit :=
  { retry := { maxRetries := 3, baseDelayS := (0 : ℚ), maxDelayS := (30 : ℚ), statusCodes := [] }
    idleTimeout := "90"
    raised := fun _ => .other "failed" }

/-- The signal has aborted, and its reason is what the client has thrown. -/
def throwsReason (s : State wire Unit) : Bool :=
  match s.gate.signal, s.gate.phase with
  | .aborted (.other _), .threw (.other _) => true
  | _, _ => false

/-- The provider stream of attempt `i` has ended. -/
def endedAt (s : State wire E) (i : Nat) : Bool :=
  s.reads.any fun read => read.1 == i && read.2.isNone

theorem mem_reads_of_endedAt {s : State wire E} {i : Nat} (h : endedAt s i = true) :
    (i, none) ∈ s.reads := by
  obtain ⟨⟨j, chunk⟩, hmem, hread⟩ := List.any_eq_true.mp h
  rw [Bool.and_eq_true, beq_iff_eq, Option.isNone_iff_eq_none] at hread
  obtain ⟨rfl, rfl⟩ := hread
  exact hmem

def isReturned (s : State wire E) : Bool :=
  match s.gate.phase with
  | .returned => true
  | _ => false

theorem phase_of_isReturned {s : State wire E} (h : isReturned s = true) :
    s.gate.phase = .returned := by
  unfold isReturned at h
  split at h
  · next hphase => exact hphase
  · cases h

/-- A truncated first attempt is retried, and the second one completes. -/
theorem leg_contract_retried :
    ∃ s : State (Provider.anthropicApi.wire fun _ => none) Unit,
      Concluded s.yielded ∧ (0, none) ∈ s.reads ∧ Item.ended 0 ∉ s.gate.history := by
  obtain ⟨s, run, hs⟩ := Lib.exists_run (step promptly) Lib.Free
    (initial (Provider.anthropicApi.wire fun _ => none) .live)
    [.next, .opened none, .done, .released, .deliver, .resume, .opened none,
      .chunk (.contentBlockDelta 0 (.textDelta "a")), .deliver, .next,
      .chunk Anthropic.RawMessageStreamEvent.messageStop, .deliver, .next, .released, .deliver]
    (fun s => isReturned s && endedAt s 0) (by decide +kernel)
  rw [Bool.and_eq_true] at hs
  have h := leg_contract .anthropicApi (fun _ => none) promptly run
  have hread := mem_reads_of_endedAt hs.2
  exact ⟨s, h.2.1 (phase_of_isReturned hs.1), hread, (h.2.2 0 hread).1⟩

/-- After an abort the stream of the sdk ends without throwing, and no truncated stream surfaces:
the attempt fails with the abort reason. -/
theorem aborted_stream :
    ∃ (ls : List (Label (Provider.anthropicApi.wire fun _ => none) Unit)) (s : State _ Unit),
      Lib.Run (step promptly) Lib.Free
        (initial (Provider.anthropicApi.wire fun _ => none) .live) ls s ∧
      (0, none) ∈ s.reads ∧ throwsReason s = true ∧
      ∀ i requestId, Item.failed i (truncation requestId) ∉ s.gate.history := by
  obtain ⟨s, run, hs⟩ := Lib.exists_run (step promptly) Lib.Free
    (initial (Provider.anthropicApi.wire fun _ => none) .live)
    [.next, .opened none, .abort (.other ()), .done, .released, .deliver]
    (fun s => endedAt s 0 && (throwsReason s && s.gate.history.all fun item =>
      match item with | .failed _ (.provider _) => false | _ => true)) (by decide +kernel)
  rw [Bool.and_eq_true, Bool.and_eq_true] at hs
  refine ⟨_, s, run, mem_reads_of_endedAt hs.1, hs.2.1, ?_⟩
  intro i requestId hmem
  cases List.all_eq_true.mp hs.2.2 _ hmem

end EphemeralAgent.LlmClient.StreamClient
