import EphemeralAgent.LlmClient.Decode
import EphemeralAgent.LlmClient.LegContract

/-!
# The client hands on what one decoder has yielded

Whatever is retried, the events that the consumer gets are those of one decoder over the chunks of
one attempt, each once and in order.

* `chunksOf` — what the provider stream of an attempt has handed out
* `yields` — what a decoder yields over a stream of chunks, up to its first failure
* `Followed` — the invariant, by the place where the client is suspended
* `faithful_of_run` — it holds in every run
-/

namespace EphemeralAgent.LlmClient.StreamClient

variable {wire : Wire} {E : Type*}

/-! ## The chunks of an attempt -/

/-- What the provider stream of this attempt has handed out. -/
def chunksOf (reads : List (Nat × Option wire.Chunk)) (i : Nat) : List wire.Chunk :=
  reads.filterMap fun read => if read.1 = i then read.2 else none

theorem chunksOf_append (reads more : List (Nat × Option wire.Chunk)) (i : Nat) :
    chunksOf (reads ++ more) i = chunksOf reads i ++ chunksOf more i :=
  List.filterMap_append

theorem chunksOf_read (reads : List (Nat × Option wire.Chunk)) (i : Nat) (chunk : wire.Chunk) :
    chunksOf (reads ++ [(i, some chunk)]) i = chunksOf reads i ++ [chunk] := by
  simp [chunksOf]

theorem chunksOf_done (reads : List (Nat × Option wire.Chunk)) (i : Nat) :
    chunksOf (reads ++ [(i, none)]) i = chunksOf reads i := by
  simp [chunksOf]

/-- An attempt that comes after all that has been read. -/
theorem chunksOf_later {reads : List (Nat × Option wire.Chunk)} {i : Nat}
    (h : ∀ read ∈ reads, read.1 < i) : chunksOf reads i = [] := by
  refine List.filterMap_eq_nil_iff.mpr fun read hread => ?_
  have hlt := h read hread
  rw [if_neg (by omega)]

/-! ## What a decoder yields -/

/-- What a decoder yields over these chunks, until it fails. -/
def yields (wire : Wire) : wire.Decoder → List wire.Chunk → List LlmStreamEvent
  | _, [] => []
  | d, chunk :: rest =>
    match wire.handle d chunk with
    | .ok (d', yielded) => yielded.toList ++ yields wire d' rest
    | .error _ => []

theorem yields_of_decode {d d' : wire.Decoder} {chunks : List wire.Chunk}
    {events : List LlmStreamEvent} (h : decode wire.handle d chunks = .ok (d', events))
    (rest : List wire.Chunk) : yields wire d (chunks ++ rest) = events ++ yields wire d' rest := by
  induction chunks generalizing d events with
  | nil =>
    cases h
    rfl
  | cons chunk more ih =>
    cases hchunk : wire.handle d chunk with
    | error error => simp [decode, hchunk, Except.bind] at h
    | ok next =>
      cases hmore : decode wire.handle next.1 more with
      | error error => simp [decode, hchunk, Except.bind, hmore, Except.map] at h
      | ok found =>
        rw [decode_cons hchunk hmore] at h
        cases h
        simp only [List.cons_append, yields, hchunk, ih hmore, List.append_assoc]

/-- A decoder has read these chunks, or it has failed at the last of them. -/
inductive Reads (wire : Wire) (requestId : Option String) (chunks : List wire.Chunk)
    (events : List LlmStreamEvent) : Prop
  | all (d : wire.Decoder)
      (hdecode : decode wire.handle (wire.decoder requestId) chunks = .ok (d, events))
  | failed (before : List wire.Chunk) (last : wire.Chunk) (d : wire.Decoder)
      (error : ProviderError) (hchunks : chunks = before ++ [last])
      (hdecode : decode wire.handle (wire.decoder requestId) before = .ok (d, events))
      (hlast : wire.handle d last = .error error)

theorem Reads.yields {requestId : Option String} {chunks : List wire.Chunk}
    {events : List LlmStreamEvent} (h : Reads wire requestId chunks events) :
    yields wire (wire.decoder requestId) chunks = events := by
  cases h with
  | all d hdecode =>
    have hyields := yields_of_decode hdecode []
    rw [List.append_nil] at hyields
    simpa [StreamClient.yields] using hyields
  | failed before last d error hchunks hdecode hlast =>
    rw [hchunks, yields_of_decode hdecode [last]]
    simp [StreamClient.yields, hlast]

/-- An item that forwards nothing. -/
theorem yielded_item (s : State wire E) (item : Item E) (h : yielded? item = none) :
    (s.gate.history ++ [item]).filterMap yielded? = s.yielded :=
  yielded_note h

/-! ## The invariant -/

/-- What the attempt that is at work has decoded, and what of it the consumer has. -/
def Follows (requestId : Option String) (chunks : List wire.Chunk) (events : List LlmStreamEvent) :
    Attempt wire E → Prop
  | .opening => chunks = [] ∧ events = []
  | .reading d => decode wire.handle (wire.decoder requestId) chunks = .ok (d, events)
  | .offering d event =>
    decode wire.handle (wire.decoder requestId) chunks = .ok (d, events ++ [event])
  | .releasing _ .closed | .held _ | .idle => False
  | .releasing _ _ | .settled _ => Reads wire requestId chunks events

/-- Nothing has been read of a later attempt. -/
def Within (s : State wire E) (i : Nat) : Prop :=
  ∀ read ∈ s.reads, read.1 ≤ i

/-- Some attempt has been read as far as this. -/
def Settled (s : State wire E) : Prop :=
  ∃ requestId i, Reads wire requestId (chunksOf s.reads i) s.yielded

/-- What the consumer has, by the place where `retryStream` is suspended. -/
def Stands (s : State wire E) : Phase E → Prop
  | .created => s.reads = [] ∧ s.yielded = []
  | .streaming i => Within s i ∧ Follows s.requestId (chunksOf s.reads i) s.yielded s.attempt
  | .yielded i => Within s i ∧ s.yielded ≠ [] ∧ ∃ d, s.attempt = .held d ∧
      decode wire.handle (wire.decoder s.requestId) (chunksOf s.reads i) = .ok (d, s.yielded)
  | .sleeping i | .retrying i => Within s i ∧ s.yielded = [] ∧ Settled s
  | .returned | .threw _ | .closed => Settled s

/-- The consumer has what the attempt has decoded. -/
def Followed (s : State wire E) : Prop :=
  Stands s s.gate.phase

section Followed

variable {cfg : Config E} {s : State wire E}

theorem Followed.stands (h : Followed s) {phase : Phase E} (hphase : s.gate.phase = phase) :
    Stands s phase :=
  hphase ▸ h

/-- What is settled stays so when no event is forwarded and nothing is read. -/
theorem Settled.keep {t : State wire E} (h : Settled s) (hreads : t.reads = s.reads)
    (hyielded : t.yielded = s.yielded) : Settled t := by
  obtain ⟨requestId, i, hread⟩ := h
  refine ⟨requestId, i, ?_⟩
  rw [hreads, hyielded]
  exact hread

/-- Nothing but the signal has changed. -/
theorem Followed.keep (h : Followed s) {t : State wire E} (hphase : t.gate.phase = s.gate.phase)
    (hyielded : t.yielded = s.yielded) (hreads : t.reads = s.reads)
    (hrequestId : t.requestId = s.requestId) (hattempt : t.attempt = s.attempt) : Followed t := by
  unfold Followed at h ⊢
  rw [hphase]
  revert h
  generalize s.gate.phase = phase
  cases phase <;> simp only [Stands, Within, Settled, hreads, hyielded, hrequestId, hattempt, imp_self]

/-- A move of an attempt that is at work. -/
theorem Followed.move (h : Followed s) {t : State wire E} (hgate : t.gate = s.gate)
    (hreads : t.reads = s.reads) (hheld : ∀ d, s.attempt ≠ .held d)
    (hfollows : ∀ chunks, Follows s.requestId chunks s.yielded s.attempt →
      Follows t.requestId chunks s.yielded t.attempt) : Followed t := by
  have hyielded : t.yielded = s.yielded := by rw [State.yielded, hgate, State.yielded]
  have hwithin : ∀ i, Within s i → Within t i := by
    intro i hi read hread
    rw [hreads] at hread
    exact hi read hread
  unfold Followed at h ⊢
  rw [hgate]
  cases hphase : s.gate.phase with
  | created =>
    rw [hphase] at h
    exact ⟨hreads.trans h.1, hyielded.trans h.2⟩
  | streaming i =>
    rw [hphase] at h
    refine ⟨hwithin i h.1, ?_⟩
    rw [hreads, hyielded]
    exact hfollows _ h.2
  | yielded i =>
    rw [hphase] at h
    obtain ⟨-, -, d, hd, -⟩ := h
    exact absurd hd (hheld d)
  | sleeping i | retrying i =>
    rw [hphase] at h
    exact ⟨hwithin i h.1, hyielded.trans h.2.1, h.2.2.keep hreads hyielded⟩
  | returned | threw error | closed =>
    rw [hphase] at h
    exact h.keep hreads hyielded

theorem settled_nil (s : State wire E) (hyielded : s.yielded = []) {i : Nat}
    (hreads : chunksOf s.reads i = []) : Settled s := by
  refine ⟨none, i, .all (wire.decoder none) ?_⟩
  rw [hreads, hyielded]
  rfl

/-- The attempt goes on after a chunk that its decoder has taken. -/
theorem follows_loop {requestId : Option String} {chunks : List wire.Chunk}
    {events : List LlmStreamEvent} {d : wire.Decoder}
    (h : decode wire.handle (wire.decoder requestId) chunks = .ok (d, events)) :
    Follows requestId chunks events (s.loop d).attempt := by
  unfold State.loop
  by_cases hd : wire.completed d = true
  · rw [if_pos hd]
    exact .all d h
  · rw [if_neg hd]
    exact h

/-- **One chunk.** -/
theorem follows_handle {requestId : Option String} {chunks : List wire.Chunk}
    {events : List LlmStreamEvent} {d : wire.Decoder} (chunk : wire.Chunk)
    (h : decode wire.handle (wire.decoder requestId) chunks = .ok (d, events)) :
    Follows requestId (chunks ++ [chunk]) events (s.handle d chunk).attempt := by
  unfold State.handle
  split
  · next d' event hchunk => exact decode_snoc h hchunk
  · next d' hchunk =>
    have hnext := decode_snoc h hchunk
    rw [Option.toList_none, List.append_nil] at hnext
    exact follows_loop hnext
  · next error hchunk => exact .failed chunks chunk d error rfl h hchunk

theorem follows_release {requestId : Option String} {chunks : List wire.Chunk}
    {events : List LlmStreamEvent} {d : wire.Decoder} {exit : Exit E}
    (h : Follows requestId chunks events (.releasing d exit : Attempt wire E)) :
    Follows requestId chunks events (s.release cfg d exit).attempt := by
  cases exit with
  | closed => exact h.elim
  | broke | ended | threw error => exact h

/-- A retry has shown nothing. -/
theorem invisible_of_caught {retry : RetryConfig} {g : LlmClient.State E} {i : Nat}
    {error : Thrown E} (h : ∀ thrown, (g.caught retry i error).phase ≠ .threw thrown) :
    g.emittedVisible = false := by
  unfold LlmClient.State.caught at h
  split at h
  · exact absurd rfl (h error)
  · split at h
    · exact absurd rfl (h error)
    · next hgo =>
      rw [not_or, Bool.not_eq_true] at hgo
      exact hgo.1

/-- What is not visible and not complete has not been yielded. -/
theorem yielded_eq_nil (hgate : Gate cfg.retry s.gate) (hquiet : Quiet s.yielded)
    (hinvisible : s.gate.emittedVisible = false) : s.yielded = [] := by
  refine List.eq_nil_iff_forall_not_mem.mpr fun event hevent => ?_
  obtain ⟨item, hitem, hyielded⟩ := List.mem_filterMap.mp hevent
  have hvisible : isVisible event = true := by
    have hincomplete := hquiet event hevent
    cases event with
    | assistantMessageComplete message usage stopReason => cases hincomplete
    | _ => rfl
  cases item with
  | forwarded i shown =>
    cases hyielded
    have hshown := hgate.visible.mpr ⟨i, _, hitem, event, rfl, hvisible⟩
    rw [hinvisible] at hshown
    cases hshown
  | _ => cases hyielded

theorem State.handle_requestId (s : State wire E) (d : wire.Decoder) (chunk : wire.Chunk) :
    (s.handle d chunk).requestId = s.requestId := by
  unfold State.handle
  split <;> rfl

theorem State.release_requestId (cfg : Config E) (s : State wire E) (d : wire.Decoder)
    (exit : Exit E) : (s.release cfg d exit).requestId = s.requestId := by
  cases exit <;> rfl

theorem Followed.of_streaming {i : Nat} (hphase : s.gate.phase = .streaming i)
    (hwithin : Within s i)
    (hfollows : Follows s.requestId (chunksOf s.reads i) s.yielded s.attempt) : Followed s := by
  unfold Followed
  rw [hphase]
  exact ⟨hwithin, hfollows⟩

/-- Something of an attempt is read. -/
theorem within_read {i : Nat} {chunk : Option wire.Chunk} (h : Within s i) :
    ∀ read ∈ s.reads ++ [(i, chunk)], read.1 ≤ i := by
  intro read hread
  rcases List.mem_append.mp hread with hold | hnew
  · exact h read hold
  · rw [List.mem_singleton.mp hnew]

/-- Nothing has been read before the start. -/
theorem Followed.settled_of_created (h : Followed s) (hphase : s.gate.phase = .created) :
    Settled s := by
  obtain ⟨hreads, hyielded⟩ := h.stands hphase
  refine settled_nil s hyielded (i := 0) ?_
  rw [hreads]
  rfl

/-- An attempt begins when nothing is read of it, and nothing is yielded. -/
theorem Followed.fresh (h : Followed s) {i : Nat}
    (hphase : s.gate.phase = .created ∧ i = 0 ∨ ∃ j, s.gate.phase = .retrying j ∧ i = j + 1) :
    chunksOf s.reads i = [] ∧ s.yielded = [] ∧ Within s i := by
  rcases hphase with ⟨hphase, -⟩ | ⟨j, hphase, rfl⟩
  · obtain ⟨hreads, hyielded⟩ := h.stands hphase
    refine ⟨by rw [hreads]; rfl, hyielded, ?_⟩
    intro read hread
    rw [hreads] at hread
    cases hread
  · obtain ⟨hwithin, hyielded, -⟩ := h.stands hphase
    refine ⟨chunksOf_later fun read hread => ?_, hyielded, fun read hread => ?_⟩
    · have hle := hwithin read hread
      omega
    · have hle := hwithin read hread
      omega

/-- A chunk is read, and decoded. -/
theorem Followed.read (h : Followed s) {i : Nat} {d : wire.Decoder}
    (hphase : s.gate.phase = .streaming i) (hattempt : s.attempt = .reading d)
    (chunk : wire.Chunk) :
    Followed ({ s with reads := s.reads ++ [(i, some chunk)] }.handle d chunk) := by
  obtain ⟨hwithin, hfollows⟩ := h.stands hphase
  rw [hattempt] at hfollows
  have hchunks : chunksOf (s.reads ++ [(i, some chunk)]) i = chunksOf s.reads i ++ [chunk] :=
    chunksOf_read s.reads i chunk
  have hread := follows_handle (s := { s with reads := s.reads ++ [(i, some chunk)] }) chunk
    hfollows
  rw [← hchunks] at hread
  refine Followed.of_streaming (by rw [State.handle_gate]; exact hphase) ?_ ?_
  · rw [Within, State.handle_reads]
    exact within_read hwithin
  · rw [State.handle_reads, State.handle_requestId, State.yielded, State.handle_gate]
    exact hread

/-- An attempt that has failed is caught: it is thrown on, or it is retried with nothing shown. -/
theorem Followed.caught (h : Followed s) (hplace : Place s) (hgate : Gate cfg.retry s.gate)
    {i : Nat} {error : Thrown E} (hphase : s.gate.phase = .streaming i ∨ s.gate.phase = .yielded i)
    (hattempt : s.attempt = .settled (.failed error)) :
    Followed { s with
      gate := (s.gate.note (.failed i error)).caught cfg.retry i error, attempt := .idle } := by
  have hlocated : s.gate.phase = .streaming i := by
    refine hphase.resolve_right fun hheld => ?_
    obtain ⟨-, -, d, hd, -⟩ := h.stands hheld
    rw [hattempt] at hd
    cases hd
  obtain ⟨hwithin, hfollows⟩ := h.stands hlocated
  have hworking : Working s.gate.signal s.yielded s.attempt := hplace.located hlocated
  rw [hattempt] at hfollows hworking
  have hsettled : Settled s := ⟨s.requestId, i, hfollows⟩
  have hyielded : (s.gate.note (.failed i error)).history.filterMap yielded? = s.yielded :=
    yielded_note rfl
  -- a retry has a live signal and has shown nothing
  have hnone : s.gate.signal.reason = none →
      (∀ thrown, ((s.gate.note (.failed i error)).caught cfg.retry i error).phase ≠
        .threw thrown) → s.yielded = [] := by
    intro hlive hretries
    refine yielded_eq_nil hgate (hworking.resolve_right fun hlate => hlate.2 hlive) ?_
    exact invisible_of_caught (g := s.gate.note (.failed i error)) hretries
  rcases caught_cases cfg.retry (s.gate.note (.failed i error)) i error with
    heq | ⟨hlive, heq | heq⟩
  · rw [heq]
    exact hsettled.keep rfl hyielded
  · rw [heq] at hnone ⊢
    refine ⟨hwithin, hyielded.trans (hnone hlive fun thrown hthrown => ?_),
      hsettled.keep rfl hyielded⟩
    cases hthrown
  · rw [heq] at hnone ⊢
    refine ⟨hwithin, hyielded.trans (hnone hlive fun thrown hthrown => ?_),
      hsettled.keep rfl hyielded⟩
    cases hthrown

/-- **One block of the client.** -/
theorem followed_of_moved {t : State wire E} (hplace : Place s) (hgate : Gate cfg.retry s.gate)
    (h : Followed s) (hmoved : Moved cfg s t) : Followed t := by
  cases hmoved with
  | began i hphase =>
    obtain ⟨hchunks, hyielded, hwithin⟩ := h.fresh hphase
    refine ⟨hwithin, hchunks, ?_⟩
    show (s.gate.history ++ [Item.started i]).filterMap yielded? = []
    rw [yielded_note rfl]
    exact hyielded
  | refused reason attempt hreason hphase =>
    rcases hphase with hphase | ⟨i, hphase | hphase⟩
    · exact (h.settled_of_created hphase).keep rfl rfl
    · exact (h.stands hphase).2.2.keep rfl rfl
    · exact (h.stands hphase).2.2.keep rfl rfl
  | woke i hphase =>
    obtain ⟨hwithin, hyielded, hsettled⟩ := h.stands hphase
    exact ⟨hwithin, hyielded, hsettled.keep rfl rfl⟩
  | pulled i d hphase hattempt =>
    obtain ⟨hwithin, -, d', hd', hdecode⟩ := h.stands hphase
    rw [hattempt, Attempt.held.injEq] at hd'
    subst hd'
    exact ⟨hwithin, follows_loop hdecode⟩
  | closed attempt hphase =>
    rcases hphase with hphase | ⟨i, hphase⟩
    · exact (h.settled_of_created hphase).keep rfl rfl
    · obtain ⟨-, -, d, -, hdecode⟩ := h.stands hphase
      exact ⟨s.requestId, i, .all d hdecode⟩
  | aborted reason hsignal =>
    refine h.keep rfl ?_ rfl rfl rfl
    exact yielded_item s (.aborted reason) rfl
  | opened requestId hattempt =>
    refine h.move rfl rfl (by simp [hattempt]) fun chunks hopening => ?_
    rw [hattempt] at hopening
    obtain ⟨rfl, hyielded⟩ := hopening
    show decode wire.handle (wire.decoder requestId) [] = .ok (wire.decoder requestId, s.yielded)
    rw [hyielded]
    rfl
  | openFailed error hattempt =>
    refine h.move rfl rfl (by simp [hattempt]) fun chunks hopening => ?_
    rw [hattempt] at hopening
    obtain ⟨rfl, hyielded⟩ := hopening
    rw [hyielded]
    exact .all (wire.decoder s.requestId) rfl
  | read i d chunk hphase hattempt => exact h.read hphase hattempt chunk
  | ended i d hphase hattempt =>
    obtain ⟨hwithin, hfollows⟩ := h.stands hphase
    rw [hattempt] at hfollows
    refine Followed.of_streaming hphase (within_read hwithin) ?_
    rw [chunksOf_done]
    exact .all d hfollows
  | readFailed d error hattempt =>
    refine h.move rfl rfl (by simp [hattempt]) fun chunks hreading => ?_
    rw [hattempt] at hreading
    exact .all d hreading
  | released d exit hattempt =>
    refine h.move (by simp) (by simp) (by simp [hattempt]) fun chunks hreleasing => ?_
    rw [hattempt] at hreleasing
    rw [State.release_requestId]
    exact follows_release hreleasing
  | forwarded i d event hphase hattempt =>
    obtain ⟨hwithin, hfollows⟩ := h.stands hphase
    rw [hattempt] at hfollows
    have hyielded : State.yielded { s with gate := s.gate.forward i event, attempt := .held d } =
        s.yielded ++ [event] := List.filterMap_append
    refine ⟨hwithin, ?_, d, rfl, ?_⟩
    · rw [hyielded]
      simp
    · rw [hyielded]
      exact hfollows
  | returned i hphase hattempt =>
    obtain ⟨-, hfollows⟩ := h.stands hphase
    rw [hattempt] at hfollows
    refine Settled.keep (s := s) ⟨s.requestId, i, hfollows⟩ rfl ?_
    exact yielded_item s (.ended i) rfl
  | caught i error hphase hattempt => exact h.caught hplace hgate hphase hattempt

theorem followed_of_run {signal : Signal E} {ls : List (Label wire E)}
    (run : Lib.Run (step cfg) Lib.Free (initial wire signal) ls s) : Followed s := by
  refine run.invariant_of (J := fun s => Leg s ∧ Gate cfg.retry s.gate) ?_ ?_ ?_
  · intro ms u run
    obtain ⟨gls, hgls⟩ := gate_run_of_run run
    exact ⟨leg_of_run run, gate_of_run hgls⟩
  · exact ⟨rfl, by cases signal <;> rfl⟩
  · intro s l t _ hleg h hstep
    exact followed_of_moved hleg.1.place hleg.2 h (moved_of_step hstep)

end Followed

/-! ## What the consumer gets -/

/-- The event that `retryStream` is about to get. -/
def State.onItsWay (s : State wire E) : List LlmStreamEvent :=
  match s.gate.phase, s.attempt with
  | .streaming _, .offering _ event => [event]
  | _, _ => []

/-- **What the client yields is what one decoder yields** over the chunks of one attempt. -/
def Faithful (s : State wire E) : Prop :=
  ∃ requestId i, s.yielded ++ s.onItsWay = yields wire (wire.decoder requestId) (chunksOf s.reads i)

/-- What the consumer has got. -/
def State.taken (s : State wire E) : List LlmStreamEvent :=
  match s.gate.phase with
  | .yielded _ => s.yielded.dropLast
  | _ => s.yielded

section Consumer

variable {cfg : Config E} {s t : State wire E} {l : Label wire E}

theorem Settled.faithful (h : Settled s) (hphase : ∀ i, s.gate.phase ≠ .streaming i) :
    Faithful s := by
  obtain ⟨requestId, i, hreads⟩ := h
  refine ⟨requestId, i, ?_⟩
  have hnone : s.onItsWay = [] := by
    unfold State.onItsWay
    split
    · next j d event hstreaming _ => exact absurd hstreaming (hphase j)
    · rfl
  rw [hnone, List.append_nil]
  exact hreads.yields.symm

theorem Followed.faithful (h : Followed s) : Faithful s := by
  cases hphase : s.gate.phase with
  | created =>
    exact (h.settled_of_created hphase).faithful (by simp [hphase])
  | streaming i =>
    obtain ⟨-, hfollows⟩ := h.stands hphase
    have hreads : Reads wire s.requestId (chunksOf s.reads i) (s.yielded ++ s.onItsWay) := by
      unfold State.onItsWay
      rw [hphase]
      cases hattempt : s.attempt with
      | opening =>
        rw [hattempt] at hfollows
        obtain ⟨hchunks, hyielded⟩ := hfollows
        rw [hchunks, hyielded]
        exact .all _ rfl
      | reading d =>
        rw [hattempt] at hfollows
        rw [List.append_nil]
        exact .all d hfollows
      | offering d event =>
        rw [hattempt] at hfollows
        exact .all d hfollows
      | releasing d exit =>
        rw [hattempt] at hfollows
        rw [List.append_nil]
        cases exit with
        | closed => exact hfollows.elim
        | _ => exact hfollows
      | settled result =>
        rw [hattempt] at hfollows
        rw [List.append_nil]
        exact hfollows
      | idle | held d =>
        rw [hattempt] at hfollows
        exact hfollows.elim
    exact ⟨s.requestId, i, hreads.yields.symm⟩
  | yielded i =>
    obtain ⟨-, -, d, -, hdecode⟩ := h.stands hphase
    exact Settled.faithful ⟨s.requestId, i, .all d hdecode⟩ (by simp [hphase])
  | sleeping i | retrying i => exact (h.stands hphase).2.2.faithful (by simp [hphase])
  | returned | threw error | closed => exact Settled.faithful (h.stands hphase) (by simp [hphase])

/-- A client that has yielded waits for its consumer, or for an abort. -/
theorem yielded_waits (hplace : Place s) {i : Nat} (hphase : s.gate.phase = .yielded i)
    (hnext : l ≠ .next) (hclose : l ≠ .close) (habort : ∀ reason, l ≠ .abort reason) :
    step cfg s l = none := by
  obtain ⟨d, hattempt, -⟩ := hplace.located hphase
  cases l with
  | next => exact absurd rfl hnext
  | close => exact absurd rfl hclose
  | abort reason => exact absurd rfl (habort reason)
  | _ => simp [step, LlmClient.step, hattempt, hphase]

/-- A client that has yielded nothing new. -/
theorem taken_eq_yielded (hphase : ∀ i, s.gate.phase ≠ .yielded i) : s.taken = s.yielded := by
  unfold State.taken
  split
  · next i hyielded => exact absurd hyielded (hphase i)
  · rfl

theorem taken_of_quiet (hphase : ∀ i, s.gate.phase ≠ .yielded i)
    (hnext : ∀ i, t.gate.phase ≠ .yielded i) (hyielded : t.yielded = s.yielded) :
    t.taken = s.taken := by
  rw [taken_eq_yielded hnext, taken_eq_yielded hphase, hyielded]

/-- **What the consumer has got changes only when it asks.** -/
theorem taken_of_moved (hmoved : Moved cfg s t) (hphase : ∀ i, s.gate.phase ≠ .yielded i) :
    t.taken = s.taken := by
  cases hmoved with
  | began i =>
    exact taken_of_quiet hphase (by simp) (yielded_item s (.started i) rfl)
  | refused | woke | closed => exact taken_of_quiet hphase (by simp) rfl
  | pulled i d hyielded => exact absurd hyielded (hphase i)
  | aborted reason =>
    exact taken_of_quiet hphase hphase (yielded_item s (.aborted reason) rfl)
  | opened | openFailed | ended | readFailed => exact taken_of_quiet hphase hphase rfl
  | read i d chunk =>
    refine taken_of_quiet hphase (by simpa using hphase) ?_
    rw [State.yielded, State.handle_gate]
    rfl
  | released d exit =>
    refine taken_of_quiet hphase (by simpa using hphase) ?_
    rw [State.yielded, State.release_gate]
    rfl
  | forwarded i d event =>
    have hyielded : State.yielded { s with gate := s.gate.forward i event, attempt := .held d } =
        s.yielded ++ [event] := List.filterMap_append
    rw [taken_eq_yielded hphase]
    show (State.yielded { s with gate := s.gate.forward i event, attempt := .held d }).dropLast = _
    rw [hyielded, List.dropLast_concat]
  | returned i =>
    exact taken_of_quiet hphase (by simp) (yielded_item s (.ended i) rfl)
  | caught i error =>
    have hyielded : (s.gate.note (.failed i error)).history.filterMap yielded? = s.yielded :=
      yielded_note rfl
    rcases caught_cases cfg.retry (s.gate.note (.failed i error)) i error with
      heq | ⟨-, heq | heq⟩ <;>
    · rw [heq]
      exact taken_of_quiet hphase (by simp) hyielded

/-- A client that the consumer has begun to read, and has not closed. -/
def State.IsOpen (s : State wire E) : Prop :=
  s.gate.phase ≠ .created ∧ s.gate.phase ≠ .closed

/-- Only the consumer opens the client and closes it. -/
theorem isOpen_of_moved (hmoved : Moved cfg s t) (hphase : ∀ i, s.gate.phase ≠ .yielded i)
    (h : s.IsOpen) : t.IsOpen := by
  cases hmoved with
  | closed attempt hclosed =>
    rcases hclosed with hcreated | ⟨i, hyielded⟩
    · exact absurd hcreated h.1
    · exact absurd hyielded (hphase i)
  | began | refused | woke | forwarded | returned => exact ⟨nofun, nofun⟩
  | pulled i d hyielded => exact absurd hyielded (hphase i)
  | caught i error =>
    rcases caught_cases cfg.retry (s.gate.note (.failed i error)) i error with
      heq | ⟨-, heq | heq⟩ <;>
    · rw [heq]
      exact ⟨by simp, by simp⟩
  | read | released => exact ⟨by simpa using h.1, by simpa using h.2⟩
  | _ => exact h

/-- The consumer has closed the client, which may still be releasing its attempt. -/
structure State.IsClosed (s : State wire E) : Prop where
  phase : s.gate.phase = .closed
  attempt : s.attempt = .idle ∨ ∃ d, s.attempt = .releasing d .closed

/-- A closed client yields no more. -/
theorem isClosed_of_moved (hmoved : Moved cfg s t) (h : s.IsClosed) :
    t.IsClosed ∧ t.yielded = s.yielded := by
  obtain ⟨hclosed, hattempt⟩ := h
  have hidle : ∀ attempt : Attempt wire E, s.attempt = attempt →
      attempt = .idle ∨ ∃ d, attempt = .releasing d .closed := by
    rintro attempt rfl
    exact hattempt
  cases hmoved with
  | aborted reason =>
    exact ⟨⟨hclosed, hattempt⟩, yielded_item s (.aborted reason) rfl⟩
  | released d exit hreleasing =>
    rcases hidle _ hreleasing with hidle | ⟨d', hclosing⟩
    · cases hidle
    · cases hclosing
      exact ⟨⟨hclosed, Or.inl rfl⟩, rfl⟩
  | opened requestId hopening | openFailed error hopening =>
    rcases hidle _ hopening with hidle | ⟨d, hclosing⟩
    · cases hidle
    · cases hclosing
  | readFailed d error hreading =>
    rcases hidle _ hreading with hidle | ⟨d, hclosing⟩
    · cases hidle
    · cases hclosing
  | ended i d hphase | began i hphase | refused reason attempt hreason hphase | woke i hphase
  | pulled i d hphase | closed attempt hphase | read i d chunk hphase | forwarded i d event hphase
  | returned i hphase | caught i error hphase => simp [hclosed] at hphase

end Consumer

end EphemeralAgent.LlmClient.StreamClient
