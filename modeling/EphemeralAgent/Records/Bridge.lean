import EphemeralAgent.Streams.ForAwait
import EphemeralAgent.Streams.RunEvents

/-!
# Recording a run

`bridgeAgentRun` and `bridgeWorkflowRun` under `src/runs/` of agent-engine: the loop that takes the
events of an SDK handle, writes each to the store and hands it on to the stream of the host.

* `SdkHandle` — what a bridge knows of the run that it records
* `Bridge.step` — one block of the run, of the loop, of the store or of the host
* `Bridged` — the invariant: what has been taken, written and handed on
* `Relayed` — what follows of the file and of the stream of the host, and that no event is stuck
-/

namespace EphemeralAgent.Records

open Lib Streams

/-! ## The handle of the SDK -/

/-- A run with its `outcome()` and its `events()`, of which the bridge is the consumer.  `Valid` is
what is known of the run by what its stream has shown: the events are those of an `EventStream` that
only the run itself feeds, and its outcome stays. -/
structure SdkHandle (E O : Type) where
  State : Type
  Label : Type
  initial : State
  step : State → Label → Option (State × List (StreamItem E))
  consume : State → ConsumerLabel → Option (State × List (StreamItem E))
  outcome : State → Option O
  events : State → Streaming (EventStream E)
  Valid : State → List (StreamItem E) → Prop
  initial_events : events initial = (eventStream E).start
  initial_valid : Valid initial []
  step_valid : ∀ {s seen l next}, Valid s seen → step s l = some next →
    Valid next.1 (seen ++ next.2)
  step_events : ∀ {s seen l next}, Valid s seen → step s l = some next →
    Fed (events s) seen (events next.1) (seen ++ next.2)
  step_outcome : ∀ {s seen l next o}, Valid s seen → step s l = some next →
    outcome s = some o → outcome next.1 = some o
  consume_valid : ∀ {s seen l next}, Valid s seen → consume s l = some next →
    Valid next.1 (seen ++ next.2)
  consume_events : ∀ {s seen} (l : ConsumerLabel), Valid s seen →
    (consume s l).map (fun next => (events next.1, next.2)) = (eventStream E).consume (events s) l
  consume_outcome : ∀ {s seen l next}, Valid s seen → consume s l = some next →
    outcome next.1 = outcome s

/-! ## The bridge -/

/-- What has thrown in the loop. -/
inductive LoopFault (E : Type) where
  /-- `events()` has a consumer already. -/
  | refused
  /-- `appendEvent` of this event. -/
  | append (event : E)
  /-- `snapshot()` or `recordSnapshot`, for this event. -/
  | snapshot (event : E)
  deriving DecidableEq, Repr

/-- Where the loop over the events stands. -/
inductive Pump (E Q : Type) where
  | idle
  /-- At the head of the loop. -/
  | turning
  /-- In this call of `next()`. -/
  | waiting (call : Nat)
  /-- `await input.store.appendEvent(..)`. -/
  | appending (event : E)
  /-- `await input.store.recordSnapshot(..)`. -/
  | snapshotting (event : E) (snapshot : Q)
  /-- The stream of the host is closed. -/
  | ended (fault : Option (LoopFault E))

/-- `latest-snapshot.json`. -/
inductive SnapshotFile (Q : Type) where
  | missing
  /-- A write is under way or has failed.  `writeFile` empties the file and writes it part by part,
  so there may be the snapshot before, nothing, or a part of the next one. -/
  | inDoubt
  | holds (snapshot : Q)

/-- Where the promise `outcome` of the bridged handle stands. -/
inductive Finish (O : Type) where
  /-- `sdkHandle.outcome()` has not resolved. -/
  | waiting
  /-- `await input.store.finish(..)`. -/
  | writing (outcome : O)
  /-- `outcome.json` is written, and the promise has resolved. -/
  | written (outcome : O)
  | failed

/-- A bridge: the run, the loop, the files of the run and the stream of the host.  `seen` and
`shown` are what the two streams have shown; no code reads them. -/
structure Bridge {E O : Type} (h : SdkHandle E O) (Q : Type) where
  sdk : h.State
  pump : Pump E Q := .idle
  /-- The events whose lines are in `events.jsonl`. -/
  recorded : List E := []
  latest : SnapshotFile Q := .missing
  finish : Finish O := .waiting
  stream : Streaming (Runs.LiveEventStream E) := (Runs.liveEventStream E).start
  seen : List (StreamItem E) := []
  shown : List (StreamItem E) := []

inductive BridgeLabel (L : Type) where
  | sdk (label : L)
  /-- The loop asks for its iterator. -/
  | iterates
  /-- The loop calls `next()`. -/
  | pulls
  /-- The call of `next()` goes on. -/
  | resumes
  | appended (written : Bool)
  | snapshotted (written : Bool)
  /-- `sdkHandle.outcome()` has resolved. -/
  | ends
  | finished (written : Bool)
  /-- The consumer of the host's stream. -/
  | consumer (label : ConsumerLabel)

namespace Bridge

variable {E O Q : Type} {h : SdkHandle E O}

def start : Bridge h Q := { sdk := h.initial }

/-- A block of the stream of the host. -/
def feed (s : Bridge h Q) (label : StreamLabel E) : Option (Bridge h Q) :=
  ((Runs.liveEventStream E).step s.stream label).map fun next =>
    { s with stream := next.1, shown := s.shown ++ next.2 }

/-- The loop is left: the `finally` closes the stream of the host. -/
def leave (s : Bridge h Q) (fault : Option (LoopFault E)) : Option (Bridge h Q) :=
  { s with pump := .ended fault }.feed .close

/-- The body of the loop has thrown: the iterator is told to return first. -/
def abandon (s : Bridge h Q) (fault : LoopFault E) : Option (Bridge h Q) :=
  (h.consume s.sdk .return).bind fun next =>
    { s with sdk := next.1, seen := s.seen ++ next.2 }.leave (some fault)

/-- `stream.push(event)`, and the loop goes on. -/
def handOn (s : Bridge h Q) (event : E) : Option (Bridge h Q) :=
  { s with pump := .turning }.feed (.push event)

/-- The loop after a turn of its `next()`. -/
def pulled (s : Bridge h Q) (call : Nat) (next : h.State × List (StreamItem E)) :
    Option (Bridge h Q) :=
  let s := { s with sdk := next.1, seen := s.seen ++ next.2 }
  match (answers next.2).head? with
  | none => some { s with pump := .waiting call }
  | some (.event event) => some { s with pump := .appending event }
  | some .done => s.leave none

variable (snapshotOf : h.State → E → Option (Option Q))

/-- The loop after `appendEvent`.  `snapshotOf` is the snapshot to be written with an event, if
any; the call of `snapshot()` may throw. -/
def written (s : Bridge h Q) (event : E) : Option (Bridge h Q) :=
  match snapshotOf s.sdk event with
  | none => s.handOn event
  | some none => s.abandon (.snapshot event)
  | some (some snapshot) => some { s with pump := .snapshotting event snapshot, latest := .inDoubt }

/-- **One block.** -/
def step (s : Bridge h Q) : BridgeLabel h.Label → Option (Bridge h Q)
  | .sdk label =>
    (h.step s.sdk label).map fun next => { s with sdk := next.1, seen := s.seen ++ next.2 }
  | .iterates =>
    match s.pump with
    | .idle =>
      (h.consume s.sdk .iterator).bind fun next =>
        let s := { s with sdk := next.1, seen := s.seen ++ next.2 }
        match next.2 with
        | [.iterator] => some { s with pump := .turning }
        | _ => s.leave (some .refused)
    | _ => none
  | .pulls =>
    match s.pump with
    | .turning => (h.consume s.sdk .next).bind (s.pulled (h.events s.sdk).calls)
    | _ => none
  | .resumes =>
    match s.pump with
    | .waiting call => (h.consume s.sdk (.resume call)).bind (s.pulled call)
    | _ => none
  | .appended ok =>
    match s.pump with
    | .appending event =>
      if ok then { s with recorded := s.recorded ++ [event] }.written snapshotOf event
      else s.abandon (.append event)
    | _ => none
  | .snapshotted ok =>
    match s.pump with
    | .snapshotting event snapshot =>
      if ok then { s with latest := .holds snapshot }.handOn event
      else s.abandon (.snapshot event)
    | _ => none
  | .ends =>
    match s.finish, h.outcome s.sdk with
    | .waiting, some outcome => some { s with finish := .writing outcome }
    | _, _ => none
  | .finished ok =>
    match s.finish with
    | .writing outcome => some { s with finish := if ok then .written outcome else .failed }
    | _ => none
  | .consumer label => s.feed (.consumer label)

end Bridge

/-! ## The invariant -/

namespace Pump

variable {E Q : Type}

/-- Where the loop stands for the stream that it takes from. -/
def loop : Pump E Q → Loop
  | .idle => .idle
  | .turning | .appending _ | .snapshotting _ _ => .between
  | .waiting call => .calling call
  | .ended none => .ended
  | .ended (some _) => .left

/-- The event that has been taken and is not in the file. -/
def inHand : Pump E Q → List E
  | .appending event | .ended (some (.append event)) => [event]
  | _ => []

/-- The event that is in the file and has not been handed on. -/
def withheld : Pump E Q → List E
  | .snapshotting event _ | .ended (some (.snapshot event)) => [event]
  | _ => []

def isOver : Pump E Q → Bool
  | .ended _ => true
  | _ => false

end Pump

section Invariant

variable {E O Q : Type} {h : SdkHandle E O}

/-- A stream of the host, seen as an `EventStream`. -/
abbrev hostView (s : Bridge h Q) : Streaming (EventStream E) :=
  s.stream.view Runs.LiveEventStream.view

/-- What has been taken, written and handed on. -/
structure Bridged (s : Bridge h Q) : Prop where
  valid : h.Valid s.sdk s.seen
  taken : Taken (h.events s.sdk) s.seen (s.recorded ++ s.pump.inHand) s.pump.loop
  shown : Flow (hostView s) s.shown
  handed : published s.shown ++ s.pump.withheld = s.recorded
  closed : s.shown.any isClose = s.pump.isOver
  outcome : ∀ outcome, s.finish = .writing outcome ∨ s.finish = .written outcome →
    h.outcome s.sdk = some outcome

theorem bridged_start : Bridged (.start : Bridge h Q) where
  valid := h.initial_valid
  taken := by
    show Taken (h.events h.initial) [] [] .idle
    rw [h.initial_events]
    exact taken_start
  shown := flow_start
  handed := rfl
  closed := rfl
  outcome := by
    intro outcome hfinish
    rcases hfinish with hfinish | hfinish <;> cases hfinish

variable {s t : Bridge h Q}

/-- A block of the stream of the host changes only that. -/
theorem feed_cases {label : StreamLabel E} (hflow : Flow (hostView s) s.shown)
    (ht : s.feed label = some t) :
    ∃ stream items, (Runs.liveEventStream E).step s.stream label = some (stream, items) ∧
      t = { s with stream, shown := s.shown ++ items } ∧ Flow (hostView t) t.shown := by
  obtain ⟨⟨stream, items⟩, hstep, rfl⟩ := Option.map_eq_some_iff.mp ht
  have hview := mirrors_step runs_mirrors hflow label
  rw [hstep] at hview
  exact ⟨stream, items, hstep, rfl, flow_step hflow hview.symm⟩

/-- The stream of the host is closed. -/
theorem leave_cases {fault : Option (LoopFault E)} (hflow : Flow (hostView s) s.shown)
    (ht : s.leave fault = some t) :
    ∃ stream, t = { s with pump := .ended fault, stream, shown := s.shown ++ [.close] } ∧
      Flow (hostView t) t.shown := by
  obtain ⟨stream, items, hstep, rfl, hflow'⟩ :=
    feed_cases (s := { s with pump := .ended fault }) hflow ht
  cases hstep
  exact ⟨_, rfl, hflow'⟩

/-- An event is handed on. -/
theorem handOn_cases {event : E} (hflow : Flow (hostView s) s.shown)
    (ht : s.handOn event = some t) :
    ∃ stream, t = { s with pump := .turning, stream, shown := s.shown ++ [.push event] } ∧
      Flow (hostView t) t.shown := by
  obtain ⟨stream, items, hstep, rfl, hflow'⟩ :=
    feed_cases (s := { s with pump := .turning }) hflow ht
  cases hstep
  exact ⟨_, rfl, hflow'⟩

/-- A block of the consumer of the SDK's events. -/
theorem consumed {l : ConsumerLabel} {next : h.State × List (StreamItem E)}
    (hvalid : h.Valid s.sdk s.seen) (hnext : h.consume s.sdk l = some next) :
    h.Valid next.1 (s.seen ++ next.2) ∧
      (eventStream E).consume (h.events s.sdk) l = some (h.events next.1, next.2) ∧
      h.outcome next.1 = h.outcome s.sdk := by
  have hview := h.consume_events l hvalid
  rw [hnext] at hview
  exact ⟨h.consume_valid hvalid hnext, hview.symm, h.consume_outcome hvalid hnext⟩

/-- What has been published to the host, one event more. -/
theorem published_push {history : List (StreamItem E)} (hopen : history.any isClose = false)
    (event : E) : published (history ++ [.push event]) = published history ++ [event] := by
  rw [published_append, hopen]
  rfl

theorem published_close (history : List (StreamItem E)) :
    published (history ++ [.close]) = published history := by
  rw [published_append]
  split <;> exact List.append_nil _

theorem any_close (history : List (StreamItem E)) :
    (history ++ [StreamItem.close]).any isClose = true := by
  rw [List.any_append]
  exact Bool.or_true _

/-- The loop ends. -/
theorem Bridged.leave (hs : Bridged s) (fault : Option (LoopFault E)) (recorded : List E)
    {sdk : h.State} {items : List (StreamItem E)} (hvalid : h.Valid sdk (s.seen ++ items))
    (htaken : Taken (h.events sdk) (s.seen ++ items)
      (recorded ++ (Pump.ended (Q := Q) fault).inHand) (Pump.ended (E := E) (Q := Q) fault).loop)
    (hhanded : published s.shown ++ (Pump.ended (Q := Q) fault).withheld = recorded)
    (houtcome : h.outcome sdk = h.outcome s.sdk)
    (ht : { s with sdk, seen := s.seen ++ items, recorded }.leave fault = some t) : Bridged t := by
  obtain ⟨stream, rfl, hflow⟩ :=
    leave_cases (s := { s with sdk, seen := s.seen ++ items, recorded }) hs.shown ht
  refine ⟨hvalid, htaken, hflow, ?_, any_close _, fun outcome hfinish => ?_⟩
  · show published (s.shown ++ [.close]) ++ _ = recorded
    rw [published_close]
    exact hhanded
  · exact houtcome.trans (hs.outcome outcome hfinish)

/-- The iterator has returned, and the loop ends. -/
theorem Bridged.abandon (hs : Bridged s) (fault : LoopFault E) (recorded : List E) (pump : Pump E Q)
    (htaken : Taken (h.events s.sdk) s.seen
      (recorded ++ (Pump.ended (Q := Q) (some fault)).inHand) .between)
    (hhanded : published s.shown ++ (Pump.ended (Q := Q) (some fault)).withheld = recorded)
    (ht : { s with recorded, pump }.abandon fault = some t) : Bridged t := by
  obtain ⟨next, hnext, ht⟩ := Option.bind_eq_some_iff.mp ht
  obtain ⟨hvalid, hconsume, houtcome⟩ := consumed hs.valid hnext
  have hreturn := htaken.return hconsume
  exact hs.leave (some fault) recorded hvalid hreturn hhanded houtcome ht

/-- The event that was withheld is handed on. -/
theorem Bridged.handOn (hs : Bridged s) (recorded : List E) {event : E} {latest : SnapshotFile Q}
    (htaken : Taken (h.events s.sdk) s.seen recorded .between) (hopen : s.pump.isOver = false)
    (hhanded : published s.shown ++ [event] = recorded)
    (ht : { s with recorded, latest }.handOn event = some t) : Bridged t := by
  obtain ⟨stream, rfl, hflow⟩ :=
    handOn_cases (s := { s with recorded, latest }) hs.shown ht
  have hclosed : s.shown.any isClose = false := hs.closed.trans hopen
  refine ⟨hs.valid, ?_, hflow, ?_, ?_, hs.outcome⟩
  · show Taken _ _ (recorded ++ []) _
    rw [List.append_nil]
    exact htaken
  · show published (s.shown ++ [.push event]) ++ [] = recorded
    rw [published_push hclosed, List.append_nil, hhanded]
  · show (s.shown ++ [StreamItem.push event]).any isClose = false
    rw [List.any_append, hclosed]
    rfl

/-- A turn of `next()`. -/
theorem Bridged.pulled (hs : Bridged s) {call : Nat} {next : h.State × List (StreamItem E)}
    (hvalid : h.Valid next.1 (s.seen ++ next.2)) (hnone : s.pump.withheld = []) (hopen : s.pump.isOver = false)
    (hturned : Turned s.recorded call (h.events next.1, next.2) s.seen)
    (houtcome : h.outcome next.1 = h.outcome s.sdk) (ht : s.pulled call next = some t) :
    Bridged t := by
  have hhanded : published s.shown = s.recorded := by
    have := hs.handed
    rwa [hnone, List.append_nil] at this
  have hclosed : s.shown.any isClose = false := hs.closed.trans hopen
  unfold Bridge.pulled at ht
  cases hturned with
  | waits hanswers htaken =>
    simp only [hanswers, List.head?_nil, Option.some.injEq] at ht
    subst ht
    refine ⟨hvalid, ?_, hs.shown, ?_, hclosed, ?_⟩
    · show Taken _ _ (s.recorded ++ []) _
      rw [List.append_nil]
      exact htaken
    · exact (List.append_nil _).trans hhanded
    · exact fun outcome hfinish => houtcome.trans (hs.outcome outcome hfinish)
  | takes event hanswers htaken =>
    simp only [hanswers, List.head?_cons, Option.some.injEq] at ht
    subst ht
    refine ⟨hvalid, htaken, hs.shown, ?_, hclosed, ?_⟩
    · exact (List.append_nil _).trans hhanded
    · exact fun outcome hfinish => houtcome.trans (hs.outcome outcome hfinish)
  | ends hanswers htaken =>
    simp only [hanswers, List.head?_cons] at ht
    refine hs.leave none s.recorded hvalid ?_ ?_ houtcome ht
    · show Taken _ _ (s.recorded ++ []) _
      rw [List.append_nil]
      exact htaken
    · exact (List.append_nil _).trans hhanded

variable {snapshotOf : h.State → E → Option (Option Q)}

/-- The event is in the file. -/
theorem Bridged.written (hs : Bridged s) {event : E} (hpump : s.pump = .appending event)
    (ht : { s with recorded := s.recorded ++ [event] }.written snapshotOf event = some t) :
    Bridged t := by
  have htaken := hs.taken
  have hhanded := hs.handed
  rw [hpump] at htaken hhanded
  have hhanded : published s.shown = s.recorded := (List.append_nil _).symm.trans hhanded
  have hopen : s.pump.isOver = false := by rw [hpump]; rfl
  unfold Bridge.written at ht
  split at ht
  · refine hs.handOn (s.recorded ++ [event]) htaken hopen ?_ ht
    rw [hhanded]
  · refine hs.abandon (.snapshot event) (s.recorded ++ [event]) s.pump ?_ ?_ ht
    · exact (List.append_nil _).symm ▸ htaken
    · show published s.shown ++ [event] = _
      rw [hhanded]
  · next snapshot _ =>
    simp only [Option.some.injEq] at ht
    subst ht
    refine ⟨hs.valid, (List.append_nil (s.recorded ++ [event])).symm ▸ htaken, hs.shown, ?_,
      hs.closed.trans hopen, hs.outcome⟩
    show published s.shown ++ [event] = s.recorded ++ [event]
    rw [hhanded]

/-- **One block.** -/
theorem bridged_step {label : BridgeLabel h.Label} (hs : Bridged s)
    (hstep : s.step snapshotOf label = some t) : Bridged t := by
  cases label with
  | sdk label =>
    obtain ⟨next, hnext, rfl⟩ := Option.map_eq_some_iff.mp hstep
    have hfed := h.step_events hs.valid hnext
    exact ⟨h.step_valid hs.valid hnext, hs.taken.fed hfed, hs.shown, hs.handed, hs.closed,
      fun outcome hfinish => h.step_outcome hs.valid hnext (hs.outcome outcome hfinish)⟩
  | iterates =>
    simp only [Bridge.step] at hstep
    split at hstep
    · next hpump =>
      obtain ⟨next, hnext, hstep⟩ := Option.bind_eq_some_iff.mp hstep
      obtain ⟨hvalid, hconsume, houtcome⟩ := consumed hs.valid hnext
      have htaken := hs.taken
      rw [hpump] at htaken
      obtain ⟨hitems, hgranted⟩ := htaken.iterator hconsume
      simp only at hitems
      simp only [hitems, Option.some.injEq] at hstep
      subst hstep
      have hhanded := hs.handed
      have hclosed := hs.closed
      rw [hpump] at hhanded hclosed
      rw [hitems] at hgranted
      simp only [hitems] at hvalid
      exact ⟨hvalid, hgranted, hs.shown, hhanded, hclosed,
        fun outcome hfinish => houtcome.trans (hs.outcome outcome hfinish)⟩
    · cases hstep
  | pulls =>
    simp only [Bridge.step] at hstep
    split at hstep
    · next hpump =>
      obtain ⟨next, hnext, hstep⟩ := Option.bind_eq_some_iff.mp hstep
      obtain ⟨hvalid, hconsume, houtcome⟩ := consumed hs.valid hnext
      have htaken := hs.taken
      rw [hpump] at htaken
      have hturned := htaken.next hconsume
      rw [show s.recorded ++ (Pump.turning : Pump E Q).inHand = s.recorded from
        List.append_nil _] at hturned
      exact hs.pulled hvalid (by rw [hpump]; rfl) (by rw [hpump]; rfl) hturned houtcome hstep
    · cases hstep
  | resumes =>
    simp only [Bridge.step] at hstep
    split at hstep
    · next call hpump =>
      obtain ⟨next, hnext, hstep⟩ := Option.bind_eq_some_iff.mp hstep
      obtain ⟨hvalid, hconsume, houtcome⟩ := consumed hs.valid hnext
      have htaken := hs.taken
      rw [hpump] at htaken
      have hturned := htaken.resume hconsume
      rw [show s.recorded ++ (Pump.waiting call : Pump E Q).inHand = s.recorded from
        List.append_nil _] at hturned
      exact hs.pulled hvalid (by rw [hpump]; rfl) (by rw [hpump]; rfl) hturned houtcome hstep
    · cases hstep
  | appended ok =>
    simp only [Bridge.step] at hstep
    split at hstep
    · next event hpump =>
      cases ok with
      | true => exact hs.written hpump hstep
      | false =>
        have htaken := hs.taken
        have hhanded := hs.handed
        rw [hpump] at htaken hhanded
        exact hs.abandon (.append event) s.recorded s.pump htaken hhanded hstep
    · cases hstep
  | snapshotted ok =>
    simp only [Bridge.step] at hstep
    split at hstep
    · next event snapshot hpump =>
      have htaken := hs.taken
      have hhanded := hs.handed
      rw [hpump] at htaken hhanded
      cases ok with
      | true =>
        refine hs.handOn s.recorded ?_ (by rw [hpump]; rfl) hhanded hstep
        exact (List.append_nil s.recorded) ▸ htaken
      | false => exact hs.abandon (.snapshot event) s.recorded s.pump htaken hhanded hstep
    · cases hstep
  | ends =>
    simp only [Bridge.step] at hstep
    split at hstep
    · next outcome _ houtcome =>
      cases hstep
      refine ⟨hs.valid, hs.taken, hs.shown, hs.handed, hs.closed, fun outcome' hfinish => ?_⟩
      rcases hfinish with hfinish | hfinish
      · cases hfinish
        exact houtcome
      · cases hfinish
    · cases hstep
  | finished ok =>
    simp only [Bridge.step] at hstep
    split at hstep
    · next outcome hfinish =>
      cases hstep
      refine ⟨hs.valid, hs.taken, hs.shown, hs.handed, hs.closed, fun outcome' hfinish' => ?_⟩
      have hold := hs.outcome outcome (Or.inl hfinish)
      cases ok with
      | true =>
        rcases hfinish' with hfinish' | hfinish' <;> cases hfinish'
        exact hold
      | false => rcases hfinish' with hfinish' | hfinish' <;> cases hfinish'
    · cases hstep
  | consumer label =>
    obtain ⟨stream, items, hfeed, rfl, hflow⟩ := feed_cases hs.shown hstep
    have hview := mirrors_step runs_mirrors hs.shown (.consumer label)
    rw [hfeed] at hview
    obtain ⟨hpublished, hnone⟩ := consume_items hview.symm
    simp only at hpublished hnone
    refine ⟨hs.valid, hs.taken, hflow, ?_, ?_, hs.outcome⟩
    · show published (s.shown ++ items) ++ _ = _
      rw [published_append, hpublished, ite_self, List.append_nil]
      exact hs.handed
    · show (s.shown ++ items).any isClose = _
      rw [List.any_append, hnone, Bool.or_false]
      exact hs.closed

theorem bridged_of_run {labels : List (BridgeLabel h.Label)}
    (run : Run (Bridge.step snapshotOf) Free (.start : Bridge h Q) labels s) : Bridged s :=
  run.invariant bridged_start fun _ _ _ _ hs hstep => bridged_step hs hstep

/-! ## The ways a step can go -/

/-- What a step does to the files and to what is handed on. -/
inductive Moved (snapshotOf : h.State → E → Option (Option Q)) (s t : Bridge h Q) : Prop
  | runs {label : h.Label} {next : h.State × List (StreamItem E)}
      (hrun : h.step s.sdk label = some next) (hsdk : t.sdk = next.1) (hpump : t.pump = s.pump)
      (hrecorded : t.recorded = s.recorded) (hlatest : t.latest = s.latest)
      (hshown : published t.shown = published s.shown)
  | turns {label : ConsumerLabel} {next : h.State × List (StreamItem E)}
      (hloop : h.consume s.sdk label = some next) (hsdk : t.sdk = next.1)
      (hpump : ∀ event snapshot, t.pump ≠ .snapshotting event snapshot)
      (hstopped : ∀ event snapshot, s.pump = .snapshotting event snapshot →
        t.pump = .ended (some (.snapshot event)))
      (hopen : s.pump.isOver = false) (hlatest : t.latest = s.latest) (hshown : published t.shown = published s.shown)
  | hands (event : E) (hpump : s.pump = .appending event) (hsnapshot : snapshotOf s.sdk event = none)
      (hsdk : t.sdk = s.sdk) (hturning : t.pump = .turning) (hlatest : t.latest = s.latest)
      (hshown : published t.shown = published s.shown ++ [event])
  | writes (event : E) (snapshot : Q) (hpump : s.pump = .appending event)
      (hsnapshot : snapshotOf s.sdk event = some (some snapshot)) (hsdk : t.sdk = s.sdk)
      (hwriting : t.pump = .snapshotting event snapshot)
      (hrecorded : t.recorded = s.recorded ++ [event]) (hlatest : t.latest = .inDoubt)
      (hshown : published t.shown = published s.shown)
  | stores (event : E) (snapshot : Q) (hpump : s.pump = .snapshotting event snapshot)
      (hsdk : t.sdk = s.sdk) (hturning : t.pump = .turning) (hrecorded : t.recorded = s.recorded)
      (hlatest : t.latest = .holds snapshot)
      (hshown : published t.shown = published s.shown ++ [event])
  | keeps (hsdk : t.sdk = s.sdk) (hpump : t.pump = s.pump) (hrecorded : t.recorded = s.recorded)
      (hlatest : t.latest = s.latest) (hshown : published t.shown = published s.shown)

theorem moved_of_pulled (hs : Bridged s) {label : ConsumerLabel} {call : Nat}
    {next : h.State × List (StreamItem E)}
    (hpump : ∀ event snapshot, s.pump ≠ .snapshotting event snapshot)
    (hopen : s.pump.isOver = false) (hloop : h.consume s.sdk label = some next)
    (ht : s.pulled call next = some t) : Moved snapshotOf s t := by
  have hstopped : ∀ event snapshot, s.pump = .snapshotting event snapshot →
      t.pump = .ended (some (.snapshot event)) := fun event snapshot heq => absurd heq (hpump _ _)
  unfold Bridge.pulled at ht
  simp only at ht
  split at ht
  · cases ht
    exact .turns hloop rfl (by simp) hstopped hopen rfl rfl
  · cases ht
    exact .turns hloop rfl (by simp) hstopped hopen rfl rfl
  · obtain ⟨stream, rfl, -⟩ :=
      leave_cases (s := { s with sdk := next.1, seen := s.seen ++ next.2 }) hs.shown ht
    exact .turns hloop rfl (by simp) hstopped hopen rfl (published_close _)

theorem moved_of_abandon (hs : Bridged s) (recorded : List E) {fault : LoopFault E}
    (hfault : ∀ event snapshot, s.pump = .snapshotting event snapshot → fault = .snapshot event)
    (hopen : s.pump.isOver = false) (ht : { s with recorded }.abandon fault = some t) :
    Moved snapshotOf s t := by
  obtain ⟨next, hnext, ht⟩ := Option.bind_eq_some_iff.mp ht
  obtain ⟨stream, rfl, -⟩ :=
    leave_cases (s := { s with recorded, sdk := next.1, seen := s.seen ++ next.2 }) hs.shown ht
  refine .turns hnext rfl (by simp) (fun event snapshot heq => ?_) hopen rfl (published_close _)
  rw [hfault event snapshot heq]

/-- **Every step is one of these.** -/
theorem moved_of_step (hs : Bridged s) {label : BridgeLabel h.Label}
    (hstep : s.step snapshotOf label = some t) : Moved snapshotOf s t := by
  have hopen : s.pump.isOver = false → s.shown.any isClose = false := hs.closed.trans
  cases label with
  | sdk label =>
    obtain ⟨next, hnext, rfl⟩ := Option.map_eq_some_iff.mp hstep
    exact .runs hnext rfl rfl rfl rfl rfl
  | iterates =>
    simp only [Bridge.step] at hstep
    split at hstep
    · next hpump =>
      obtain ⟨next, hnext, hstep⟩ := Option.bind_eq_some_iff.mp hstep
      split at hstep
      · cases hstep
        exact .turns hnext rfl (by simp) (by simp [hpump]) (by rw [hpump]; rfl) rfl rfl
      · obtain ⟨stream, rfl, -⟩ :=
          leave_cases (s := { s with sdk := next.1, seen := s.seen ++ next.2 }) hs.shown hstep
        exact .turns hnext rfl (by simp) (by simp [hpump]) (by rw [hpump]; rfl) rfl
          (published_close _)
    · cases hstep
  | pulls =>
    simp only [Bridge.step] at hstep
    split at hstep
    · next hpump =>
      obtain ⟨next, hnext, hstep⟩ := Option.bind_eq_some_iff.mp hstep
      exact moved_of_pulled hs (by simp [hpump]) (by rw [hpump]; rfl) hnext hstep
    · cases hstep
  | resumes =>
    simp only [Bridge.step] at hstep
    split at hstep
    · next call hpump =>
      obtain ⟨next, hnext, hstep⟩ := Option.bind_eq_some_iff.mp hstep
      exact moved_of_pulled hs (by simp [hpump]) (by rw [hpump]; rfl) hnext hstep
    · cases hstep
  | appended ok =>
    simp only [Bridge.step] at hstep
    split at hstep
    · next event hpump =>
      cases ok with
      | false => exact moved_of_abandon hs s.recorded (by simp [hpump]) (by rw [hpump]; rfl) hstep
      | true =>
        rw [if_pos rfl] at hstep
        unfold Bridge.written at hstep
        split at hstep
        · next hsnapshot =>
          obtain ⟨stream, rfl, -⟩ :=
            handOn_cases (s := { s with recorded := s.recorded ++ [event] }) hs.shown hstep
          refine .hands event hpump hsnapshot rfl rfl rfl (published_push (hopen ?_) event)
          rw [hpump]
          rfl
        · exact moved_of_abandon hs (s.recorded ++ [event]) (by simp [hpump])
            (by rw [hpump]; rfl) hstep
        · next snapshot hsnapshot =>
          cases hstep
          exact .writes event snapshot hpump hsnapshot rfl rfl rfl rfl rfl
    · cases hstep
  | snapshotted ok =>
    simp only [Bridge.step] at hstep
    split at hstep
    · next event snapshot hpump =>
      cases ok with
      | false =>
        refine moved_of_abandon hs s.recorded (fun event' snapshot' heq => ?_) (by rw [hpump]; rfl)
          hstep
        rw [hpump] at heq
        cases heq
        rfl
      | true =>
        rw [if_pos rfl] at hstep
        obtain ⟨stream, rfl, -⟩ :=
          handOn_cases (s := { s with latest := .holds snapshot }) hs.shown hstep
        refine .stores event snapshot hpump rfl rfl rfl rfl (published_push (hopen ?_) event)
        rw [hpump]
        rfl
    · cases hstep
  | ends =>
    simp only [Bridge.step] at hstep
    split at hstep
    · cases hstep
      exact .keeps rfl rfl rfl rfl rfl
    · cases hstep
  | finished ok =>
    simp only [Bridge.step] at hstep
    split at hstep
    · cases hstep
      exact .keeps rfl rfl rfl rfl rfl
    · cases hstep
  | consumer label =>
    have hview := mirrors_step runs_mirrors hs.shown (.consumer label)
    obtain ⟨stream, items, hfeed, rfl, -⟩ := feed_cases hs.shown hstep
    rw [hfeed] at hview
    obtain ⟨hpublished, -⟩ := consume_items hview.symm
    refine .keeps rfl rfl rfl rfl ?_
    show published (s.shown ++ items) = _
    rw [published_append, show published items = [] from hpublished, ite_self, List.append_nil]

/-! ## What a bridge does -/

/-- The loop has nothing to do of its own: it has ended, it awaits a write, or it awaits an event
that the run has not brought. -/
def Bridge.Parked (s : Bridge h Q) : Prop :=
  match s.pump with
  | .ended _ | .appending _ | .snapshotting _ _ => True
  | .waiting _ => published s.seen = s.recorded ∧ s.seen.any isClose = false
  | .idle | .turning => False

/-- **What is written and handed on of a run.** -/
structure Relayed (snapshotOf : h.State → E → Option (Option Q)) (s : Bridge h Q) : Prop where
  /-- The host gets only what has been handed on, in order, and what is handed on is in the file. -/
  handedOn : ∃ received ends,
    answers s.shown = received.map .event ++ List.replicate ends .done ∧
      received <+: published s.shown ∧ published s.shown <+: s.recorded
  /-- The file holds the first events of the run. -/
  recorded : s.recorded <+: published s.seen
  /-- A loop that ends by itself has written and handed on all events of a run that is over. -/
  complete : s.pump = .ended none → s.seen.any isClose = true ∧ s.recorded = published s.seen ∧
    published s.shown = s.recorded
  /-- A loop that has thrown has written what it has handed on, and at most the event in question
  besides. -/
  faulty : ∀ fault, s.pump = .ended (some fault) → published s.shown ++ s.pump.withheld = s.recorded ∧
    s.recorded ++ s.pump.inHand <+: published s.seen
  /-- The stream of the host is closed when the loop is over, and delivers. -/
  closed : s.shown.any isClose = s.pump.isOver
  delivered : Delivered s.shown s.stream.woken
  /-- A loop that is not parked goes on, and one that awaits a write goes on after it. -/
  lively : ¬ s.Parked → ∃ label, label ∈ [.iterates, .pulls, .resumes] ∧
    (s.step snapshotOf label).isSome = true
  answered : ∀ ok, (∀ event, s.pump = .appending event →
      (s.step snapshotOf (.appended ok)).isSome = true) ∧
    ∀ event snapshot, s.pump = .snapshotting event snapshot →
      (s.step snapshotOf (.snapshotted ok)).isSome = true

/-- The loop takes a turn of `next()` whatever it brings. -/
theorem pulled_isSome (call : Nat) (next : h.State × List (StreamItem E)) :
    (s.pulled call next).isSome = true := by
  unfold Bridge.pulled
  simp only
  split <;> rfl

/-- The iterator can be told to return. -/
theorem Bridged.abandon_isSome (hs : Bridged s) (hloop : s.pump.loop = .between)
    (fault : LoopFault E) (recorded : List E) (pump : Pump E Q) :
    (({ s with recorded, pump } : Bridge h Q).abandon fault).isSome = true := by
  have hiterating : (h.events s.sdk).iterating = true := by
    rw [hs.taken.iterating, hloop]
    rfl
  have hview := h.consume_events .return hs.valid
  simp only [StreamClass.consume, hiterating, if_true] at hview
  obtain ⟨next, hnext, -⟩ := Option.map_eq_some_iff.mp hview
  unfold Bridge.abandon
  rw [hnext]
  rfl

/-- **The loop is never stuck.** -/
theorem Bridged.lively (hs : Bridged s) (hparked : ¬ s.Parked) :
    ∃ label, label ∈ [.iterates, .pulls, .resumes] ∧ (s.step snapshotOf label).isSome = true := by
  have hconsume : ∀ l, ((eventStream E).consume (h.events s.sdk) l).isSome = true →
      ∃ next, h.consume s.sdk l = some next := by
    intro l hl
    rw [← h.consume_events l hs.valid, Option.isSome_map] at hl
    exact Option.isSome_iff_exists.mp hl
  have hiterating := hs.taken.iterating
  unfold Bridge.Parked at hparked
  cases hpump : s.pump with
  | idle =>
    obtain ⟨next, hnext⟩ := hconsume .iterator (by
      simp only [StreamClass.consume]
      split <;> rfl)
    refine ⟨.iterates, by simp, ?_⟩
    simp only [Bridge.step, hpump, hnext, Option.bind_some]
    split <;> rfl
  | turning =>
    have hbegun : (h.events s.sdk).iterating = true := by
      rw [hiterating, hpump]
      rfl
    obtain ⟨next, hnext⟩ := hconsume .next (by
      simp only [StreamClass.consume]
      rw [if_pos hbegun]
      rfl)
    refine ⟨.pulls, by simp, ?_⟩
    simp only [Bridge.step, hpump, hnext, Option.bind_some]
    exact pulled_isSome _ _
  | waiting call =>
    rw [hpump] at hparked
    have htaken := hs.taken
    rw [hpump] at htaken
    -- there is something to bring, so the call has been woken
    have hwoken : call ∈ (h.events s.sdk).woken := by
      apply htaken.prompt
      by_cases hclosed : s.seen.any isClose = true
      · exact Or.inl hclosed
      · right
        have hfirst := htaken.published
        rw [show (Pump.waiting call : Pump E Q).inHand = [] from rfl, List.append_nil] at hfirst ⊢
        rcases Nat.lt_or_ge s.recorded.length (published s.seen).length with hlt | hge
        · exact hlt
        · exact absurd ⟨(hfirst.eq_of_length_le hge).symm, by simpa using hclosed⟩ hparked
    obtain ⟨next, hnext⟩ := hconsume (.resume call) (by
      simp only [StreamClass.consume]
      rw [if_pos hwoken]
      rfl)
    refine ⟨.resumes, by simp, ?_⟩
    simp only [Bridge.step, hpump, hnext, Option.bind_some]
    exact pulled_isSome _ _
  | appending event => exact absurd trivial (by rwa [hpump] at hparked)
  | snapshotting event snapshot => exact absurd trivial (by rwa [hpump] at hparked)
  | ended fault => exact absurd trivial (by rwa [hpump] at hparked)

theorem Bridged.answered (hs : Bridged s) (ok : Bool) :
    (∀ event, s.pump = .appending event → (s.step snapshotOf (.appended ok)).isSome = true) ∧
    ∀ event snapshot, s.pump = .snapshotting event snapshot →
      (s.step snapshotOf (.snapshotted ok)).isSome = true := by
  constructor
  · intro event hpump
    have hloop : s.pump.loop = .between := by rw [hpump]; rfl
    simp only [Bridge.step, hpump]
    cases ok with
    | true =>
      rw [if_pos rfl]
      unfold Bridge.written
      split
      · rfl
      · exact hs.abandon_isSome hloop _ _ _
      · rfl
    | false => exact hs.abandon_isSome hloop _ _ _
  · intro event snapshot hpump
    have hloop : s.pump.loop = .between := by rw [hpump]; rfl
    simp only [Bridge.step, hpump]
    cases ok with
    | true => rfl
    | false => exact hs.abandon_isSome hloop _ _ _

/-- **Every bridge relays its run.** -/
theorem Bridged.relayed (hs : Bridged s) : Relayed snapshotOf s := by
  obtain ⟨received, ends, hanswers, hfirst, -⟩ := hs.shown.delivered.ordered
  have hhanded : published s.shown <+: s.recorded := ⟨s.pump.withheld, hs.handed⟩
  have htaken := hs.taken.published
  refine ⟨⟨received, ends, hanswers, hfirst, hhanded⟩, (List.prefix_append _ _).trans htaken, ?_, ?_,
    hs.closed, hs.shown.delivered, hs.lively, hs.answered⟩
  · intro hpump
    have hended := hs.taken
    have hall := hs.handed
    rw [hpump] at hended hall
    obtain ⟨hclosed, htook⟩ := hended.ended
    exact ⟨hclosed, (List.append_nil _).symm.trans htook, (List.append_nil _).symm.trans hall⟩
  · intro fault hpump
    exact ⟨hs.handed, htaken⟩

end Invariant

end EphemeralAgent.Records
