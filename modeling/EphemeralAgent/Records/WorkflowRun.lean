import EphemeralAgent.Lib.UpTo
import EphemeralAgent.Records.Bridge
import EphemeralAgent.Workflow.Frozen
import EphemeralAgent.Workflow.Traced

/-!
# The record of a workflow run

`bridgeWorkflowRun` of `src/runs/agentic-workflow-run-store.ts`, over the run of the workflow runtime
and the stream of `createRunEventStream`.

* `WorkflowRun` — a run of the workflow runtime with the stream of its events
* `WorkflowRecorded` — what the files of a run hold
* `workflow_record` — **the snapshot on disk is not behind the events that are handed on**
-/

namespace EphemeralAgent.Records

open Lib Streams Workflow

variable {X : Type}

/-! ## The stream of a run -/

/-- A `WorkflowRunEvent` with the `seq` that `createRunEventStream` gives it. -/
structure StampedEvent where
  seq : Nat
  event : WorkflowRunEvent

def StampedEvent.outcome? (e : StampedEvent) : Option WorkflowOutcome :=
  e.event.body.outcome?

def StampedEvent.isSnapshot (e : StampedEvent) : Bool :=
  e.event.body.isSnapshot

/-- The events with their numbers, from `first` on. -/
def stamp (first : Nat) : List WorkflowRunEvent → List StampedEvent
  | [] => []
  | event :: rest => { seq := first, event } :: stamp (first + 1) rest

/-- What `#emit` does to the stream for these events; `#finish` closes it behind its event. -/
def feeds : List StampedEvent → List (StreamLabel StampedEvent)
  | [] => []
  | event :: rest =>
    .push event :: if event.outcome?.isSome then .close :: feeds rest else feeds rest

/-- What a producer shows. -/
def shownFeed : StreamLabel StampedEvent → List (StreamItem StampedEvent)
  | .push event => [.push event]
  | .close => [.close]
  | .consumer _ => []

/-- The producer of a stream does this. -/
def feedAll (s : Streaming (Nodes.LiveEventStream StampedEvent)) :
    List (StreamLabel StampedEvent) → Streaming (Nodes.LiveEventStream StampedEvent)
  | [] => s
  | label :: rest =>
    match (Nodes.liveEventStream _).step s label with
    | some next => feedAll next.1 rest
    | none => feedAll s rest

/-- A run with the stream of its events. -/
structure WorkflowRun (X : Type) where
  run : WorkflowRunInstance X
  events : Streaming (Nodes.LiveEventStream StampedEvent)

/-- A block of the run: it emits what it adds to its timeline. -/
def WorkflowRun.step (c : WorkflowStartRequest X) (w : WorkflowRun X) (label : Label) :
    Option (WorkflowRun X × List (StreamItem StampedEvent)) :=
  (Workflow.step c w.run label).map fun run =>
    let labels := feeds (stamp w.run.events.length (run.events.drop w.run.events.length))
    ({ run, events := feedAll w.events labels }, labels.flatMap shownFeed)

/-- A block of the consumer of the events. -/
def WorkflowRun.consume (w : WorkflowRun X) (label : ConsumerLabel) :
    Option (WorkflowRun X × List (StreamItem StampedEvent)) :=
  ((Nodes.liveEventStream _).consume w.events label).map fun next =>
    ({ w with events := next.1 }, next.2)

/-- `WorkflowRunSnapshot`. -/
structure WorkflowRunSnapshot where
  definitionMetadata : Option JsonObject
  state : Json
  runningNodes : List NodeRunSnapshot
  finishedNodes : List NodeRunSnapshot
  snapshots : List StateSnapshot
  timeline : List WorkflowTimelineEntry

/-- `snapshot()`; `none` when it throws. -/
def WorkflowRun.snapshot (c : WorkflowStartRequest X) (w : WorkflowRun X) :
    Option WorkflowRunSnapshot :=
  match w.run.state with
  | none => none
  | some state =>
    match c.toJsonObject state with
    | .error _ => none
    | .ok json => some {
        definitionMetadata := c.definition.metadata
        state := json
        runningNodes := w.run.runningNodes
        finishedNodes := w.run.finishedNodes
        snapshots := w.run.snapshots
        timeline := w.run.timeline }

/-- The snapshot that the bridge writes with an event. -/
def snapshotOf (c : WorkflowStartRequest X) (w : WorkflowRun X) (event : StampedEvent) :
    Option (Option WorkflowRunSnapshot) :=
  if event.isSnapshot then some (w.snapshot c) else none

/-! ## What the stream shows -/

/-- `workflow_finished`. -/
def isFinished (event : StampedEvent) : Bool :=
  event.outcome?.isSome

theorem stamp_append (first : Nat) (events new : List WorkflowRunEvent) :
    stamp first (events ++ new) = stamp first events ++ stamp (first + events.length) new := by
  induction events generalizing first with
  | nil => rfl
  | cons event rest ih =>
    rw [List.cons_append, stamp, stamp, ih, List.length_cons, List.cons_append,
      show first + 1 + rest.length = first + (rest.length + 1) by omega]

theorem map_seq_stamp (first : Nat) (events : List WorkflowRunEvent) :
    (stamp first events).map (·.seq) = List.range' first events.length := by
  induction events generalizing first with
  | nil => rfl
  | cons event rest ih =>
    rw [stamp, List.map_cons, ih]
    rfl

theorem map_event_stamp (first : Nat) (events : List WorkflowRunEvent) :
    (stamp first events).map (·.event) = events := by
  induction events generalizing first with
  | nil => rfl
  | cons event rest ih => rw [stamp, List.map_cons, ih]

theorem feeds_feeds : ∀ {events : List StampedEvent}, ∀ label ∈ feeds events, label.Feeds
  | event :: rest, label, hlabel => by
    unfold feeds at hlabel
    rcases List.mem_cons.mp hlabel with rfl | hlabel
    · trivial
    · split at hlabel
      · rcases List.mem_cons.mp hlabel with rfl | hlabel
        · trivial
        · exact feeds_feeds label hlabel
      · exact feeds_feeds label hlabel

/-- Behind a `workflow_finished` nothing is published. -/
theorem published_feeds (events : List StampedEvent) :
    published ((feeds events).flatMap shownFeed) = upTo isFinished events := by
  induction events with
  | nil => rfl
  | cons event rest ih =>
    by_cases hfinish : event.outcome?.isSome = true
    · rw [feeds, if_pos hfinish, upTo, if_pos (show isFinished event = true from hfinish)]
      rfl
    · rw [feeds, if_neg hfinish, upTo, if_neg (show ¬ isFinished event = true from hfinish)]
      exact congrArg (List.cons event) ih

theorem closed_feeds (events : List StampedEvent) :
    ((feeds events).flatMap shownFeed).any isClose = events.any isFinished := by
  induction events with
  | nil => rfl
  | cons event rest ih =>
    rw [List.any_cons]
    by_cases hfinish : event.outcome?.isSome = true
    · rw [feeds, if_pos hfinish, show isFinished event = true from hfinish]
      rfl
    · rw [feeds, if_neg hfinish, show isFinished event = false by simpa [isFinished] using hfinish]
      exact ih

/-- The stream as an `EventStream`. -/
abbrev view (s : Streaming (Nodes.LiveEventStream StampedEvent)) :
    Streaming (EventStream StampedEvent) :=
  s.view Nodes.LiveEventStream.view

theorem feedAll_fed : ∀ {labels : List (StreamLabel StampedEvent)}
    {s : Streaming (Nodes.LiveEventStream StampedEvent)} {seen : List (StreamItem StampedEvent)},
    Flow (view s) seen → (∀ label ∈ labels, label.Feeds) →
    Fed (view s) seen (view (feedAll s labels)) (seen ++ labels.flatMap shownFeed)
  | [], s, seen, _, _ => by
    refine ⟨[], ?_⟩
    show Run _ _ _ [] (⟨view s, seen ++ []⟩ : Recorded _ _)
    rw [List.append_nil]
    exact .nil _
  | label :: rest, s, seen, hflow, hfeeds => by
    have hlabel := hfeeds label List.mem_cons_self
    obtain ⟨next, hnext, hitems⟩ : ∃ next, (Nodes.liveEventStream _).step s label = some next ∧
        next.2 = shownFeed label := by
      cases label with
      | push event => exact ⟨_, rfl, rfl⟩
      | close => exact ⟨_, rfl, rfl⟩
      | consumer label => exact absurd hlabel not_false
    have hstep := mirrors_step nodes_mirrors hflow label
    rw [hnext] at hstep
    have hstep := hstep.symm
    obtain ⟨labels, hrun⟩ := feedAll_fed (flow_step hflow hstep)
      fun other hother => hfeeds other (List.mem_cons_of_mem label hother)
    have hrecorded : Recorded.step (eventStream StampedEvent).step ⟨view s, seen⟩ label =
        some ⟨view next.1, seen ++ next.2⟩ := by
      unfold Recorded.step
      dsimp only
      rw [hstep]
      rfl
    have hall : feedAll s (label :: rest) = feedAll next.1 rest := by
      rw [feedAll, hnext]
    refine ⟨[label] ++ labels, ?_⟩
    rw [hall, List.flatMap_cons, ← List.append_assoc, ← hitems]
    have hone : Run (Recorded.step (eventStream StampedEvent).step) (fun _ l => l.Feeds)
        ⟨view s, seen⟩ [label] ⟨view next.1, seen ++ next.2⟩ := .single hlabel hrecorded
    exact hone.trans hrun

/-! ## The handle -/

/-- The stream is that of the run's events, and has shown them up to `workflow_finished`. -/
structure WorkflowRun.Valid (w : WorkflowRun X) (seen : List (StreamItem StampedEvent)) : Prop where
  flow : Flow (view w.events) seen
  whole : Whole w.run
  published : published seen = upTo isFinished (stamp 0 w.run.events)
  closed : seen.any isClose = (stamp 0 w.run.events).any isFinished

variable {c : WorkflowStartRequest X} {w : WorkflowRun X} {seen : List (StreamItem StampedEvent)}
  {next : WorkflowRun X × List (StreamItem StampedEvent)}

/-- What a step of the run adds to its log, and feeds its stream with. -/
theorem step_cases {label : Label} (hstep : w.step c label = some next) :
    ∃ new, next.1.run.events = w.run.events ++ new ∧ Logged w.run next.1.run ∧
      next.1.events = feedAll w.events (feeds (stamp w.run.events.length new)) ∧
      next.2 = (feeds (stamp w.run.events.length new)).flatMap shownFeed := by
  obtain ⟨run, hrun, rfl⟩ := Option.map_eq_some_iff.mp hstep
  have hlogged := logged_step hrun
  obtain ⟨new, hnew⟩ := hlogged.events
  refine ⟨new, hnew.symm, hlogged, ?_, ?_⟩
  · dsimp only
    rw [← hnew, List.drop_left]
  · dsimp only
    rw [← hnew, List.drop_left]

theorem WorkflowRun.Valid.step (h : w.Valid seen) {label : Label}
    (hstep : w.step c label = some next) : next.1.Valid (seen ++ next.2) := by
  obtain ⟨new, hevents, hlogged, hstream, hitems⟩ := step_cases hstep
  have hfed := feedAll_fed h.flow (@feeds_feeds (stamp w.run.events.length new))
  have hstamp : stamp 0 next.1.run.events =
      stamp 0 w.run.events ++ stamp w.run.events.length new := by
    rw [hevents, stamp_append, Nat.zero_add]
  refine ⟨?_, hlogged.whole h.whole, ?_, ?_⟩
  · rw [hstream, hitems]
    obtain ⟨labels, run⟩ := hfed
    refine run.invariant (I := fun r => Flow r.state r.history) h.flow ?_
    intro r label r' _ hr hr'
    obtain ⟨state, items, hstate, rfl⟩ := Recorded.step_cases hr'
    exact flow_step hr hstate
  · rw [published_append, h.published, h.closed, hitems, published_feeds, hstamp, upTo_append]
  · rw [List.any_append, h.closed, hitems, closed_feeds, hstamp, List.any_append]

theorem WorkflowRun.Valid.consume (h : w.Valid seen) {label : ConsumerLabel}
    (hnext : w.consume label = some next) : next.1.Valid (seen ++ next.2) := by
  obtain ⟨⟨events, items⟩, hstep, rfl⟩ := Option.map_eq_some_iff.mp hnext
  have hview := mirrors_step nodes_mirrors h.flow (.consumer label)
  have hview' : (eventStream _).step (view w.events) (.consumer label) = some (view events, items) := by
    rw [← hview]
    show Option.map _ ((Nodes.liveEventStream _).consume w.events label) = _
    rw [hstep]
    rfl
  obtain ⟨hpublished, hclosed⟩ := consume_items hview'
  dsimp only at hpublished hclosed
  refine ⟨flow_step h.flow hview', h.whole, ?_, ?_⟩
  · rw [published_append, hpublished, ite_self, List.append_nil]
    exact h.published
  · rw [List.any_append, hclosed, Bool.or_false]
    exact h.closed

/-- The handle of a workflow run, for a bridge. -/
def workflowHandle (c : WorkflowStartRequest X) : SdkHandle StampedEvent WorkflowOutcome where
  State := WorkflowRun X
  Label := Label
  initial := { run := Workflow.initial, events := (Nodes.liveEventStream _).start }
  step w label := w.step c label
  consume w label := w.consume label
  outcome w := w.run.outcome
  events w := view w.events
  Valid := WorkflowRun.Valid
  initial_events := mirrors_start nodes_mirrors
  initial_valid := ⟨flow_start, whole_initial, rfl, rfl⟩
  step_valid h hstep := h.step hstep
  step_events h hstep := by
    obtain ⟨new, -, -, hstream, hitems⟩ := step_cases hstep
    rw [hstream, hitems]
    exact feedAll_fed h.flow feeds_feeds
  step_outcome h hstep ho := by
    obtain ⟨-, -, hlogged, -⟩ := step_cases hstep
    exact hlogged.outcome h.whole _ ho
  consume_valid h hnext := h.consume hnext
  consume_events label h := by
    rw [show (eventStream _).consume _ label = (eventStream _).step _ (.consumer label) from rfl,
      ← mirrors_step nodes_mirrors h.flow]
    show ((((Nodes.liveEventStream _).consume _ label).map _).map _) = _
    rw [Option.map_map]
    rfl
  consume_outcome _ hnext := by
    obtain ⟨block, -, rfl⟩ := Option.map_eq_some_iff.mp hnext
    rfl

/-! ## The record -/

/-- The bridge of a workflow run. -/
abbrev WorkflowBridge (c : WorkflowStartRequest X) := Bridge (workflowHandle c) WorkflowRunSnapshot

/-- How many snapshots these events tell of. -/
def told (events : List StampedEvent) : Nat :=
  events.countP (·.isSnapshot)

theorem told_append (events new : List StampedEvent) :
    told (events ++ new) = told events + told new :=
  List.countP_append

theorem told_mono {events all : List StampedEvent} (h : events <+: all) :
    told events ≤ told all :=
  h.sublist.countP_le

theorem told_stamp (first : Nat) (events : List WorkflowRunEvent) :
    told (stamp first events) = snapshotEvents events := by
  induction events generalizing first with
  | nil => rfl
  | cons event rest ih =>
    rw [stamp, ← List.singleton_append, told_append, ih]
    show told [{ seq := first, event }] + _ = snapshotEvents ([event] ++ rest)
    unfold snapshotEvents told
    rw [List.countP_append]
    rfl

/-- This snapshot shows all snapshots that the events tell of, and the run has no others than it
shows and those that came later. -/
structure Covers (snapshot : WorkflowRunSnapshot) (run : WorkflowRunInstance X)
    (events : List StampedEvent) : Prop where
  shown : snapshot.snapshots <+: run.snapshots
  told : told events ≤ snapshot.snapshots.length

/-- The loop awaits the write of a snapshot, or has ended for a snapshot that has thrown. -/
def AtSnapshot (pump : Pump StampedEvent WorkflowRunSnapshot) : Prop :=
  ∃ event, (∃ snapshot, pump = .snapshotting event snapshot) ∨
    pump = .ended (some (.snapshot event))

/-- What is on disk and what is about to be written. -/
structure Stored (s : WorkflowBridge c) : Prop where
  latest : ∀ snapshot, s.latest = .holds snapshot → Covers snapshot s.sdk.run (published s.shown)
  missing : s.latest = .missing → told (published s.shown) = 0
  inDoubt : s.latest = .inDoubt → AtSnapshot s.pump
  writing : ∀ event snapshot, s.pump = .snapshotting event snapshot →
    Covers snapshot s.sdk.run s.recorded

variable {s t : WorkflowBridge c}

theorem Covers.later {snapshot : WorkflowRunSnapshot} {run run' : WorkflowRunInstance X}
    {events : List StampedEvent} (h : Covers snapshot run events)
    (hrun : run.snapshots <+: run'.snapshots) : Covers snapshot run' events :=
  ⟨h.shown.trans hrun, h.told⟩

theorem stored_start : Stored (.start : WorkflowBridge c) :=
  ⟨fun _ h => (by cases h), fun _ => rfl, fun h => (by cases h), fun _ _ h => (by cases h)⟩

/-- What is written for an event shows at least what the file tells of. -/
theorem covers_of_snapshot (ht : Bridged t) {event : StampedEvent} {snapshot : WorkflowRunSnapshot}
    (hsnapshot : snapshotOf c t.sdk event = some (some snapshot)) :
    Covers snapshot t.sdk.run t.recorded := by
  have hshows : snapshot.snapshots = t.sdk.run.snapshots := by
    unfold snapshotOf WorkflowRun.snapshot at hsnapshot
    split at hsnapshot
    · split at hsnapshot
      · cases hsnapshot
      · split at hsnapshot
        · cases hsnapshot
        · cases hsnapshot
          rfl
    · cases hsnapshot
  refine ⟨hshows ▸ List.prefix_refl _, ?_⟩
  rw [hshows, ← ht.valid.whole.snapshots, ← told_stamp 0]
  calc told t.recorded ≤ told (published t.seen) :=
        told_mono ((List.prefix_append _ _).trans ht.taken.published)
    _ ≤ told (stamp 0 t.sdk.run.events) := by
        rw [ht.valid.published]
        exact told_mono (upTo_isPrefix _)

theorem stored_step (hs : Bridged s) (ht : Bridged t) (h : Stored s)
    {label : BridgeLabel Label} (hstep : s.step (snapshotOf c) label = some t) : Stored t := by
  cases moved_of_step hs hstep with
  | runs hrun hsdk hpump hrecorded hlatest hshown =>
    have hlater : s.sdk.run.snapshots <+: t.sdk.run.snapshots := by
      obtain ⟨-, -, hlogged, -⟩ := step_cases hrun
      rw [hsdk]
      exact hlogged.snapshots
    refine ⟨fun snapshot hl => ?_, fun hl => ?_, fun hl => ?_, fun event snapshot hp => ?_⟩
    · rw [hshown]
      exact (h.latest snapshot (hlatest.symm.trans hl)).later hlater
    · rw [hshown]
      exact h.missing (hlatest.symm.trans hl)
    · rw [hpump]
      exact h.inDoubt (hlatest.symm.trans hl)
    · rw [hrecorded]
      exact (h.writing event snapshot (hpump.symm.trans hp)).later hlater
  | turns hloop hsdk hpump hstopped hopen hlatest hshown =>
    have hsame : t.sdk.run = s.sdk.run := by
      obtain ⟨block, -, rfl⟩ := Option.map_eq_some_iff.mp hloop
      rw [hsdk]
    refine ⟨fun snapshot hl => ?_, fun hl => ?_, fun hl => ?_,
      fun event snapshot hp => absurd hp (hpump _ _)⟩
    · rw [hshown, hsame]
      exact h.latest snapshot (hlatest.symm.trans hl)
    · rw [hshown]
      exact h.missing (hlatest.symm.trans hl)
    · -- the write of the snapshot has failed
      obtain ⟨event, ⟨snapshot, hwriting⟩ | hended⟩ := h.inDoubt (hlatest.symm.trans hl)
      · exact ⟨event, .inr (hstopped event snapshot hwriting)⟩
      · rw [hended] at hopen
        cases hopen
  | hands event hpump hsnapshot hsdk hturning hlatest hshown =>
    -- the event is not `workflow_snapshot_recorded`
    have hother : told [event] = 0 := by
      unfold snapshotOf at hsnapshot
      split at hsnapshot
      · cases hsnapshot
      · next hevent => simp [told, hevent]
    have htold : told (published t.shown) = told (published s.shown) := by
      rw [hshown, told_append, hother, Nat.add_zero]
    refine ⟨fun snapshot hl => ?_, fun hl => ?_, fun hl => ?_, fun event snapshot hp => ?_⟩
    · obtain ⟨hcovered, htold'⟩ := h.latest snapshot (hlatest.symm.trans hl)
      exact ⟨hsdk ▸ hcovered, htold ▸ htold'⟩
    · exact htold.trans (h.missing (hlatest.symm.trans hl))
    · obtain ⟨other, ⟨snapshot, hother⟩ | hother⟩ := h.inDoubt (hlatest.symm.trans hl)
      · cases hpump.symm.trans hother
      · cases hpump.symm.trans hother
    · rw [hturning] at hp
      cases hp
  | writes event snapshot hpump hsnapshot hsdk hwriting hrecorded hlatest hshown =>
    refine ⟨fun snapshot hl => ?_, fun hl => ?_, fun _ => ⟨event, .inl ⟨snapshot, hwriting⟩⟩,
      fun event snapshot hp => ?_⟩
    · cases hlatest.symm.trans hl
    · cases hlatest.symm.trans hl
    · rw [hwriting] at hp
      cases hp
      exact covers_of_snapshot ht (hsdk ▸ hsnapshot)
  | stores event snapshot hpump hsdk hturning hrecorded hlatest hshown =>
    have hall : published t.shown = s.recorded := by
      have hhanded := hs.handed
      rw [hpump] at hhanded
      exact hshown.trans hhanded
    refine ⟨fun snapshot' hl => ?_, fun hl => ?_, fun hl => ?_, fun event' snapshot' hp => ?_⟩
    · rw [hlatest] at hl
      cases hl
      rw [hall, hsdk]
      exact h.writing event snapshot hpump
    · cases hlatest.symm.trans hl
    · cases hlatest.symm.trans hl
    · rw [hturning] at hp
      cases hp
  | keeps hsdk hpump hrecorded hlatest hshown =>
    refine ⟨fun snapshot hl => ?_, fun hl => ?_, fun hl => ?_, fun event snapshot hp => ?_⟩
    · rw [hshown, hsdk]
      exact h.latest snapshot (hlatest.symm.trans hl)
    · rw [hshown]
      exact h.missing (hlatest.symm.trans hl)
    · rw [hpump]
      exact h.inDoubt (hlatest.symm.trans hl)
    · rw [hrecorded, hsdk]
      exact h.writing event snapshot (hpump.symm.trans hp)

/-- **What the files of a run hold**, and what the host is given. -/
structure WorkflowRecorded (s : WorkflowBridge c) : Prop where
  relayed : Relayed (snapshotOf c) s
  /-- The lines of the file are numbered 0, 1, 2, …, and are the first events of the run. -/
  numbered : s.recorded.map (·.seq) = List.range s.recorded.length
  lines : s.recorded.map (·.event) <+: s.sdk.run.events
  /-- A `workflow_finished` in the file is its last line, for ever, and has the outcome of the
  run. -/
  finished : ∀ before event outcome, s.recorded = before ++ [event] →
    event.outcome? = some outcome →
      s.sdk.run.outcome = some outcome ∧ published s.seen = s.recorded
  once : ∀ event ∈ s.recorded.dropLast, event.outcome? = none
  /-- A loop that ends by itself leaves a file that ends with `workflow_finished`. -/
  complete : s.pump = .ended none → ∃ before event outcome, s.recorded = before ++ [event] ∧
    event.outcome? = some outcome
  /-- `outcome.json` has the outcome of the run. -/
  outcome : ∀ outcome, s.finish = .written outcome → s.sdk.run.outcome = some outcome
  /-- The snapshot on disk shows first snapshots of the run, and every one that an event that was
  handed on tells of. -/
  latest : ∀ snapshot, s.latest = .holds snapshot → Covers snapshot s.sdk.run (published s.shown)
  unstored : s.latest = .missing → ∀ event ∈ published s.shown, event.isSnapshot = false
  /-- What is on disk is in doubt only while the loop awaits the write of a snapshot, and after it has
  ended for a snapshot that has thrown. -/
  inDoubt : s.latest = .inDoubt → AtSnapshot s.pump

theorem outcome_of_event {run : WorkflowRunInstance X} (h : Whole run) {event : StampedEvent}
    {outcome : WorkflowOutcome} (hevent : event.event ∈ run.events)
    (houtcome : event.outcome? = some outcome) : run.outcome = some outcome := by
  have hmem : outcome ∈ finishes run.events := List.mem_filterMap.mpr ⟨_, hevent, houtcome⟩
  rw [h.told] at hmem
  exact Option.mem_toList.mp hmem

theorem workflowRecorded (hs : Bridged s) (hstored : Stored s) : WorkflowRecorded s := by
  have hvalid : s.sdk.Valid s.seen := hs.valid
  have hrelayed : Relayed (snapshotOf c) s := hs.relayed
  have hfirst : s.recorded <+: upTo isFinished (stamp 0 s.sdk.run.events) :=
    hvalid.published ▸ hrelayed.recorded
  have hall : s.recorded <+: stamp 0 s.sdk.run.events := hfirst.trans (upTo_isPrefix _)
  have hlines : s.recorded.map (·.event) <+: s.sdk.run.events := by
    have hmap := hall.map (·.event)
    rwa [map_event_stamp] at hmap
  refine ⟨hrelayed, ?_, hlines, ?_, ?_, ?_, fun outcome h => hs.outcome outcome (Or.inr h),
    hstored.latest, fun hlatest event hevent => ?_, hstored.inDoubt⟩
  · have htake := congrArg (List.map (·.seq)) (List.prefix_iff_eq_take.mp hall)
    rw [List.map_take, map_seq_stamp, ← List.range_eq_range', List.take_range,
      Nat.min_eq_left (by simpa using hlines.length_le)] at htake
    exact htake
  · intro before event outcome heq houtcome
    have hevent : event.event ∈ s.sdk.run.events :=
      hlines.subset (List.mem_map_of_mem (by simp [heq]))
    refine ⟨outcome_of_event hvalid.whole hevent houtcome, ?_⟩
    rw [heq] at hfirst ⊢
    rw [hvalid.published]
    exact upTo_last hfirst (by rw [isFinished, houtcome]; rfl)
  · intro event hevent
    have hnot := not_of_mem_dropLast hfirst hevent
    unfold isFinished at hnot
    simpa using hnot
  · intro hpump
    obtain ⟨hclosed, hwritten, -⟩ := hrelayed.complete hpump
    obtain ⟨before, event, heq, hevent⟩ := upTo_ends (hvalid.closed.symm.trans hclosed)
    obtain ⟨outcome, houtcome⟩ := Option.isSome_iff_exists.mp hevent
    exact ⟨before, event, outcome, by rw [hwritten, hvalid.published, heq], houtcome⟩
  · have hnone := hstored.missing hlatest
    unfold told at hnone
    simpa using List.countP_eq_zero.mp hnone event hevent

/-- **Every workflow run is recorded.**  In every order of the run's steps, the writes of the store,
failed ones among them, and the calls of the host. -/
theorem workflow_record {labels : List (BridgeLabel Label)} {s : WorkflowBridge c}
    (run : Run (Bridge.step (snapshotOf c)) Free .start labels s) : WorkflowRecorded s := by
  refine workflowRecorded (bridged_of_run run) ?_
  refine run.invariant_of (J := Bridged) bridged_of_run stored_start ?_
  exact fun _ _ _ _ hs h hstep => stored_step hs (bridged_step hs hstep) h hstep

/-- The one node completes, and the loop takes the first events. -/
def sampleWorkflow : List (BridgeLabel Label) :=
  [.iterates, .pulls, .sdk .start, .resumes, .appended true, .pulls, .appended true,
    .snapshotted true, .sdk (.launchResolved .start), .sdk (.resume .start)]

theorem workflow_record_only :
    ∃ s : WorkflowBridge (pair refuseDone),
      Run (Bridge.step (snapshotOf (pair refuseDone))) Free .start sampleWorkflow s ∧
      WorkflowRecorded s ∧ s.recorded.map (·.event.body.isSnapshot) = [false, true] ∧
      ∃ snapshot, s.latest = .holds snapshot ∧ snapshot.snapshots.length = 1 := by
  obtain ⟨s, run, hs⟩ := exists_run (Bridge.step (snapshotOf (pair refuseDone))) Free
    (.start : WorkflowBridge (pair refuseDone)) sampleWorkflow
    (fun s => s.recorded.map (·.event.body.isSnapshot) == [false, true] &&
      match s.latest with
      | .holds snapshot => snapshot.snapshots.length == 1
      | _ => false)
    (by decide +kernel)
  simp only [Bool.and_eq_true, beq_iff_eq] at hs
  obtain ⟨hevents, hlatest⟩ := hs
  refine ⟨s, run, workflow_record run, hevents, ?_⟩
  split at hlatest
  · next snapshot heq => exact ⟨snapshot, heq, by simpa using hlatest⟩
  · cases hlatest

end EphemeralAgent.Records
