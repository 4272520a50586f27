import EphemeralAgent.Lib.WriteChain
import EphemeralAgent.Nodes.WorkflowNode
import EphemeralAgent.Records.Bridge

/-!
# The record of a node run

`createNodeHandle` of `src/nodes/node-runner.ts`.  An event is given to the host before it is
written, so here it is the file that may fall behind, and a write that throws cuts it short.

* `NodeRun.step` — one block of the handle, of the store, of the signal or of the host
* `NodeRecorded` — what the events, the files, the snapshot and the promise of the handle say
* `node_record` — **in every order of the blocks they say the same**
* `agentNode_stores`, `workflowNode_stores` — the writes refine the step of the node that stands for
  them
-/

namespace EphemeralAgent.Records

open Lib Streams Workflow

/-! ## What is recorded -/

inductive NodeRunEventBody where
  | nodeStarted (spec : JsonObject)
  | nodeOutcomeSubmitted (outcome : NodeOutcome)
  | nodeOutcomeRejected (reason : String)
  | nodeSettled (settlement : NodeSettlement)

structure NodeRunEvent where
  body : NodeRunEventBody
  nodeName : String
  seq : Nat
  time : Stamp

/-- `AbortSignal`, with its reason if that is a string. -/
inductive AbortSignal where
  | live
  | aborted (reason : Option String)

/-- `NodeLaunchRequest`, as far as `createNodeHandle` reads it. -/
structure NodeLaunchRequest where
  start : NodeStartSpec
  metadata : Option JsonObject := none
  signal : Option AbortSignal := none

def abortReason : Option AbortSignal → String
  | some (.aborted (some reason)) => reason
  | _ => "interrupted"

/-- `request.start.node.kind`, as the source spells it. -/
def nodeKindName : NodeKind → String
  | .agent => "agent"
  | .workflow => "workflow"

def inputMetadata : NodeInput → Option JsonObject
  | .agent _ metadata => metadata
  | .workflow _ metadata => metadata

def nodeStartSpecRecord (request : NodeLaunchRequest) : JsonObject :=
  let metadata := inputMetadata request.start.input
  let node : JsonObject :=
    [("kind", .str (nodeKindName request.start.node.kind)), ("name", .str request.start.node.name)] ++
      (request.start.node.description.map fun text => ("description", Json.str text)).toList
  [("node", .obj node),
    ("outcome", .obj [("name", .str request.start.outcome.name),
      ("description", .str request.start.outcome.description)])] ++
    (request.metadata.map fun fields => ("metadata", Json.obj fields)).toList ++
    (metadata.map fun fields => ("inputMetadata", Json.obj fields)).toList

/-- The event of a submission, before `node_settled`. -/
def submissionBody : NodeSettlement → List NodeRunEventBody
  | .completed outcome => [.nodeOutcomeSubmitted outcome]
  | .rejected reason => [.nodeOutcomeRejected reason]
  | .failed _ | .cancelled _ => []

/-! ## The handle -/

/-- Where the promise `settlement` of the handle stands. -/
inductive NodeRunStage where
  /-- `input.settle()` is under way. -/
  | settling
  /-- `await eventWrites`. -/
  | draining (result : NodeSettlement)
  /-- `await input.store.finish(..)`. -/
  | finishing (result : NodeSettlement)
  /-- The `finally` has closed the stream; the abort listener is still there. -/
  | closed (result : NodeSettlement) (stored : Bool)
  /-- The promise has resolved with the result, or rejected when it is not stored. -/
  | settled (result : NodeSettlement) (stored : Bool)

/-- A node handle with its files and its stream.  `interrupts` are the reasons that `onInterrupt`
has been called with; `shown` is what the stream has shown, and no code reads it. -/
structure NodeRun where
  startedAt : Stamp
  status : NodeRunStatus := .running
  completedAt : Option Stamp := none
  seq : Nat := 0
  /-- `eventWrites`, and the events in `events.jsonl`. -/
  eventWrites : WriteChain NodeRunEvent := {}
  stage : NodeRunStage := .settling
  /-- `outcome.json`. -/
  outcome : Option NodeSettlement := none
  stream : Streaming (Runs.LiveEventStream NodeRunEvent) := (Runs.liveEventStream _).start
  signal : Option AbortSignal := none
  listening : Bool := false
  interrupts : List String := []
  shown : List (StreamItem NodeRunEvent) := []

inductive NodeRunLabel where
  /-- `settle()` has resolved or thrown; the readings of the clock that follow. -/
  | settles (result : Except String NodeSettlement) (completedAt submittedAt settledAt : Stamp)
  /-- The `appendEvent` in flight resolves or throws. -/
  | appended (written : Bool)
  /-- `await eventWrites` goes on. -/
  | drained
  | finished (written : Bool)
  /-- The `finally` of the promise removes the listener. -/
  | released
  /-- The signal fires. -/
  | aborts (reason : Option String)
  /-- `interrupt(reason)` is called. -/
  | interrupts (reason : String)
  /-- The consumer of `events()`. -/
  | consumer (label : ConsumerLabel)

namespace NodeRun

variable (request : NodeLaunchRequest)

def feed (s : NodeRun) (label : StreamLabel NodeRunEvent) : Option NodeRun :=
  ((Runs.liveEventStream NodeRunEvent).step s.stream label).map fun next =>
    { s with stream := next.1, shown := s.shown ++ next.2 }

def emit (s : NodeRun) (body : NodeRunEventBody) (time : Stamp) : Option NodeRun :=
  let event : NodeRunEvent := { body, nodeName := request.start.node.name, seq := s.seq, time }
  { s with seq := s.seq + 1, eventWrites := s.eventWrites.chain event }.feed (.push event)

def emitAll (s : NodeRun) (bodies : List NodeRunEventBody) (time : Stamp) : Option NodeRun :=
  bodies.foldlM (fun s body => s.emit request body time) s

/-- `input.onInterrupt(..)` is called. -/
def interrupt (s : NodeRun) (reason : String) : NodeRun :=
  { s with interrupts := s.interrupts ++ [reason] }

/-- `createNodeHandle`, up to the call of `settle()`. -/
def start (startedAt time : Stamp) : Option NodeRun :=
  ({ startedAt, signal := request.signal : NodeRun }.emit request
    (.nodeStarted (nodeStartSpecRecord request)) time).map fun s =>
      match request.signal with
      | none => s
      | some .live => { s with listening := true }
      | some (.aborted _) => s.interrupt (abortReason request.signal)

/-- `.then(async (result) => ..)`, up to `await eventWrites`. -/
def settle (s : NodeRun) (result : NodeSettlement) (completedAt submittedAt settledAt : Stamp) :
    Option NodeRun :=
  ({ s with status := result.status, completedAt := some completedAt,
            stage := .draining result }.emitAll request (submissionBody result) submittedAt).bind
    fun s => s.emit request (.nodeSettled result) settledAt

/-- The `finally` around the writes. -/
def close (s : NodeRun) (result : NodeSettlement) (stored : Bool) : Option NodeRun :=
  { s with stage := .closed result stored }.feed .close

/-- **One block.** -/
def step (s : NodeRun) : NodeRunLabel → Option NodeRun
  | .settles result completedAt submittedAt settledAt =>
    match s.stage with
    | .settling =>
      match result with
      | .ok settlement => s.settle request settlement completedAt submittedAt settledAt
      | .error message => s.settle request (.failed message) completedAt submittedAt settledAt
    | _ => none
  | .appended ok => (s.eventWrites.settle ok).map fun eventWrites => { s with eventWrites }
  | .drained =>
    match s.stage with
    | .draining result =>
      if s.eventWrites.pending.isEmpty then
        if s.eventWrites.broken then s.close result false
        else some { s with stage := .finishing result }
      else none
    | _ => none
  | .finished ok =>
    match s.stage with
    | .finishing result =>
      if ok then { s with outcome := some result }.close result true else s.close result false
    | _ => none
  | .released =>
    match s.stage with
    | .closed result stored => some { s with stage := .settled result stored, listening := false }
    | _ => none
  | .aborts reason =>
    match s.signal with
    | some .live =>
      let s := { s with signal := some (.aborted reason) }
      -- the listener is registered `once`
      some (if s.listening then { s with listening := false }.interrupt (abortReason s.signal) else s)
    | _ => none
  | .interrupts reason => some (s.interrupt reason)
  | .consumer label => s.feed (.consumer label)

end NodeRun

/-! ## What the stages say -/

namespace NodeRunStage

/-- What `settle()` has come to. -/
def result? : NodeRunStage → Option NodeSettlement
  | .settling => none
  | .draining result | .finishing result | .closed result _ | .settled result _ => some result

/-- The events that have been emitted. -/
def bodies (request : NodeLaunchRequest) (stage : NodeRunStage) : List NodeRunEventBody :=
  .nodeStarted (nodeStartSpecRecord request) ::
    match stage.result? with
    | none => []
    | some result => submissionBody result ++ [.nodeSettled result]

def status (stage : NodeRunStage) : NodeRunStatus :=
  match stage.result? with
  | none => .running
  | some result => result.status

/-- What `outcome.json` holds. -/
def stored? : NodeRunStage → Option NodeSettlement
  | .closed result true | .settled result true => some result
  | _ => none

def isClosed : NodeRunStage → Bool
  | .closed .. | .settled .. => true
  | _ => false

def isSettled : NodeRunStage → Bool
  | .settled .. => true
  | _ => false

/-- `await eventWrites` is over. -/
def isDrained : NodeRunStage → Bool
  | .finishing _ | .closed .. | .settled .. => true
  | _ => false

/-- `await eventWrites` has resolved. -/
def isWhole : NodeRunStage → Bool
  | .finishing _ | .closed _ true | .settled _ true => true
  | _ => false

/-- What a workflow run that waits for the settlement sees of the stage. -/
def settling? : NodeRunStage → Option Nodes.Settling
  | .settling => none
  | .draining result | .finishing result => some (.finishing result)
  | .closed result true | .settled result true => some (.stored result)
  | .closed _ false | .settled _ false => some .broken

/-- The blocks of the handle that are still to come. -/
def blocks : NodeRunStage → Nat
  | .settling => 4
  | .draining _ => 3
  | .finishing _ => 2
  | .closed .. => 1
  | .settled .. => 0

end NodeRunStage

/-! ## The events -/

section Events

variable {request : NodeLaunchRequest} {s t : NodeRun} {bodies : List NodeRunEventBody}
  {body : NodeRunEventBody} {time : Stamp}

/-- What has been emitted, and what is in the file. -/
structure NodeEmits (request : NodeLaunchRequest) (bodies : List NodeRunEventBody) (s : NodeRun) :
    Prop where
  flow : Flow (s.stream.view Runs.LiveEventStream.view) s.shown
  bodies : (published s.shown).map (·.body) = bodies
  numbered : (published s.shown).map (·.seq) = List.range s.seq
  named : ∀ event ∈ published s.shown, event.nodeName = request.start.node.name
  chained : Chained (published s.shown) s.eventWrites

/-- Only what an emission changes differs. -/
def Emission (s t : NodeRun) : Prop :=
  ∃ seq eventWrites stream shown, t = { s with seq, eventWrites, stream, shown }

theorem Emission.trans {u : NodeRun} (h : Emission s t) (h' : Emission t u) : Emission s u := by
  obtain ⟨seq, eventWrites, stream, shown, rfl⟩ := h
  obtain ⟨seq', eventWrites', stream', shown', rfl⟩ := h'
  exact ⟨seq', eventWrites', stream', shown', rfl⟩

theorem nodeFeed_cases {label : StreamLabel NodeRunEvent}
    (hflow : Flow (s.stream.view Runs.LiveEventStream.view) s.shown) (ht : s.feed label = some t) :
    ∃ stream items, (Runs.liveEventStream NodeRunEvent).step s.stream label = some (stream, items) ∧
      t = { s with stream, shown := s.shown ++ items } ∧
      Flow (t.stream.view Runs.LiveEventStream.view) t.shown := by
  obtain ⟨⟨stream, items⟩, hstep, rfl⟩ := Option.map_eq_some_iff.mp ht
  have hview := mirrors_step runs_mirrors hflow label
  rw [hstep] at hview
  exact ⟨stream, items, hstep, rfl, flow_step hflow hview.symm⟩

/-- **One event more.** -/
theorem NodeEmits.emit (h : NodeEmits request bodies s) (hopen : s.shown.any isClose = false)
    (ht : s.emit request body time = some t) :
    NodeEmits request (bodies ++ [body]) t ∧ t.shown.any isClose = false ∧ Emission s t := by
  let event : NodeRunEvent := { body, nodeName := request.start.node.name, seq := s.seq, time }
  obtain ⟨stream, items, hfeed, rfl, hflow⟩ := nodeFeed_cases
    (s := { s with seq := s.seq + 1, eventWrites := s.eventWrites.chain event }) h.flow ht
  cases hfeed
  have hpublished := published_push hopen event
  refine ⟨⟨hflow, ?_, ?_, ?_, ?_⟩, ?_, _, _, _, _, rfl⟩
  · show List.map _ (published (s.shown ++ _)) = _
    rw [hpublished, List.map_append, h.bodies]
    rfl
  · show List.map _ (published (s.shown ++ _)) = List.range (s.seq + 1)
    rw [hpublished, List.map_append, h.numbered, List.range_succ]
    rfl
  · show ∀ event ∈ published (s.shown ++ _), _
    rw [hpublished]
    intro event hevent
    rcases List.mem_append.mp hevent with hold | hnew
    · exact h.named event hold
    · rw [List.mem_singleton.mp hnew]
  · show Chained (published (s.shown ++ _)) (s.eventWrites.chain _)
    rw [hpublished]
    exact h.chained.chain _
  · show (s.shown ++ _).any isClose = false
    rw [List.any_append, hopen]
    rfl

theorem NodeEmits.emitAll (more : List NodeRunEventBody) : ∀ {s : NodeRun} {bodies},
    NodeEmits request bodies s → s.shown.any isClose = false → s.emitAll request more time = some t →
      NodeEmits request (bodies ++ more) t ∧ t.shown.any isClose = false ∧ Emission s t := by
  induction more with
  | nil =>
    intro s bodies h hopen ht
    cases ht
    rw [List.append_nil]
    exact ⟨h, hopen, _, _, _, _, rfl⟩
  | cons body more ih =>
    intro s bodies h hopen ht
    have ht : (s.emit request body time).bind (·.emitAll request more time) = some t := ht
    obtain ⟨u, hu, ht⟩ := Option.bind_eq_some_iff.mp ht
    obtain ⟨hemits, hopen', hsame⟩ := h.emit hopen hu
    obtain ⟨hall, hopen'', hsame'⟩ := ih hemits hopen' ht
    rw [List.append_assoc] at hall
    exact ⟨hall, hopen'', hsame.trans hsame'⟩

end Events

/-! ## The invariant -/

section Handled

variable {request : NodeLaunchRequest} {s t : NodeRun}

/-- What a node handle is, by where its promise stands. -/
structure NodeHandled (request : NodeLaunchRequest) (s : NodeRun) : Prop where
  emits : NodeEmits request (s.stage.bodies request) s
  closed : s.shown.any isClose = s.stage.isClosed
  status : s.status = s.stage.status
  completedAt : s.completedAt.isSome = s.stage.result?.isSome
  outcome : s.outcome = s.stage.stored?
  drained : s.stage.isDrained = true → s.eventWrites.pending = []
  whole : s.stage.isWhole = true → s.eventWrites.broken = false
  listening : s.stage.isSettled = false → (s.listening = true ↔ s.signal = some .live)
  passed : ∀ reason, s.signal = some (.aborted reason) → s.stage.isSettled = false →
    abortReason s.signal ∈ s.interrupts

theorem nodeHandled_start {startedAt time : Stamp}
    (ht : NodeRun.start request startedAt time = some t) : NodeHandled request t := by
  obtain ⟨s, hs, rfl⟩ := Option.map_eq_some_iff.mp ht
  have hnone : NodeEmits request [] ({ startedAt, signal := request.signal } : NodeRun) :=
    ⟨flow_start, rfl, rfl, fun _ hevent => absurd hevent (List.not_mem_nil), chained_nil⟩
  obtain ⟨hemits, hopen, seq, eventWrites, stream, shown, rfl⟩ := hnone.emit rfl hs
  cases hsignal : request.signal with
  | none =>
    refine ⟨⟨hemits.1, hemits.2, hemits.3, hemits.4, hemits.5⟩, hopen, rfl, rfl, rfl, nofun, nofun,
      fun _ => ?_, fun reason hreason => ?_⟩
    · simp
    · cases hreason
  | some signal =>
    cases signal with
    | live =>
      refine ⟨⟨hemits.1, hemits.2, hemits.3, hemits.4, hemits.5⟩, hopen, rfl, rfl, rfl, nofun, nofun,
        fun _ => ?_, fun reason hreason => ?_⟩
      · simp
      · cases hreason
    | aborted reason =>
      refine ⟨⟨hemits.1, hemits.2, hemits.3, hemits.4, hemits.5⟩, hopen, rfl, rfl, rfl, nofun, nofun,
        fun _ => ?_, fun reason' _ _ => ?_⟩
      · simp [NodeRun.interrupt]
      · simp [NodeRun.interrupt]

/-- The events of the handle are what they were, and so are the files. -/
theorem NodeEmits.consume (h : NodeEmits request (s.stage.bodies request) s) {label : ConsumerLabel}
    (ht : s.feed (.consumer label) = some t) :
    NodeEmits request (s.stage.bodies request) t ∧ t.shown.any isClose = s.shown.any isClose ∧
      ∃ stream shown, t = { s with stream, shown } := by
  obtain ⟨stream, items, hfeed, rfl, hflow⟩ := nodeFeed_cases h.flow ht
  have hview := mirrors_step runs_mirrors h.flow (.consumer label)
  rw [hfeed] at hview
  obtain ⟨hnothing, hnone⟩ := consume_items hview.symm
  have hpublished : published (s.shown ++ items) = published s.shown := by
    rw [published_append]
    simp only at hnothing
    rw [hnothing, ite_self, List.append_nil]
  refine ⟨⟨hflow, ?_, ?_, ?_, ?_⟩, ?_, _, _, rfl⟩
  · show (published (s.shown ++ items)).map _ = _
    rw [hpublished]
    exact h.bodies
  · show (published (s.shown ++ items)).map _ = _
    rw [hpublished]
    exact h.numbered
  · show ∀ event ∈ published (s.shown ++ items), _
    rw [hpublished]
    exact h.named
  · show Chained (published (s.shown ++ items)) _
    rw [hpublished]
    exact h.chained
  · show (s.shown ++ items).any isClose = _
    rw [List.any_append, show items.any isClose = false from hnone, Bool.or_false]

/-- The promise is about to settle, and the stream is closed. -/
theorem NodeHandled.close (h : NodeHandled request s) (result : NodeSettlement) (stored : Bool)
    (outcome : Option NodeSettlement) (hresult : s.stage.result? = some result)
    (hopen : s.stage.isClosed = false) (hpending : s.eventWrites.pending = [])
    (hwhole : stored = true → s.eventWrites.broken = false)
    (houtcome : outcome = (NodeRunStage.closed result stored).stored?)
    (ht : { s with outcome }.close result stored = some t) : NodeHandled request t := by
  obtain ⟨stream, items, hfeed, rfl, hflow⟩ := nodeFeed_cases
    (s := { s with outcome, stage := .closed result stored }) h.emits.flow ht
  cases hfeed
  have hlive : s.stage.isSettled = false := by
    cases hstage : s.stage <;> rw [hstage] at hopen <;> first | rfl | cases hopen
  have hbodies : (NodeRunStage.closed result stored).bodies request = s.stage.bodies request := by
    rw [NodeRunStage.bodies, NodeRunStage.bodies, hresult]
    rfl
  have hpublished : published (s.shown ++ [StreamItem.close]) = published s.shown :=
    published_close s.shown
  refine { emits := ⟨hflow, ?_, ?_, ?_, ?_⟩, closed := any_close _, status := ?_, completedAt := ?_,
           outcome := houtcome, drained := fun _ => hpending, whole := fun hstored => ?_,
           listening := fun _ => h.listening hlive, passed := fun reason hreason _ => ?_ }
  · show (published (s.shown ++ [StreamItem.close])).map _ = (NodeRunStage.closed result stored).bodies _
    rw [hpublished, hbodies]
    exact h.emits.bodies
  · show (published (s.shown ++ [StreamItem.close])).map _ = _
    rw [hpublished]
    exact h.emits.numbered
  · show ∀ event ∈ published (s.shown ++ [StreamItem.close]), _
    rw [hpublished]
    exact h.emits.named
  · show Chained (published (s.shown ++ [StreamItem.close])) _
    rw [hpublished]
    exact h.emits.chained
  · have hstatus := h.status
    rw [NodeRunStage.status, hresult] at hstatus
    exact hstatus
  · have hcompleted := h.completedAt
    rw [hresult] at hcompleted
    exact hcompleted
  · cases stored with
    | true => exact hwhole rfl
    | false => cases hstored
  · exact h.passed reason hreason hlive

/-- `settle()` has come to its end. -/
theorem NodeHandled.settle (h : NodeHandled request s) {result : NodeSettlement}
    {completedAt submittedAt settledAt : Stamp} (hstage : s.stage = .settling)
    (ht : s.settle request result completedAt submittedAt settledAt = some t) :
    NodeHandled request t := by
  obtain ⟨u, hu, ht⟩ := Option.bind_eq_some_iff.mp ht
  have hopen : s.shown.any isClose = false := by
    rw [h.closed, hstage]
    rfl
  have hlive : s.stage.isSettled = false := by rw [hstage]; rfl
  have hstarted : NodeEmits request [.nodeStarted (nodeStartSpecRecord request)]
      { s with status := result.status, completedAt := some completedAt, stage := .draining result } := by
    have hemits := h.emits
    rw [hstage] at hemits
    exact ⟨hemits.1, hemits.2, hemits.3, hemits.4, hemits.5⟩
  obtain ⟨hsubmitted, hopen', hsame⟩ := hstarted.emitAll _ hopen hu
  obtain ⟨hemits, hopen'', hsame'⟩ := hsubmitted.emit hopen' ht
  obtain ⟨seq, eventWrites, stream, shown, rfl⟩ := hsame.trans hsame'
  refine { emits := ?_, closed := hopen'', status := rfl, completedAt := rfl, outcome := ?_,
           drained := nofun, whole := nofun, listening := fun _ => h.listening hlive,
           passed := fun reason hreason _ => h.passed reason hreason hlive }
  · rw [List.append_assoc] at hemits
    exact hemits
  · show s.outcome = none
    rw [h.outcome, hstage]
    rfl

/-- **One block keeps it.** -/
theorem nodeHandled_step {label : NodeRunLabel} (h : NodeHandled request s)
    (hstep : s.step request label = some t) : NodeHandled request t := by
  cases label with
  | settles result completedAt submittedAt settledAt =>
    simp only [NodeRun.step] at hstep
    split at hstep
    · next hstage =>
      cases result with
      | ok settlement => exact h.settle hstage hstep
      | error message => exact h.settle hstage hstep
    · cases hstep
  | appended ok =>
    obtain ⟨eventWrites, hsettle, rfl⟩ := Option.map_eq_some_iff.mp hstep
    -- nothing is in flight once the chain has been awaited
    have hearly : s.stage.isDrained = false := by
      by_contra hdrained
      have hpending := h.drained (Bool.not_eq_false _ ▸ hdrained)
      rw [WriteChain.settle, hpending] at hsettle
      cases hsettle
    have hnever : s.stage.isWhole = false := by
      cases hstage : s.stage <;> rw [hstage] at hearly <;> first | rfl | cases hearly
    obtain ⟨flow, bodies, numbered, named, chained⟩ := h.emits
    refine { h with
      emits := ⟨flow, bodies, numbered, named, chained.settle hsettle⟩
      drained := fun hdrained => ?_
      whole := fun hwhole => ?_ }
    · rw [show s.stage.isDrained = true from hdrained] at hearly
      cases hearly
    · rw [show s.stage.isWhole = true from hwhole] at hnever
      cases hnever
  | drained =>
    simp only [NodeRun.step] at hstep
    split at hstep
    · next result hstage =>
      obtain ⟨hempty, hstep⟩ := Option.ite_none_right_eq_some.mp hstep
      have hpending : s.eventWrites.pending = [] := List.isEmpty_iff.mp hempty
      have hresult : s.stage.result? = some result := by rw [hstage]; rfl
      have hopen : s.stage.isClosed = false := by rw [hstage]; rfl
      have houtcome : s.outcome = none := by rw [h.outcome, hstage]; rfl
      split at hstep
      · exact h.close result false s.outcome hresult hopen hpending nofun houtcome hstep
      · next hwhole =>
        cases hstep
        have hlive : s.stage.isSettled = false := by rw [hstage]; rfl
        have hemits := h.emits
        have hclosed := h.closed
        have hstatus := h.status
        have hcompleted := h.completedAt
        rw [hstage] at hemits hclosed hstatus hcompleted
        exact { emits := ⟨hemits.1, hemits.2, hemits.3, hemits.4, hemits.5⟩, closed := hclosed
                status := hstatus, completedAt := hcompleted, outcome := houtcome
                drained := fun _ => hpending, whole := fun _ => by simpa using hwhole
                listening := fun _ => h.listening hlive
                passed := fun reason hreason _ => h.passed reason hreason hlive }
    · cases hstep
  | finished ok =>
    simp only [NodeRun.step] at hstep
    split at hstep
    · next result hstage =>
      have hresult : s.stage.result? = some result := by rw [hstage]; rfl
      have hopen : s.stage.isClosed = false := by rw [hstage]; rfl
      have hpending : s.eventWrites.pending = [] := h.drained (by rw [hstage]; rfl)
      have hwhole : s.eventWrites.broken = false := h.whole (by rw [hstage]; rfl)
      have houtcome : s.outcome = none := by rw [h.outcome, hstage]; rfl
      cases ok with
      | true => exact h.close result true (some result) hresult hopen hpending (fun _ => hwhole) rfl hstep
      | false =>
        exact h.close result false s.outcome hresult hopen hpending nofun houtcome hstep
    · cases hstep
  | released =>
    simp only [NodeRun.step] at hstep
    split at hstep
    · next result stored hstage =>
      cases hstep
      have hemits := h.emits
      have hclosed := h.closed
      have hstatus := h.status
      have hcompleted := h.completedAt
      have houtcome := h.outcome
      have hwhole := h.whole
      rw [hstage] at hemits hclosed hstatus hcompleted houtcome hwhole
      refine { emits := ⟨hemits.1, hemits.2, hemits.3, hemits.4, hemits.5⟩, closed := hclosed
               status := hstatus, completedAt := hcompleted, outcome := ?_
               drained := fun _ => h.drained (by rw [hstage]; rfl), whole := fun hstored => ?_
               listening := nofun, passed := nofun }
      · cases stored <;> exact houtcome
      · cases stored with
        | true => exact hwhole rfl
        | false => cases hstored
    · cases hstep
  | aborts reason =>
    simp only [NodeRun.step] at hstep
    split at hstep
    · next hsignal =>
      simp only [Option.some.injEq] at hstep
      obtain ⟨emits, closed, status, completedAt, outcome, drained, whole, listening, passed⟩ := h
      obtain ⟨flow, bodies, numbered, named, chained⟩ := emits
      split at hstep
      · next hlistening =>
        subst hstep
        exact { emits := ⟨flow, bodies, numbered, named, chained⟩, closed, status, completedAt
                outcome, drained, whole
                listening := fun _ => by simp [NodeRun.interrupt]
                passed := fun _ _ _ => by simp [NodeRun.interrupt] }
      · next hlistening =>
        subst hstep
        -- the listener is there until the promise has settled
        have hsettled : s.stage.isSettled = true := by
          by_contra hlive
          exact hlistening ((listening (Bool.not_eq_true _ ▸ hlive)).mpr hsignal)
        refine { emits := ⟨flow, bodies, numbered, named, chained⟩, closed, status, completedAt
                 outcome, drained, whole, listening := fun hlive => ?_
                 passed := fun _ _ hlive => ?_ }
        · rw [show s.stage.isSettled = false from hlive] at hsettled
          cases hsettled
        · rw [show s.stage.isSettled = false from hlive] at hsettled
          cases hsettled
    · cases hstep
  | interrupts reason =>
    cases hstep
    obtain ⟨flow, bodies, numbered, named, chained⟩ := h.emits
    exact { h with
      emits := ⟨flow, bodies, numbered, named, chained⟩
      passed := fun other hother hlive => List.mem_append_left _ (h.passed other hother hlive) }
  | consumer label =>
    obtain ⟨hemits, hsame, stream, shown, rfl⟩ := h.emits.consume hstep
    exact { h with emits := hemits, closed := hsame.trans h.closed }

/-! ## What a workflow run sees -/

theorem feed_stage {label : StreamLabel NodeRunEvent} (ht : s.feed label = some t) :
    t.stage = s.stage := by
  obtain ⟨next, -, rfl⟩ := Option.map_eq_some_iff.mp ht
  rfl

theorem emit_stage {body : NodeRunEventBody} {time : Stamp} (ht : s.emit request body time = some t) :
    t.stage = s.stage := by
  cases ht
  rfl

theorem emitAll_stage {time : Stamp} (bodies : List NodeRunEventBody) : ∀ {s : NodeRun},
    s.emitAll request bodies time = some t → t.stage = s.stage := by
  induction bodies with
  | nil =>
    intro s ht
    cases ht
    rfl
  | cons body bodies ih =>
    intro s ht
    have ht : (s.emit request body time).bind (·.emitAll request bodies time) = some t := ht
    obtain ⟨u, hu, ht⟩ := Option.bind_eq_some_iff.mp ht
    exact (ih ht).trans (emit_stage hu)

theorem settle_stage {result : NodeSettlement} {completedAt submittedAt settledAt : Stamp}
    (ht : s.settle request result completedAt submittedAt settledAt = some t) :
    t.stage = .draining result := by
  obtain ⟨u, hu, ht⟩ := Option.bind_eq_some_iff.mp ht
  exact (emit_stage ht).trans (emitAll_stage _ hu)

theorem close_settling {result : NodeSettlement} {stored : Bool}
    (ht : s.close result stored = some t) :
    t.stage.settling? = some (if stored = true then .stored result else .broken) := by
  unfold NodeRun.close at ht
  rw [feed_stage ht]
  cases stored <;> rfl

/-- A workflow run that waits for the settlement sees no more than `Settling` says. -/
theorem settling_step {label : NodeRunLabel} (hstep : s.step request label = some t) :
    t.stage.settling? = s.stage.settling? ∨
      (s.stage.settling? = none ∧ ∃ result, t.stage.settling? = some (.finishing result)) ∨
      ∃ (result : NodeSettlement) (written : Bool), s.stage.settling? = some (.finishing result) ∧
        t.stage.settling? = some (if written = true then .stored result else .broken) := by
  cases label with
  | settles result completedAt submittedAt settledAt =>
    simp only [NodeRun.step] at hstep
    split at hstep
    · next hstage =>
      refine .inr (.inl ⟨by rw [hstage]; rfl, ?_⟩)
      cases result with
      | ok settlement => exact ⟨settlement, by rw [settle_stage hstep]; rfl⟩
      | error message => exact ⟨.failed message, by rw [settle_stage hstep]; rfl⟩
    · cases hstep
  | appended ok =>
    obtain ⟨eventWrites, -, rfl⟩ := Option.map_eq_some_iff.mp hstep
    exact .inl rfl
  | drained =>
    simp only [NodeRun.step] at hstep
    split at hstep
    · next result hstage =>
      obtain ⟨-, hstep⟩ := Option.ite_none_right_eq_some.mp hstep
      split at hstep
      · exact .inr (.inr ⟨result, false, by rw [hstage]; rfl, close_settling hstep⟩)
      · cases hstep
        exact .inl (by rw [hstage]; rfl)
    · cases hstep
  | finished ok =>
    simp only [NodeRun.step] at hstep
    split at hstep
    · next result hstage =>
      refine .inr (.inr ⟨result, ok, by rw [hstage]; rfl, ?_⟩)
      cases ok with
      | true => exact close_settling hstep
      | false => exact close_settling hstep
    · cases hstep
  | released =>
    simp only [NodeRun.step] at hstep
    split at hstep
    · next result stored hstage =>
      cases hstep
      refine .inl ?_
      rw [hstage]
      cases stored <;> rfl
    · cases hstep
  | aborts reason =>
    simp only [NodeRun.step] at hstep
    split at hstep
    · simp only [Option.some.injEq] at hstep
      subst hstep
      split <;> exact .inl rfl
    · cases hstep
  | interrupts reason =>
    cases hstep
    exact .inl rfl
  | consumer label =>
    obtain ⟨next, -, rfl⟩ := Option.map_eq_some_iff.mp hstep
    exact .inl rfl

/-- From the end of `settle()` on, the blocks of the handle come to the step `stores` of its node.
`put` is the node with its handle where it stands. -/
theorem stores_of_run {N L : Type} {step : N → L → Option N} {stores : Bool → L}
    (put : Option Nodes.Settling → N)
    (hstores : ∀ result written, step (put (some (.finishing result))) (stores written) =
      some (put (some (if written = true then .stored result else .broken))))
    {labels : List NodeRunLabel} (run : Run (NodeRun.step request) Free s labels t)
    (hended : s.stage.settling?.isSome = true) :
    t.stage.settling?.isSome = true ∧
      ∃ written : List Bool,
        Run step Free (put s.stage.settling?) (written.map stores) (put t.stage.settling?) := by
  induction run with
  | nil => exact ⟨hended, [], .nil _⟩
  | @snoc t u labels label run _ hstep ih =>
    obtain ⟨hsome, written, hrun⟩ := ih
    rcases settling_step hstep with hsame | ⟨hnone, -⟩ | ⟨result, ok, hfinishing, hstored⟩
    · rw [hsame]
      exact ⟨hsome, written, hrun⟩
    · rw [hnone] at hsome
      cases hsome
    · rw [hstored]
      rw [hfinishing] at hrun
      refine ⟨rfl, written ++ [ok], ?_⟩
      rw [List.map_append]
      exact .snoc hrun trivial (hstores result ok)

/-- **The record of an agent node refines the settlement of its handle.** -/
theorem agentNode_stores {X : Type} (c : WorkflowStartRequest X) (d : Nodes.Delegation) (index : Nat)
    (node : Nodes.AgentNode X) {labels : List NodeRunLabel}
    (run : Run (NodeRun.step request) Free s labels t) (hended : s.stage.settling?.isSome = true) :
    ∃ written : List Bool, Run (Nodes.AgentNode.step c d index) Free
      { node with handle := s.stage.settling? } (written.map .stores)
      { node with handle := t.stage.settling? } :=
  (stores_of_run (fun handle => { node with handle }) (fun _ _ => rfl) run hended).2

/-- **And the record of a workflow node.** -/
theorem workflowNode_stores {X Y : Type} (c : WorkflowStartRequest X) (d : Nodes.WorkflowDelegation Y)
    (index : Nat) (node : Nodes.WorkflowNode X Y) {labels : List NodeRunLabel}
    (run : Run (NodeRun.step request) Free s labels t) (hended : s.stage.settling?.isSome = true) :
    ∃ written : List Bool, Run (Nodes.WorkflowNode.step c d index) Free
      { node with handle := s.stage.settling? } (written.map .stores)
      { node with handle := t.stage.settling? } :=
  (stores_of_run (fun handle => { node with handle }) (fun _ _ => rfl) run hended).2

/-! ## The promise settles -/

/-- A block of the store that answers so, or of the handle after one. -/
def NodeRunLabel.answers (ok : Bool) : NodeRunLabel → Bool
  | .appended written | .finished written => written == ok
  | .drained | .released => true
  | _ => false

/-- What is still to be done once `settle()` has come to its end. -/
def NodeRun.work (s : NodeRun) : Nat :=
  s.eventWrites.pending.length + s.stage.blocks

/-- Whatever the store answers, something is done next. -/
theorem store_next (request : NodeLaunchRequest) (hended : s.stage.result?.isSome = true)
    (hlive : s.stage.isSettled = false) (ok : Bool) : ∃ label t, label.answers ok = true ∧ s.step request label = some t ∧
      t.stage.result?.isSome = true ∧ t.work < s.work := by
  cases hstage : s.stage with
  | settling =>
    rw [hstage] at hended
    cases hended
  | draining result =>
    cases hpending : s.eventWrites.pending with
    | cons event rest =>
      have hsettle : ∃ eventWrites, s.eventWrites.settle ok = some eventWrites ∧
          eventWrites.pending.length < s.eventWrites.pending.length := by
        rw [WriteChain.settle, hpending]
        cases ok with
        | true => exact ⟨_, rfl, Nat.lt_succ_self _⟩
        | false => exact ⟨_, rfl, Nat.zero_lt_succ _⟩
      obtain ⟨eventWrites, hsettle, hlt⟩ := hsettle
      refine ⟨.appended ok, { s with eventWrites }, beq_self_eq_true ok, ?_, hended, ?_⟩
      · show (s.eventWrites.settle ok).map _ = _
        rw [hsettle]
        rfl
      · show eventWrites.pending.length + s.stage.blocks < s.work
        unfold NodeRun.work
        omega
    | nil =>
      have hstep : s.step request .drained = if s.eventWrites.broken then s.close result false
          else some { s with stage := .finishing result } := by
        simp only [NodeRun.step, hstage, hpending]
        rfl
      by_cases hbroken : s.eventWrites.broken = true
      · rw [if_pos hbroken] at hstep
        refine ⟨.drained, _, rfl, hstep, rfl, ?_⟩
        show s.eventWrites.pending.length + 1 < s.work
        simp [NodeRun.work, hstage, NodeRunStage.blocks]
      · rw [if_neg hbroken] at hstep
        refine ⟨.drained, _, rfl, hstep, rfl, ?_⟩
        show s.eventWrites.pending.length + 2 < s.work
        simp [NodeRun.work, hstage, NodeRunStage.blocks]
  | finishing result =>
    have hstep : s.step request (.finished ok) =
        { s with outcome := if ok then some result else s.outcome }.close result ok := by
      simp only [NodeRun.step, hstage]
      cases ok <;> rfl
    refine ⟨.finished ok, _, beq_self_eq_true ok, hstep, rfl, ?_⟩
    show s.eventWrites.pending.length + 1 < s.work
    simp [NodeRun.work, hstage, NodeRunStage.blocks]
  | closed result stored =>
    refine ⟨.released, { s with stage := .settled result stored, listening := false }, rfl, ?_, rfl, ?_⟩
    · simp only [NodeRun.step, hstage]
    · show s.eventWrites.pending.length + 0 < s.work
      simp [NodeRun.work, hstage, NodeRunStage.blocks]
  | settled result stored =>
    rw [hstage] at hlive
    cases hlive

/-- **The promise settles**, whatever the store answers. -/
theorem store_settles (request : NodeLaunchRequest) (answer : NodeRun → Bool) (n : Nat) :
    ∀ {s : NodeRun}, s.work ≤ n → s.stage.result?.isSome = true → ∃ labels t,
      Run (NodeRun.step request) (fun u label => label.answers (answer u) = true) s labels t ∧
        t.stage.isSettled = true := by
  induction n with
  | zero =>
    intro s hwork hended
    cases hlive : s.stage.isSettled with
    | true => exact ⟨[], s, .nil s, hlive⟩
    | false =>
      obtain ⟨-, t, -, -, -, hlt⟩ := store_next request hended hlive (answer s)
      omega
  | succ n ih =>
    intro s hwork hended
    cases hlive : s.stage.isSettled with
    | true => exact ⟨[], s, .nil s, hlive⟩
    | false =>
      obtain ⟨label, t, hanswers, hstep, hended', hlt⟩ := store_next request hended hlive (answer s)
      obtain ⟨labels, u, run, hsettled⟩ := ih (show t.work ≤ n by omega) hended'
      have hfirst : Run (NodeRun.step request) (fun u label => label.answers (answer u) = true) s
          [label] t := .snoc (.nil s) hanswers hstep
      exact ⟨label :: labels, u, hfirst.trans run, hsettled⟩

/-! ## The record -/

/-- **What the events, the files, the snapshot and the promise of a node handle say.** -/
structure NodeRecorded (request : NodeLaunchRequest) (s : NodeRun) : Prop where
  /-- `node_started` first, the submission of the node if there is one, `node_settled` last. -/
  bodies : (published s.shown).map (·.body) = s.stage.bodies request
  numbered : (published s.shown).map (·.seq) = List.range (published s.shown).length
  named : ∀ event ∈ published s.shown, event.nodeName = request.start.node.name
  delivered : Delivered s.shown s.stream.woken
  closed : s.shown.any isClose = s.stage.isClosed
  snapshot : s.status = s.stage.status ∧ s.completedAt.isSome = s.stage.result?.isSome
  /-- The file holds the first events, and `outcome.json` is written only over all of them. -/
  file : s.eventWrites.written <+: published s.shown
  outcome : s.outcome = s.stage.stored?
  whole : s.outcome.isSome = true → s.eventWrites.written = published s.shown
  /-- After a write that has thrown nothing more is written, and the promise never resolves. -/
  torn : s.eventWrites.broken = true → s.eventWrites.pending = [] ∧
    s.eventWrites.written ≠ published s.shown ∧ ∀ result, s.stage ≠ .settled result true
  /-- An abort of the signal has been passed on, until the promise settles. -/
  passed : ∀ reason, s.signal = some (.aborted reason) → s.stage.isSettled = false →
    abortReason s.signal ∈ s.interrupts
  /-- Once `settle()` is over the promise settles, whatever the store answers. -/
  settles : s.stage.result?.isSome = true → ∀ answer : NodeRun → Bool, ∃ labels t,
    Run (NodeRun.step request) (fun u label => label.answers (answer u) = true) s labels t ∧
      t.stage.isSettled = true

theorem NodeHandled.recorded (h : NodeHandled request s) : NodeRecorded request s where
  bodies := h.emits.bodies
  numbered := by
    have hlength := congrArg List.length h.emits.numbered
    rw [List.length_map, List.length_range] at hlength
    rw [h.emits.numbered, hlength]
  named := h.emits.named
  delivered := h.emits.flow.delivered
  closed := h.closed
  snapshot := ⟨h.status, h.completedAt⟩
  file := h.emits.chained.first
  outcome := h.outcome
  whole hstored := by
    rw [h.outcome] at hstored
    cases hstage : s.stage with
    | settling => rw [hstage] at hstored; cases hstored
    | draining result => rw [hstage] at hstored; cases hstored
    | finishing result => rw [hstage] at hstored; cases hstored
    | closed result stored | settled result stored =>
      cases stored with
      | false => rw [hstage] at hstored; cases hstored
      | true =>
        have hpending := h.drained (by rw [hstage]; rfl)
        exact (h.emits.chained.written_iff hpending).mpr (h.whole (by rw [hstage]; rfl))
  torn hbroken := by
    have hpending := (h.emits.chained.cut hbroken).1
    refine ⟨hpending, fun hall => ?_, fun result hstage => ?_⟩
    · rw [(h.emits.chained.written_iff hpending).mp hall] at hbroken
      cases hbroken
    · rw [h.whole (by rw [hstage]; rfl)] at hbroken
      cases hbroken
  passed := h.passed
  settles hended answer := store_settles request answer s.work le_rfl hended

/-- **Every node run is recorded**, in every order of the steps of the node, of the writes of the
store, of the signal and of the host's calls. -/
theorem node_record {startedAt time : Stamp} {started : NodeRun} {labels : List NodeRunLabel}
    (hstart : NodeRun.start request startedAt time = some started)
    (run : Run (NodeRun.step request) Free started labels s) : NodeRecorded request s :=
  (run.invariant (nodeHandled_start hstart) fun _ _ _ _ h hstep =>
    nodeHandled_step h hstep).recorded

end Handled

/-- A workflow node whose signal is live. -/
def sampleNode : NodeLaunchRequest where
  start := {
    node := { kind := .workflow, name := "review" }
    input := .workflow [] none
    outcome := { name := "verdict", description := "What the review says.", safeParse := .ok } }
  signal := some .live

/-- The second event is never written: the signal fires, `settle()` throws, and the host reads on
past the end of the file. -/
def sampleNodeRun : List NodeRunLabel :=
  [.consumer .iterator, .consumer .next, .appended true, .aborts (some "stop"),
    .settles (.error "gone") 1 2 3, .consumer .next, .appended false, .drained, .released,
    .consumer .next]

theorem node_record_torn :
    ∃ s : NodeRun, NodeRecorded sampleNode s ∧ s.eventWrites.written.length = 1 ∧
      (answers s.shown).length = 3 ∧ s.interrupts = ["stop"] ∧ s.stage.isSettled = true := by
  obtain ⟨started, hstart⟩ : ∃ started, NodeRun.start sampleNode 0 0 = some started := ⟨_, rfl⟩
  obtain ⟨s, run, hs⟩ := exists_run (NodeRun.step sampleNode) Free started sampleNodeRun
    (fun s => s.eventWrites.written.length == 1 && (answers s.shown).length == 3 &&
      s.interrupts == ["stop"] && s.stage.isSettled)
    (by cases hstart; decide +kernel)
  simp only [Bool.and_eq_true, beq_iff_eq] at hs
  exact ⟨s, node_record hstart run, hs.1.1.1, hs.1.1.2, hs.1.2, hs.2⟩

end EphemeralAgent.Records
