import EphemeralAgent.Lib.UpTo
import EphemeralAgent.Records.Bridge

/-!
# The record of an agent run

`bridgeAgentRun` of `src/runs/agent-run-store.ts`, over the run handle of the SDK.

* `agentHandle` — a run handle with the events that it has emitted
* `AgentRecorded` — what the files of a run hold
* `agent_record` — **the file holds the first events of the run, and the host is given no others**
-/

namespace EphemeralAgent.Records

open Lib Engine Streams

variable {T B : Type}

/-! ## The handle -/

/-- What an agent run does to its handle. -/
inductive AgentRunLabel (T B : Type) where
  | emit (body : B)
  | finish (outcome : AgentOutcome T)

def AgentRunLabel.event : AgentRunLabel T B → RunEventLabel T B
  | .emit body => .emit body
  | .finish outcome => .finish outcome

/-- A run handle with what it has emitted. -/
abbrev AgentRun (T B : Type) := Recorded (RunEvents T B) (RunEventItem T B)

/-- A block of the handle, with what its stream shows. -/
def agentBlock (r : AgentRun T B) (label : RunEventLabel T B) :
    Option (AgentRun T B × List (StreamItem (AgentEvent T B))) :=
  (r.state.step label).map fun next =>
    ({ state := next.1, history := r.history ++ next.2 }, streamItems next.2)

/-- The handle is as it emits, and this is what its stream has shown. -/
def AgentRun.Valid (r : AgentRun T B) (seen : List (StreamItem (AgentEvent T B))) : Prop :=
  Emitting r.state r.history ∧ streamItems r.history = seen

theorem agentBlock_valid {r : AgentRun T B} {seen : List (StreamItem (AgentEvent T B))}
    {label : RunEventLabel T B} {next : AgentRun T B × List (StreamItem (AgentEvent T B))}
    (h : r.Valid seen) (hblock : agentBlock r label = some next) : next.1.Valid (seen ++ next.2) := by
  obtain ⟨block, hstep, rfl⟩ := Option.map_eq_some_iff.mp hblock
  refine ⟨emitting_step h.1 hstep, ?_⟩
  rw [← h.2]
  exact streamItems_append _ _

theorem agentBlock_outcome {r : AgentRun T B} {seen : List (StreamItem (AgentEvent T B))}
    {label : RunEventLabel T B} {next : AgentRun T B × List (StreamItem (AgentEvent T B))}
    (h : r.Valid seen) (hblock : agentBlock r label = some next) :
    next.1.state.handle.outcome = r.state.handle.outcome.or label.finish? := by
  obtain ⟨block, hstep, rfl⟩ := Option.map_eq_some_iff.mp hblock
  exact outcome_step h.1.resolved hstep

/-- The handle only feeds its stream. -/
theorem agentBlock_fed {r : AgentRun T B} {seen : List (StreamItem (AgentEvent T B))}
    {label : AgentRunLabel T B} {next : AgentRun T B × List (StreamItem (AgentEvent T B))}
    (hblock : agentBlock r label.event = some next) :
    Fed r.state.events seen next.1.state.events (seen ++ next.2) := by
  obtain ⟨⟨state, items⟩, hstep, rfl⟩ := Option.map_eq_some_iff.mp hblock
  cases label with
  | emit body =>
    cases hstep
    exact ⟨[.push { body := .other body, seq := r.state.seq }], .snoc (.nil _) trivial rfl⟩
  | finish outcome =>
    simp only [AgentRunLabel.event, RunEvents.step, RunEvents.finish] at hstep
    split at hstep
    · cases hstep
      refine ⟨[], ?_⟩
      show Run _ _ _ [] (⟨r.state.events, seen ++ []⟩ : Recorded _ _)
      rw [List.append_nil]
      exact .nil _
    · cases hstep
      -- the event first, then the close
      let event : AgentEvent T B := { body := .runFinished outcome, seq := r.state.seq }
      have hitems : seen ++ [.push event] ++ [.close] = seen ++ [.push event, .close] := by simp
      refine ⟨[.push event, .close], .snoc (.snoc (.nil _) trivial rfl) trivial ?_⟩
      unfold Recorded.step
      simp only [StreamClass.step, Option.map_some, hitems]
      rfl

/-- A block of the consumer is one of the stream. -/
theorem agentBlock_consume (r : AgentRun T B) (label : ConsumerLabel) :
    (agentBlock r (.consumer label)).map (fun next => (next.1.state.events, next.2)) =
      (eventStream _).consume r.state.events label := by
  show (((((eventStream _).consume r.state.events label).map _).map _).map _) = _
  cases (eventStream (AgentEvent T B)).consume r.state.events label with
  | none => rfl
  | some next => simp [streamItems_stream]

/-- The run handle of an agent, for a bridge. -/
def agentHandle (T B : Type) : SdkHandle (AgentEvent T B) (AgentOutcome T) where
  State := AgentRun T B
  Label := AgentRunLabel T B
  initial := ⟨.initial, []⟩
  step r label := agentBlock r label.event
  consume r label := agentBlock r (.consumer label)
  outcome r := r.state.handle.outcome
  events r := r.state.events
  Valid := AgentRun.Valid
  initial_events := rfl
  initial_valid := ⟨emitting_initial, rfl⟩
  step_valid := agentBlock_valid
  step_events _ h := agentBlock_fed h
  step_outcome h hstep ho := by rw [agentBlock_outcome h hstep, ho]; rfl
  consume_valid := agentBlock_valid
  consume_events label _ := agentBlock_consume _ label
  consume_outcome h hstep := by rw [agentBlock_outcome h hstep]; exact Option.or_none

/-- `run_finished`. -/
def isFinish (event : AgentEvent T B) : Bool :=
  event.outcome?.isSome

theorem upToFinish_eq (events : List (AgentEvent T B)) : upToFinish events = upTo isFinish events := by
  induction events with
  | nil => rfl
  | cons event rest ih => rw [upToFinish, upTo, ih]; rfl

/-! ## The record -/

/-- A bridge of agents writes no snapshots. -/
abbrev AgentBridge (T B : Type) := Bridge (agentHandle T B) Empty

def noSnapshot (_ : AgentRun T B) (_ : AgentEvent T B) : Option (Option Empty) := none

/-- **What the files of a run hold**, and what the host is given. -/
structure AgentRecorded (s : AgentBridge T B) : Prop where
  relayed : Relayed noSnapshot s
  /-- The lines of the file are numbered 0, 1, 2, … -/
  numbered : s.recorded.map (·.seq) = List.range s.recorded.length
  /-- A `run_finished` in the file is its last line, for ever, and has the outcome of the run. -/
  finished : ∀ before event outcome, s.recorded = before ++ [event] →
    event.outcome? = some outcome →
      s.sdk.state.handle.outcome = some outcome ∧ published s.seen = s.recorded
  once : ∀ event ∈ s.recorded.dropLast, event.outcome? = none
  /-- A loop that ends by itself leaves a file that ends with `run_finished`. -/
  complete : s.pump = .ended none → ∃ before event outcome, s.recorded = before ++ [event] ∧
    event.outcome? = some outcome
  /-- `outcome.json` has the outcome of the run. -/
  outcome : ∀ outcome, s.finish = .written outcome → s.sdk.state.handle.outcome = some outcome

theorem outcome_of_mem {r : AgentRun T B} (h : Emitting r.state r.history) {event : AgentEvent T B}
    {outcome : AgentOutcome T} (hevent : event ∈ emitted r.history)
    (houtcome : event.outcome? = some outcome) : r.state.handle.outcome = some outcome := by
  have hmem : outcome ∈ (emitted r.history).filterMap (·.outcome?) :=
    List.mem_filterMap.mpr ⟨event, hevent, houtcome⟩
  rw [h.outcome] at hmem
  exact Option.mem_toList.mp hmem

theorem agentRecorded {s : AgentBridge T B} (hs : Bridged s) : AgentRecorded s := by
  obtain ⟨hemitting, hseen⟩ := hs.valid
  have hrelayed : Relayed noSnapshot s := hs.relayed
  have hpublished : published s.seen = upTo isFinish (emitted s.sdk.history) := by
    rw [← hseen, hemitting.published, upToFinish_eq]
  have hfirst : s.recorded <+: upTo isFinish (emitted s.sdk.history) :=
    hpublished ▸ hrelayed.recorded
  have hemitted : s.recorded <+: emitted s.sdk.history := hfirst.trans (upTo_isPrefix _)
  refine ⟨hrelayed, ?_, ?_, ?_, ?_, fun outcome h => hs.outcome outcome (Or.inr h)⟩
  · have htake := congrArg (List.map (·.seq)) (List.prefix_iff_eq_take.mp hemitted)
    rw [List.map_take, hemitting.stamped, List.take_range, Nat.min_eq_left hemitted.length_le] at htake
    exact htake
  · intro before event outcome heq houtcome
    rw [heq] at hfirst hemitted
    refine ⟨outcome_of_mem hemitting (hemitted.subset (by simp)) houtcome, ?_⟩
    rw [hpublished, heq]
    exact upTo_last hfirst (by rw [isFinish, houtcome]; rfl)
  · intro event hevent
    have hnot := not_of_mem_dropLast hfirst hevent
    unfold isFinish at hnot
    simpa using hnot
  · intro hpump
    obtain ⟨hclosed, hall, -⟩ := hrelayed.complete hpump
    have hfinished : (emitted s.sdk.history).any isFinish = true := by
      show (emitted s.sdk.history).any (·.outcome?.isSome) = true
      rw [hemitting.finished, ← hemitting.closed, hseen]
      exact hclosed
    obtain ⟨before, event, heq, hevent⟩ := upTo_ends hfinished
    obtain ⟨outcome, houtcome⟩ := Option.isSome_iff_exists.mp hevent
    exact ⟨before, event, outcome, by rw [hall, hpublished, heq], houtcome⟩

/-- **Every agent run is recorded.**  In every order of the run's events, the writes of the store,
failed ones among them, and the calls of the host. -/
theorem agent_record {labels : List (BridgeLabel (AgentRunLabel T B))} {s : AgentBridge T B}
    (run : Run (Bridge.step noSnapshot) Free .start labels s) : AgentRecorded s :=
  agentRecorded (bridged_of_run run)

/-- The loop waits before the first event; the second write throws; the run goes on and finishes. -/
def sampleBridge : List (BridgeLabel (AgentRunLabel Unit Nat)) :=
  [.consumer .iterator, .consumer .next, .iterates, .pulls, .sdk (.emit 7), .resumes,
    .sdk (.emit 8), .appended true, .consumer (.resume 0), .pulls, .appended false,
    .sdk (.finish { usage := ⟨0, 0, none, none⟩, turns := 0, status := .cancelled }),
    .consumer .next, .ends, .finished true]

theorem agent_record_broken :
    ∃ s : AgentBridge Unit Nat, AgentRecorded s ∧ s.recorded.length = 1 ∧
      (answers s.shown).length = 2 ∧ s.pump.isOver = true := by
  obtain ⟨s, run, hs⟩ := exists_run (Bridge.step noSnapshot) Free
    (.start : AgentBridge Unit Nat) sampleBridge
    (fun s => s.recorded.length == 1 && (answers s.shown).length == 2 && s.pump.isOver)
    (by decide +kernel)
  simp only [Bool.and_eq_true, beq_iff_eq] at hs
  exact ⟨s, agent_record run, hs.1.1, hs.1.2, hs.2⟩

end EphemeralAgent.Records
