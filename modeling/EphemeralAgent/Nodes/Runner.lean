import EphemeralAgent.Runtime.Acceptance
import EphemeralAgent.Workflow.Ports

/-!
# The node runner

`src/nodes/node-runner.ts`, class `NodeRunner`: how the agent node behind one entry of a workflow
run is started, watched and recorded.

Three machines go on beside each other, and a schedule interleaves them.

* the workflow run, with the launches and the ends of all its other nodes left free
* the agent's run, whose `onSubmit` calls the completion port of the entry
* the node handle: `settle()` and what `createNodeHandle` does with its result

The calls of the port are made one after the other, so the answer to the one that waits is the
first that nobody has heard.
-/

namespace EphemeralAgent.Workflow

/-- `settlement.status`. -/
def NodeSettlement.status : NodeSettlement → NodeRunStatus
  | .completed _ => .completed
  | .rejected _ => .rejected
  | .failed _ => .failed
  | .cancelled _ => .cancelled

end EphemeralAgent.Workflow

namespace EphemeralAgent.Nodes

open Lib Engine Tool EphemeralAgent.Runtime Workflow

/-- What `createAgent` assembles for a node.  The outcome function is its terminal tool, so there
is one. -/
structure Delegation where
  spec : RunSpec
  messages : List UserMessage
  terminal : spec.terminal.isSome = true

/-- Where the settlement of a node handle stands. -/
inductive Settling where
  /-- `await delegatedRun.outcome()`. -/
  | outcome
  /-- `await request.completion.submit(outcome.outcome)`. -/
  | submitting (payload : Json)
  /-- `settle()` is over; `await eventWrites`, `await input.store.finish(..)`. -/
  | finishing (result : NodeSettlement)
  /-- The store has the settlement, and the promise of the handle has resolved. -/
  | stored (result : NodeSettlement)
  /-- A write of the store has thrown. -/
  | broken

/-- One agent node: the workflow run that it is part of, the run of its agent, and its handle;
`heard` counts the answers of the port that have been heard. -/
structure AgentNode (X : Type) where
  workflow : WorkflowRunInstance X := Workflow.initial
  delegatedRun : Option (SystemHistory Json) := none
  handle : Option Settling := none
  heard : Nat := 0

inductive NodeLabel where
  /-- The workflow run goes on. -/
  | workflow (label : Label)
  /-- `await this.#agentFactory().createAgent(..).start(..)`. -/
  | starts
  /-- A block of the agent's run, other than the end of `onSubmit`. -/
  | agent (label : SystemLabel Json)
  /-- `onSubmit` goes on after `await request.completion.submit(payload)`. -/
  | answers (call instant : Nat)
  /-- `createNodeHandle`. -/
  | handles
  /-- `settle()` goes on after `await delegatedRun.outcome()`, which throws when the store of the
  agent's run does. -/
  | settles (recorded : Except String Unit)
  /-- `settle()` goes on after `await request.completion.submit(outcome.outcome)`. -/
  | replies
  /-- `createNodeHandle` goes on after its writes, of which one may have thrown. -/
  | stores (written : Bool)
  /-- The monitor of the workflow run hears of the settlement. -/
  | observes

/-- `onSubmit` of `submitWorkflowDelegationOutcome`. -/
def onSubmit : SubmissionResult → SubmitVerdict Json
  | .accept outcome => .accept outcome.outcome
  | .reject reason => .reject reason
  | .error fault => .threw fault.message

/-- What an agent that has completed hands over. -/
def payloadOf : Completion Json → Json
  | .text text => .str text
  | .accepted value => value

/-- `settle()` after its own submission. -/
def settleReply (outcomeName : String) (payload : Json) : SubmissionResult → NodeSettlement
  | .accept outcome => .completed outcome
  | .reject reason =>
    if reason = "node run is already finished" then .completed { outcomeName, outcome := payload }
    else .rejected reason
  | .error fault => .failed fault.message

/-- The thread of the workflow run waits for the launch of this entry. -/
def awaitsLaunch {X : Type} (s : WorkflowRunInstance X) (index : Nat) (flow : FlowId) : Bool :=
  match s.frames flow with
  | { awaiting := some entry, .. } :: _ => entry == index
  | _ => false

/-- The queue takes an interrupt and begins it: the signal of the nodes is aborted. -/
def beginsInterrupt {X : Type} (s : WorkflowRunInstance X) : Label → Bool
  | .dequeue =>
    match s.active, s.queue with
    | none, .interrupt _ :: _ => !s.finished
    | _, _ => false
  | _ => false

namespace AgentNode

variable {X : Type} (c : WorkflowStartRequest X) (d : Delegation) (index : Nat)

/-- The launch of the node is under way. -/
def launching (s : AgentNode X) : Bool :=
  awaitsLaunch s.workflow index .start || awaitsLaunch s.workflow index .queue

/-- The port and the monitor of the entry are this node's; its launch resolves with a handle.  It
rejects at any time: `registerHandle` may throw when the handle is there. -/
def permits (s : AgentNode X) : Label → Bool
  | .submit entry _ => entry != index
  | .nodeSettled entry _ => entry != index
  | .launchResolved flow => !awaitsLaunch s.workflow index flow || s.handle.isSome
  | _ => true

/-- What the agent's run has ended with. -/
def outcome (s : AgentNode X) : Option (AgentOutcome Json) :=
  s.delegatedRun.bind fun r => outcomeOf r.history

/-- The answer to the call of the port that waits. -/
def reply (s : AgentNode X) : Option SubmissionResult :=
  (s.workflow.answersFor index)[s.heard]?

/-- `entry.start.outcome.name`. -/
def outcomeName (s : AgentNode X) : String :=
  match s.workflow.nodes[index]? with
  | some entry => entry.start.outcome.name
  | none => ""

/-- `request.completion.submit(payload)` is called. -/
def submit (payload : Json) (s : AgentNode X) : Option (AgentNode X) :=
  (Workflow.step c s.workflow (.submit index payload)).map fun workflow => { s with workflow }

/-- A block of the agent's run; `onSubmit` calls the port in the block that starts it. -/
def advance (label : SystemLabel Json) (s : AgentNode X) : Option (AgentNode X) :=
  s.delegatedRun.bind fun r =>
    (AgentSystem.step d.spec r.state label).bind fun next =>
      let moved := { s with delegatedRun := some { state := next.1, history := r.history ++ next.2 } }
      match next.2.findSome? SystemItem.submission? with
      | some payload => moved.submit c index payload
      | none => some moved

/-- `delegatedRun.interrupt()`, by the signal or through the handle. -/
def interrupt (s : AgentNode X) : AgentNode X :=
  { s with
    delegatedRun := s.delegatedRun.map fun r =>
      (Recorded.step (AgentSystem.step d.spec) r (.run .interrupt)).getD r }

/-- `settle()` after `await delegatedRun.outcome()`. -/
def settle (s : AgentNode X) : FinishStatus Json → Option (AgentNode X)
  | .completed value =>
    { s with handle := some (.submitting (payloadOf value)) }.submit c index (payloadOf value)
  | .cancelled => some { s with
      handle := some (.finishing (.cancelled (some "agent run cancelled"))) }
  | .failed error => some { s with handle := some (.finishing (.failed error.message)) }

/-- **One step.** -/
def step (s : AgentNode X) : NodeLabel → Option (AgentNode X)
  | .workflow label =>
    if s.permits index label then
      (Workflow.step c s.workflow label).map fun workflow =>
        if beginsInterrupt s.workflow label && s.handle.isSome then
          { s with workflow }.interrupt d
        else { s with workflow }
    else none
  | .starts =>
    if s.launching index && s.delegatedRun.isNone && s.handle.isNone then
      some { s with delegatedRun := some (AgentSystem.start d.spec d.messages) }
    else none
  | .agent label =>
    match label with
    | .submitReturns .. => none
    | _ => s.advance c d index label
  | .answers call instant =>
    (s.reply index).bind fun result =>
      { s with heard := s.heard + 1 }.advance c d index
        (.submitReturns call (onSubmit result) instant)
  | .handles =>
    if s.launching index && s.delegatedRun.isSome && s.handle.isNone then
      let handled := { s with handle := some .outcome }
      -- a signal that is aborted already does not fire again
      some (if s.workflow.aborted.isSome then handled.interrupt d else handled)
    else none
  | .settles recorded =>
    match s.handle, s.outcome with
    | some .outcome, some outcome =>
      match recorded with
      | .ok _ => s.settle c index outcome.status
      | .error message => some { s with handle := some (.finishing (.failed message)) }
    | _, _ => none
  | .replies =>
    match s.handle with
    | some (.submitting payload) =>
      (s.reply index).map fun result =>
        { s with
          heard := s.heard + 1
          handle := some (.finishing (settleReply (s.outcomeName index) payload result)) }
    | _ => none
  | .stores written =>
    match s.handle with
    | some (.finishing result) =>
      some { s with handle := some (if written then .stored result else .broken) }
    | _ => none
  | .observes =>
    match s.handle with
    | some (.stored result) =>
      (Workflow.step c s.workflow (.nodeSettled index result)).map fun workflow =>
        { s with workflow }
    | _ => none

end AgentNode

/-! ## The ways a step can go -/

section Moved

variable {X : Type} {c : WorkflowStartRequest X} {d : Delegation} {index : Nat}

theorem awaitsLaunch_iff {s : WorkflowRunInstance X} {flow : FlowId} :
    awaitsLaunch s index flow = true ↔ Awaits s flow index := by
  unfold awaitsLaunch Awaits
  split
  · next entry remaining outer hframes => simp [hframes]
  · next hnone =>
    simp only [Bool.false_eq_true, false_iff]
    rintro ⟨remaining, outer, hframes⟩
    exact hnone _ _ _ hframes

theorem launching_iff {s : AgentNode X} :
    s.launching index = true ↔ ∃ flow, Awaits s.workflow flow index := by
  unfold AgentNode.launching
  rw [Bool.or_eq_true, awaitsLaunch_iff, awaitsLaunch_iff]
  constructor
  · rintro (h | h)
    · exact ⟨_, h⟩
    · exact ⟨_, h⟩
  · rintro ⟨flow, h⟩
    cases flow with
    | start => exact .inl h
    | queue => exact .inr h

/-- The settlement of an agent that has not completed, or whose outcome could not be recorded. -/
inductive EndsWith (status : FinishStatus Json) : Except String Unit → NodeSettlement → Prop
  | cancelled (hstatus : status = .cancelled) :
      EndsWith status (.ok ()) (.cancelled (some "agent run cancelled"))
  | failed (error : AgentRunError) (hstatus : status = .failed error) :
      EndsWith status (.ok ()) (.failed error.message)
  | unrecorded (message : String) : EndsWith status (.error message) (.failed message)

/-- A block of the agent's run, with what it shows. -/
structure Block (d : Delegation) (s : AgentNode X) (label : SystemLabel Json)
    (r r' : SystemHistory Json) (items : List (SystemItem Json)) : Prop where
  run : s.delegatedRun = some r
  step : AgentSystem.step d.spec r.state label = some (r'.state, items)
  history : r'.history = r.history ++ items

/-- A block that opens no submission and closes none. -/
structure Quiet (r r' : SystemHistory Json) (items : List (SystemItem Json)) : Prop where
  items : ∀ item ∈ items, item.isAccepted = false
  stages : Submitting r'.state ↔ Submitting r.state

/-- The ways a step can go. -/
inductive Moved (c : WorkflowStartRequest X) (d : Delegation) (index : Nat) (s : AgentNode X) :
    NodeLabel → AgentNode X → Prop
  | workflow {label : Label} {u : WorkflowRunInstance X} (hpermits : s.permits index label = true)
      (hstep : Workflow.step c s.workflow label = some u)
      (hquiet : beginsInterrupt s.workflow label = true → s.handle = none ∨ s.delegatedRun = none) :
      Moved c d index s (.workflow label) { s with workflow := u }
  | interrupted {label : Label} {u : WorkflowRunInstance X} {r r' : SystemHistory Json}
      {items : List (SystemItem Json)} (hstep : Workflow.step c s.workflow label = some u)
      (hbegins : beginsInterrupt s.workflow label = true) (hhandle : s.handle.isSome = true)
      (hblock : Block d s (.run .interrupt) r r' items) (hquiet : Quiet r r' items) :
      Moved c d index s (.workflow label) { s with workflow := u, delegatedRun := some r' }
  | started (hlaunching : ∃ flow, Awaits s.workflow flow index) (hrun : s.delegatedRun = none)
      (hhandle : s.handle = none) :
      Moved c d index s .starts
        { s with delegatedRun := some (AgentSystem.start d.spec d.messages) }
  | blocked {label : SystemLabel Json} {r r' : SystemHistory Json} {items : List (SystemItem Json)}
      (hblock : Block d s label r r' items) (hquiet : Quiet r r' items) :
      Moved c d index s (.agent label) { s with delegatedRun := some r' }
  | submitted {label : SystemLabel Json} {r r' : SystemHistory Json}
      {items : List (SystemItem Json)} {payload : Json} {u : WorkflowRunInstance X}
      (hblock : Block d s label r r' items) (hitems : ∀ item ∈ items, item.isAccepted = false)
      (hbefore : ¬ Submitting r.state) (hafter : Submitting r'.state)
      (hstep : Workflow.step c s.workflow (.submit index payload) = some u) :
      Moved c d index s (.agent label) { s with workflow := u, delegatedRun := some r' }
  | answered {call instant : Nat} {result : SubmissionResult} {r r' : SystemHistory Json}
      {items : List (SystemItem Json)} (hreply : s.reply index = some result)
      (hblock : Block d s (.submitReturns call (onSubmit result) instant) r r' items)
      (hitems : items = match onSubmit result with
        | .accept value => [.accepted call value]
        | _ => []) (hbefore : Submitting r.state) (hafter : ¬ Submitting r'.state) :
      Moved c d index s (.answers call instant)
        { s with delegatedRun := some r', heard := s.heard + 1 }
  | handled (hlaunching : ∃ flow, Awaits s.workflow flow index) (hhandle : s.handle = none)
      (hrun : s.delegatedRun.isSome = true) :
      Moved c d index s .handles { s with handle := some .outcome }
  | handledAborted {r r' : SystemHistory Json} {items : List (SystemItem Json)}
      (hlaunching : ∃ flow, Awaits s.workflow flow index) (hhandle : s.handle = none)
      (haborted : s.workflow.aborted.isSome = true)
      (hblock : Block d s (.run .interrupt) r r' items) (hquiet : Quiet r r' items) :
      Moved c d index s .handles { s with handle := some .outcome, delegatedRun := some r' }
  | ended {recorded : Except String Unit} {outcome : AgentOutcome Json} {result : NodeSettlement}
      (hhandle : s.handle = some .outcome) (houtcome : s.outcome = some outcome)
      (hresult : EndsWith outcome.status recorded result) :
      Moved c d index s (.settles recorded) { s with handle := some (.finishing result) }
  | resubmitted {outcome : AgentOutcome Json} {value : Completion Json}
      {u : WorkflowRunInstance X} (hhandle : s.handle = some .outcome)
      (houtcome : s.outcome = some outcome) (hstatus : outcome.status = .completed value)
      (hstep : Workflow.step c s.workflow (.submit index (payloadOf value)) = some u) :
      Moved c d index s (.settles (.ok ()))
        { s with workflow := u, handle := some (.submitting (payloadOf value)) }
  | replied {payload : Json} {result : SubmissionResult}
      (hhandle : s.handle = some (.submitting payload)) (hreply : s.reply index = some result) :
      Moved c d index s .replies
        { s with
          heard := s.heard + 1
          handle := some (.finishing (settleReply (s.outcomeName index) payload result)) }
  | stored {result : NodeSettlement} {written : Bool}
      (hhandle : s.handle = some (.finishing result)) :
      Moved c d index s (.stores written)
        { s with handle := some (if written then .stored result else .broken) }
  | observed {result : NodeSettlement} {u : WorkflowRunInstance X}
      (hhandle : s.handle = some (.stored result))
      (hstep : Workflow.step c s.workflow (.nodeSettled index result) = some u) :
      Moved c d index s .observes { s with workflow := u }

section Blocks

variable {s t : AgentNode X} {label : SystemLabel Json} {r r' : SystemHistory Json}
  {items : List (SystemItem Json)}

theorem Block.recorded (h : Block d s label r r' items) :
    Recorded.step (AgentSystem.step d.spec) r label = some r' := by
  rw [Recorded.step, h.step, Option.map_some, ← h.history]

theorem Block.acted (h : Block d s label r r' items) :
    Acted d.spec r.state label (r'.state, items) :=
  acted_of_step h.step

/-- An interrupt is always possible, and neither opens a submission nor closes one. -/
theorem block_interrupt (hrun : s.delegatedRun = some r) :
    ∃ r' items, Block d s (.run .interrupt) r r' items ∧ Quiet r r' items ∧
      s.interrupt d = { s with delegatedRun := some r' } := by
  have hstep : AgentSystem.step d.spec r.state (.run .interrupt) =
      some ({ r.state with run := r.state.run.interrupt.1 }.forwardAbort d.spec,
        r.state.run.interrupt.2.map .run) := rfl
  refine ⟨⟨{ r.state with run := r.state.run.interrupt.1 }.forwardAbort d.spec, _⟩, _,
    ⟨hrun, hstep, rfl⟩, ⟨fun item hitem => (run_quiet _ item hitem).1, ?_⟩, ?_⟩
  · show Submitting ({ r.state with run := r.state.run.interrupt.1 }.forwardAbort d.spec) ↔ _
    unfold AgentSystem.forwardAbort
    split <;> exact Iff.rfl
  · rw [AgentNode.interrupt, hrun, Option.map_some, Recorded.step, hstep]
    rfl

/-- A block of the agent's run, by what it does to the submission in flight. -/
theorem advance_cases (hwired : ∀ r, s.delegatedRun = some r → Wired d.spec r.state)
    (h : s.advance c d index label = some t) :
    ∃ r r' items, Block d s label r r' items ∧ Flight r.state label (r'.state, items) ∧
      ((∀ item ∈ items, item.submission? = none) ∧ t = { s with delegatedRun := some r' } ∨
        ∃ payload u, Workflow.step c s.workflow (.submit index payload) = some u ∧
          items.findSome? SystemItem.submission? = some payload ∧
          t = { s with workflow := u, delegatedRun := some r' }) := by
  obtain ⟨r, hrun, h⟩ := Option.bind_eq_some_iff.mp h
  obtain ⟨⟨state, items⟩, hstep, h⟩ := Option.bind_eq_some_iff.mp h
  refine ⟨r, ⟨state, r.history ++ items⟩, items, ⟨hrun, hstep, rfl⟩,
    flight_step (hwired r hrun) (acted_of_step hstep), ?_⟩
  simp only at h
  split at h
  · next payload hpayload =>
    obtain ⟨u, hu, rfl⟩ := Option.map_eq_some_iff.mp h
    exact .inr ⟨payload, u, hu, hpayload, rfl⟩
  · next hnone =>
    cases h
    exact .inl ⟨fun item hitem => List.findSome?_eq_none_iff.mp hnone item hitem, rfl⟩

end Blocks

section Steps

variable {s t : AgentNode X}

/-- The workflow run goes on; when it begins an interrupt, that reaches the handle. -/
theorem moved_of_workflow {label : Label} (h : s.step c d index (.workflow label) = some t) :
    Moved c d index s (.workflow label) t := by
  obtain ⟨hpermits, hstep⟩ := Option.ite_none_right_eq_some.mp h
  obtain ⟨u, hu, rfl⟩ := Option.map_eq_some_iff.mp hstep
  by_cases hbegins : beginsInterrupt s.workflow label = true
  · split
    · next hboth =>
      by_cases hnone : s.delegatedRun = none
      · -- there is a handle, but no run that it could stop
        have hsame : { s with workflow := u }.interrupt d = { s with workflow := u } := by
          simp [AgentNode.interrupt, hnone]
        rw [hsame]
        exact .workflow hpermits hu fun _ => .inr hnone
      · obtain ⟨r, hrun⟩ := Option.ne_none_iff_exists'.mp hnone
        have hrun' : { s with workflow := u }.delegatedRun = some r := hrun
        obtain ⟨r', items, hblock, hquiet, heq⟩ := block_interrupt (d := d) hrun'
        rw [heq]
        have hhandle : s.handle.isSome = true := by simpa [hbegins] using hboth
        exact .interrupted hu hbegins hhandle ⟨hrun, hblock.step, hblock.history⟩ hquiet
    · next hnot =>
      refine .workflow hpermits hu fun _ => .inl ?_
      simpa [hbegins] using hnot
  · rw [if_neg (by simp [hbegins])]
    exact .workflow hpermits hu fun hmem => absurd hmem hbegins

/-- A block of the agent opens at most the submission that it shows. -/
theorem moved_of_agent {label : SystemLabel Json}
    (hwired : ∀ r, s.delegatedRun = some r → Wired d.spec r.state)
    (h : s.step c d index (.agent label) = some t) : Moved c d index s (.agent label) t := by
  have hadvance : s.advance c d index label = some t ∧
      ∀ call verdict instant, label ≠ .submitReturns call verdict instant := by
    cases label with
    | submitReturns => cases h
    | _ => exact ⟨h, nofun⟩
  obtain ⟨hadvance, hlabel⟩ := hadvance
  obtain ⟨r, r', items, hblock, hflight, hcases⟩ := advance_cases hwired hadvance
  cases hflight with
  | opened call data gate _ hitems hbefore hafter =>
    simp only at hitems hafter
    subst hitems
    rcases hcases with ⟨hquiet, -⟩ | ⟨payload, u, hu, hpayload, rfl⟩
    · exact absurd (hquiet _ List.mem_cons_self) nofun
    · refine .submitted hblock (fun item hitem => ?_) hbefore hafter hu
      cases List.mem_singleton.mp hitem
      rfl
  | closed call verdict instant heq => exact absurd heq (hlabel call verdict instant)
  | kept _ hitems hstages =>
    rcases hcases with ⟨-, rfl⟩ | ⟨payload, u, hu, hpayload, rfl⟩
    · exact .blocked hblock ⟨fun item hitem => (hitems item hitem).1, hstages⟩
    · obtain ⟨item, hitem, heq⟩ := List.exists_of_findSome?_eq_some hpayload
      exact absurd ((hitems item hitem).2.symm.trans heq) nofun

/-- The answer of the port is what `onSubmit` returns to the agent. -/
theorem moved_of_answers {call instant : Nat}
    (hwired : ∀ r, s.delegatedRun = some r → Wired d.spec r.state)
    (h : s.step c d index (.answers call instant) = some t) :
    Moved c d index s (.answers call instant) t := by
  obtain ⟨result, hreply, hadvance⟩ := Option.bind_eq_some_iff.mp h
  obtain ⟨r, r', items, hblock, hflight, hcases⟩ :=
    advance_cases (s := { s with heard := s.heard + 1 }) hwired hadvance
  cases hflight with
  | opened _ _ _ hlabel => exact absurd rfl (hlabel call _ instant)
  | kept hlabel => exact absurd rfl (hlabel call _ instant)
  | closed _ verdict _ heq hitems hbefore hafter =>
    cases heq
    rcases hcases with ⟨-, rfl⟩ | ⟨payload, u, hu, hpayload, rfl⟩
    · refine .answered hreply ⟨hblock.run, hblock.step, hblock.history⟩ ?_ hbefore hafter
      cases result <;> exact hitems
    · -- what the answer shows is no submission
      simp only at hitems
      cases result <;> (subst hitems; cases hpayload)

theorem moved_of_handles (h : s.step c d index .handles = some t) :
    Moved c d index s .handles t := by
  obtain ⟨hguard, heq⟩ := Option.ite_none_right_eq_some.mp h
  cases heq
  simp only [Bool.and_eq_true, Option.isNone_iff_eq_none] at hguard
  obtain ⟨⟨hlaunching, hrun⟩, hhandle⟩ := hguard
  split
  · next haborted =>
    obtain ⟨r, hr⟩ := Option.isSome_iff_exists.mp hrun
    obtain ⟨r', items, hblock, hquiet, heq⟩ :=
      block_interrupt (d := d) (s := { s with handle := some .outcome }) hr
    rw [heq]
    exact .handledAborted (launching_iff.mp hlaunching) hhandle haborted
      ⟨hr, hblock.step, hblock.history⟩ hquiet
  · exact .handled (launching_iff.mp hlaunching) hhandle hrun

/-- A completed run is submitted to the port again; the other ends are final. -/
theorem moved_of_settles {recorded : Except String Unit}
    (h : s.step c d index (.settles recorded) = some t) :
    Moved c d index s (.settles recorded) t := by
  simp only [AgentNode.step] at h
  split at h
  · next outcome hhandle houtcome =>
    cases recorded with
    | ok =>
      simp only [AgentNode.settle] at h
      split at h
      · next value hstatus =>
        obtain ⟨u, hu, rfl⟩ := Option.map_eq_some_iff.mp h
        exact .resubmitted hhandle houtcome hstatus hu
      · next hstatus =>
        cases h
        exact .ended hhandle houtcome (.cancelled hstatus)
      · next error hstatus =>
        cases h
        exact .ended hhandle houtcome (.failed error hstatus)
    | error message =>
      cases h
      exact .ended hhandle houtcome (.unrecorded message)
  · cases h

theorem moved_of_step {l : NodeLabel}
    (hwired : ∀ r, s.delegatedRun = some r → Wired d.spec r.state)
    (h : s.step c d index l = some t) : Moved c d index s l t := by
  cases l with
  | workflow label => exact moved_of_workflow h
  | starts =>
    obtain ⟨hguard, heq⟩ := Option.ite_none_right_eq_some.mp h
    cases heq
    simp only [Bool.and_eq_true, Option.isNone_iff_eq_none] at hguard
    exact .started (launching_iff.mp hguard.1.1) hguard.1.2 hguard.2
  | agent label => exact moved_of_agent hwired h
  | answers call instant => exact moved_of_answers hwired h
  | handles => exact moved_of_handles h
  | settles recorded => exact moved_of_settles h
  | replies =>
    simp only [AgentNode.step] at h
    split at h
    · next payload hhandle =>
      obtain ⟨result, hreply, rfl⟩ := Option.map_eq_some_iff.mp h
      exact .replied hhandle hreply
    · cases h
  | stores written =>
    simp only [AgentNode.step] at h
    split at h
    · next result hhandle =>
      cases h
      exact .stored hhandle
    · cases h
  | observes =>
    simp only [AgentNode.step] at h
    split at h
    · next result hhandle =>
      obtain ⟨u, hu, rfl⟩ := Option.map_eq_some_iff.mp h
      exact .observed hhandle hu
    · cases h

end Steps

end Moved

end EphemeralAgent.Nodes
