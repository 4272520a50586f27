import EphemeralAgent.Lib.Transition
import EphemeralAgent.Workflow.Runtime

/-!
# The steps of a workflow run

A run has two threads: `start()`, which does not go through the queue, and the operation the
queue is running.  Each is a stack of suspended `#dispatch` calls, innermost first.  A step runs
one thread to its next await, or is an action of the environment: the node runner resolves or
rejects a launch, a node calls its completion port or settles, a holder of the run handle
interrupts.

`Fired` lists every label with what it waits for and the state it leaves; the invariants of runs
are read off it by cases.
-/

namespace EphemeralAgent.Workflow

open EphemeralAgent.Lib

/-- What can happen next in a run. -/
inductive Label where
  | start
  | launchResolved (flow : FlowId)
  | launchRejected (flow : FlowId) (reason : String)
  | resume (flow : FlowId)
  | submit (entry : Nat) (payload : Json)
  | nodeSettled (entry : Nat) (settlement : NodeSettlement)
  | interrupt (reason : String)
  | dequeue
  | interruptsResolved
  | interruptsRejected (message : String)

section Flows

variable {X : Type}

/-- The suspended calls of a thread. -/
def WorkflowRunInstance.frames (s : WorkflowRunInstance X) : FlowId → List Frame
  | .start =>
    match s.startFlow with
    | .active frames => frames
    | _ => []
  | .queue =>
    match s.active with
    | some (.flow _ frames) => frames
    | _ => []

/-- `submit` answers; what the submitter sees now is noted beside what it saw before. -/
def answer (entry : Nat) (result : SubmissionResult) (before : Observed X)
    (s : WorkflowRunInstance X) : WorkflowRunInstance X :=
  { s with history := s.history ++ [.answered entry result before s.observed] }

/-- The operation of the queue ends without an exception. -/
def endTask (task : QueueTask X) (s : WorkflowRunInstance X) : WorkflowRunInstance X :=
  match task with
  | .submit entry outcome before => answer entry (.accept outcome) before { s with active := none }
  | .settle _ => { s with active := none }

/-- The operation of the queue ends with an exception; the monitor swallows that of a
settlement. -/
def failTask (task : QueueTask X) (fault : Fault) (s : WorkflowRunInstance X) :
    WorkflowRunInstance X :=
  let s := { s with active := none, history := s.history ++ [.fault .queue fault] }
  match task with
  | .submit entry _ before => answer entry (.error fault) before s
  | .settle _ => s

/-- Continue a thread with these suspended calls; without any it returns. -/
def setFrames (flow : FlowId) (frames : List Frame) (s : WorkflowRunInstance X) :
    WorkflowRunInstance X :=
  match flow with
  | .start =>
    match frames with
    | [] => { s with startFlow := .returned }
    | _ => { s with startFlow := .active frames }
  | .queue =>
    match s.active, frames with
    | some (.flow task _), [] => endTask task s
    | some (.flow task _), _ => { s with active := some (.flow task frames) }
    | _, _ => s

/-- An exception leaves every suspended call of a thread. -/
def failFlow (flow : FlowId) (fault : Fault) (s : WorkflowRunInstance X) :
    WorkflowRunInstance X :=
  match flow with
  | .start => { s with startFlow := .failed fault, history := s.history ++ [.fault .start fault] }
  | .queue =>
    match s.active with
    | some (.flow task _) => failTask task fault s
    | _ => s

/-- The stack after a call: a call that awaits a launch is pushed. -/
def pushFrame (frame : Option Frame) (frames : List Frame) : List Frame :=
  frame.toList ++ frames

end Flows

section Steps

variable {X : Type} (c : WorkflowStartRequest X)

/-- `start()` is called. -/
def stepStart (s : WorkflowRunInstance X) : WorkflowRunInstance X :=
  match startRun c s with
  | (.error fault, s) => failFlow .start fault s
  | (.ok frame, s) => setFrames .start (pushFrame frame []) s

/-- The launch that `frame` awaits has resolved: the handle is stored and monitored. -/
def stepLaunchResolved (flow : FlowId) (entry : Nat) (remaining : List WorkflowNodeDispatch)
    (outer : List Frame) (s : WorkflowRunInstance X) : WorkflowRunInstance X :=
  setFrames flow ({ awaiting := none, remaining } :: outer)
    { s with nodes := s.nodes.modify entry fun entry => { entry with handle := true } }

/-- The launch that `frame` awaits has thrown: `#launchDispatch` settles its node as failed. -/
def stepLaunchRejected (flow : FlowId) (index : Nat) (entry : WorkflowNodeRunEntry)
    (reason : String) (remaining : List WorkflowNodeDispatch) (outer : List Frame)
    (s : WorkflowRunInstance X) : WorkflowRunInstance X :=
  match settleNodeRun c index entry (failedLaunchSettlement entry reason) s with
  | (.error fault, s) => failFlow flow fault s
  | (.ok frame, s) =>
    setFrames flow (pushFrame frame ({ awaiting := none, remaining } :: outer)) s

/-- The launch loop goes on: the next dispatch is claimed, or the loop is over. -/
def stepResume (flow : FlowId) (remaining : List WorkflowNodeDispatch) (outer : List Frame)
    (s : WorkflowRunInstance X) : WorkflowRunInstance X :=
  match remaining with
  | [] => setFrames flow outer s
  | next :: rest =>
    match claimAndLaunch next s with
    | (.error fault, s) => failFlow flow fault s
    | (.ok entry, s) => setFrames flow ({ awaiting := some entry, remaining := rest } :: outer) s

/-- The queue runs a submission. -/
def stepSubmit (index : Nat) (entry : WorkflowNodeRunEntry) (payload : Json)
    (s : WorkflowRunInstance X) : WorkflowRunInstance X :=
  let before := s.observed
  match submitNodeCompletion c index entry payload s with
  | (.error fault, s) =>
    answer index (.error fault) before { s with history := s.history ++ [.fault .queue fault] }
  | (.ok (.rejected reason), s) => answer index (.reject reason) before s
  | (.ok (.applied outcome frame), s) =>
    setFrames .queue (pushFrame frame [])
      { s with active := some (.flow (.submit index outcome before) []) }

/-- The queue runs a settlement. -/
def stepSettle (index : Nat) (entry : WorkflowNodeRunEntry) (settlement : WorkflowNodeSettlement)
    (s : WorkflowRunInstance X) : WorkflowRunInstance X :=
  match settleNodeRun c index entry settlement s with
  | (.error fault, s) => { s with history := s.history ++ [.fault .queue fault] }
  | (.ok frame, s) =>
    setFrames .queue (pushFrame frame []) { s with active := some (.flow (.settle index) []) }

/-- The queue runs an interrupt. -/
def stepInterrupt (reason : String) (s : WorkflowRunInstance X) : WorkflowRunInstance X :=
  match beginInterrupt reason s with
  | (.ok (some running), s) => { s with active := some (.interrupting reason running) }
  | (_, s) => s

/-- `Promise.all` over the interrupted handles has resolved. -/
def stepInterruptsResolved (reason : String) (running : List Nat) (s : WorkflowRunInstance X) :
    WorkflowRunInstance X :=
  match completeInterrupt c reason running s with
  | (.error fault, s) =>
    { s with active := none, history := s.history ++ [.fault .queue fault] }
  | (.ok _, s) => { s with active := none }

/-- One handle's settlement resolves: the monitor enqueues it unless there is nothing to do. -/
def stepNodeSettled (index : Nat) (entry : WorkflowNodeRunEntry) (settlement : NodeSettlement)
    (s : WorkflowRunInstance X) : WorkflowRunInstance X :=
  let s := { s with nodes := s.nodes.modify index fun entry => { entry with settled := true } }
  match monitoredSettlement entry settlement with
  | none => s
  | some settlement =>
    if entry.status ≠ .running then s
    else { s with queue := s.queue ++ [.settle index settlement] }

/-- The queue starts its next operation. -/
def stepDequeue (s : WorkflowRunInstance X) : Option (WorkflowRunInstance X) :=
  match s.active, s.queue with
  | none, .submit index payload :: rest =>
    s.nodes[index]?.map fun entry => stepSubmit c index entry payload { s with queue := rest }
  | none, .settle index settlement :: rest =>
    s.nodes[index]?.map fun entry => stepSettle c index entry settlement { s with queue := rest }
  | none, .interrupt reason :: rest => some (stepInterrupt reason { s with queue := rest })
  | _, _ => none

/-- **One step of a workflow run.** -/
def step (s : WorkflowRunInstance X) : Label → Option (WorkflowRunInstance X)
  | .start =>
    match s.startFlow with
    | .idle => some (stepStart c s)
    | _ => none
  | .launchResolved flow =>
    match s.frames flow with
    | { awaiting := some entry, remaining } :: outer =>
      some (stepLaunchResolved flow entry remaining outer s)
    | _ => none
  | .launchRejected flow reason =>
    match s.frames flow with
    | { awaiting := some index, remaining } :: outer =>
      s.nodes[index]?.map fun entry => stepLaunchRejected c flow index entry reason remaining outer s
    | _ => none
  | .resume flow =>
    match s.frames flow with
    | { awaiting := none, remaining } :: outer => some (stepResume flow remaining outer s)
    | _ => none
  | .submit entry payload =>
    if entry < s.nodes.length then
      some { s with queue := s.queue ++ [.submit entry payload] }
    else none
  | .nodeSettled index settlement =>
    match s.nodes[index]? with
    | some entry =>
      if entry.handle && !entry.settled then some (stepNodeSettled index entry settlement s)
      else none
    | none => none
  | .interrupt reason =>
    match s.startFlow with
    | .returned => some { s with queue := s.queue ++ [.interrupt reason] }
    | _ => none
  | .dequeue => stepDequeue c s
  | .interruptsResolved =>
    match s.active with
    | some (.interrupting reason running) => some (stepInterruptsResolved c reason running s)
    | _ => none
  | .interruptsRejected message =>
    match s.active with
    | some (.interrupting _ _) =>
      some { s with
        active := none
        history := s.history ++ [.fault .queue ⟨.interruptNode, message⟩] }
    | _ => none

/-- A run that has not been started. -/
def initial : WorkflowRunInstance X := {}

/-! ## What a step waits for -/

/-- A label with what it waits for and the state that it leaves; the queue takes three kinds of
operations. -/
inductive Fired (s : WorkflowRunInstance X) : Label → WorkflowRunInstance X → Prop
  | start (hidle : s.startFlow = .idle) : Fired s .start (stepStart c s)
  | launchResolved (flow : FlowId) (index : Nat) (remaining : List WorkflowNodeDispatch)
      (outer : List Frame)
      (hframes : s.frames flow = { awaiting := some index, remaining } :: outer) :
      Fired s (.launchResolved flow) (stepLaunchResolved flow index remaining outer s)
  | launchRejected (flow : FlowId) (reason : String) (index : Nat) (entry : WorkflowNodeRunEntry)
      (remaining : List WorkflowNodeDispatch) (outer : List Frame)
      (hframes : s.frames flow = { awaiting := some index, remaining } :: outer)
      (hentry : s.nodes[index]? = some entry) :
      Fired s (.launchRejected flow reason)
        (stepLaunchRejected c flow index entry reason remaining outer s)
  | resume (flow : FlowId) (remaining : List WorkflowNodeDispatch) (outer : List Frame)
      (hframes : s.frames flow = { awaiting := none, remaining } :: outer) :
      Fired s (.resume flow) (stepResume flow remaining outer s)
  | submit (index : Nat) (payload : Json) (hlt : index < s.nodes.length) :
      Fired s (.submit index payload) { s with queue := s.queue ++ [.submit index payload] }
  | nodeSettled (index : Nat) (entry : WorkflowNodeRunEntry) (settlement : NodeSettlement)
      (hentry : s.nodes[index]? = some entry) (hhandle : entry.handle = true)
      (hopen : entry.settled = false) :
      Fired s (.nodeSettled index settlement) (stepNodeSettled index entry settlement s)
  | interrupt (reason : String) (hreturned : s.startFlow = .returned) :
      Fired s (.interrupt reason) { s with queue := s.queue ++ [.interrupt reason] }
  | takesSubmit (index : Nat) (entry : WorkflowNodeRunEntry) (payload : Json)
      (rest : List Operation) (hactive : s.active = none)
      (hqueue : s.queue = .submit index payload :: rest)
      (hentry : s.nodes[index]? = some entry) :
      Fired s .dequeue (stepSubmit c index entry payload { s with queue := rest })
  | takesSettle (index : Nat) (entry : WorkflowNodeRunEntry) (settlement : WorkflowNodeSettlement)
      (rest : List Operation) (hactive : s.active = none)
      (hqueue : s.queue = .settle index settlement :: rest)
      (hentry : s.nodes[index]? = some entry) :
      Fired s .dequeue (stepSettle c index entry settlement { s with queue := rest })
  | takesInterrupt (reason : String) (rest : List Operation) (hactive : s.active = none)
      (hqueue : s.queue = .interrupt reason :: rest) :
      Fired s .dequeue (stepInterrupt reason { s with queue := rest })
  | interruptsResolved (reason : String) (running : List Nat)
      (hactive : s.active = some (.interrupting reason running)) :
      Fired s .interruptsResolved (stepInterruptsResolved c reason running s)
  | interruptsRejected (message reason : String) (running : List Nat)
      (hactive : s.active = some (.interrupting reason running)) :
      Fired s (.interruptsRejected message)
        { s with
          active := none
          history := s.history ++ [.fault .queue ⟨.interruptNode, message⟩] }

/-- A thread whose code has run goes on, or the exception leaves it. -/
def proceed (flow : FlowId) (outer : List Frame) :
    Except Fault (Option Frame) × WorkflowRunInstance X → WorkflowRunInstance X
  | (.error fault, s) => failFlow flow fault s
  | (.ok frame, s) => setFrames flow (pushFrame frame outer) s

variable {c} {s t : WorkflowRunInstance X}

theorem stepStart_eq : stepStart c s = proceed .start [] (startRun c s) := by
  unfold stepStart proceed
  split <;> rfl

theorem stepLaunchRejected_eq {flow : FlowId} {index : Nat} {entry : WorkflowNodeRunEntry}
    {reason : String} {remaining : List WorkflowNodeDispatch} {outer : List Frame} :
    stepLaunchRejected c flow index entry reason remaining outer s =
      proceed flow ({ awaiting := none, remaining } :: outer)
        (settleNodeRun c index entry (failedLaunchSettlement entry reason) s) := by
  unfold stepLaunchRejected proceed
  split <;> rfl

theorem fired_of_dequeue (h : stepDequeue c s = some t) : Fired c s .dequeue t := by
  unfold stepDequeue at h
  split at h
  · next hactive hqueue =>
    obtain ⟨entry, hentry, rfl⟩ := Option.map_eq_some_iff.mp h
    exact .takesSubmit _ entry _ _ hactive hqueue hentry
  · next hactive hqueue =>
    obtain ⟨entry, hentry, rfl⟩ := Option.map_eq_some_iff.mp h
    exact .takesSettle _ entry _ _ hactive hqueue hentry
  · next hactive hqueue =>
    cases h
    exact .takesInterrupt _ _ hactive hqueue
  · cases h

/-- **Every step is one of these.** -/
theorem fired_of_step {l : Label} (h : step c s l = some t) : Fired c s l t := by
  cases l with
  | dequeue => exact fired_of_dequeue h
  | submit index payload =>
    obtain ⟨hlt, heq⟩ := Option.ite_none_right_eq_some.mp h
    cases heq
    exact .submit index payload hlt
  | launchRejected flow reason =>
    simp only [step] at h
    split at h
    · next hframes =>
      obtain ⟨entry, hentry, rfl⟩ := Option.map_eq_some_iff.mp h
      exact .launchRejected flow reason _ entry _ _ hframes hentry
    · cases h
  | nodeSettled index settlement =>
    simp only [step] at h
    split at h
    · next entry hentry =>
      obtain ⟨hlive, heq⟩ := Option.ite_none_right_eq_some.mp h
      cases heq
      rw [Bool.and_eq_true, Bool.not_eq_true'] at hlive
      exact .nodeSettled index entry settlement hentry hlive.1 hlive.2
    · cases h
  | _ =>
    simp only [step] at h
    split at h
    · next hguard =>
      cases h
      constructor <;> assumption
    · cases h

end Steps

end EphemeralAgent.Workflow
