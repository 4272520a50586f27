import EphemeralAgent.Lib.History
import EphemeralAgent.Lib.Transition

/-!
# The background task supervisor

`src/agents/background/background-task-supervisor.ts`.  A task's `done`, `cancel()` and
`onCompletion` are host code; each `#teardown` and `#complete` is suspended at its own `await`.

* `Supervisor` — the registry with every settlement that is under way
* `Supervisor.step` — one synchronous block, and what it shows: events, callbacks, results
-/

namespace EphemeralAgent.Background

abbrev BackgroundTaskId := String

inductive BackgroundTaskStatus where
  | success
  | failed
  | cancelled
  deriving DecidableEq, Repr

structure BackgroundTaskOutcome where
  status : BackgroundTaskStatus
  outcome : String
  deriving DecidableEq, Repr

/-- `BackgroundTaskTag`: opaque, compared by `type` and `id`. -/
structure BackgroundTaskTag where
  type : String
  id : String
  deriving DecidableEq, Repr

/-- `BackgroundTask`, without its callbacks. -/
structure BackgroundTask where
  tag : BackgroundTaskTag
  title : String
  silent : Bool
  deriving DecidableEq, Repr

structure BackgroundTaskRow where
  taskId : BackgroundTaskId
  tag : BackgroundTaskTag
  title : String
  startedAt : Nat
  deriving DecidableEq, Repr

structure TaskEntry where
  task : BackgroundTask
  row : BackgroundTaskRow
  settling : Bool
  deriving DecidableEq, Repr

/-- Whose code settles a task. -/
inductive Settler where
  /-- The continuation of the task's own `done`. -/
  | natural
  /-- `cancel()` call number `call`. -/
  | cancel (call : Nat)
  /-- `disposeAll()` call number `call`. -/
  | disposal (call : Nat)
  deriving DecidableEq, Repr

/-- Where a settlement is suspended. -/
inductive SettlementPoint where
  /-- Before `#complete`: at `await entry.task.cancel(reason)` in `#teardown`. -/
  | tearingDown
  /-- In `#complete`, before the microtask that calls the handler. -/
  | completing
  /-- `await withTimeout(..)`: the handler has been called. -/
  | handling
  deriving DecidableEq, Repr

/-- One settlement under way: `#teardown`, then `#complete`, of the entry of `task` and `row`. -/
structure Settlement where
  settler : Settler
  task : BackgroundTask
  row : BackgroundTaskRow
  outcome : BackgroundTaskOutcome
  point : SettlementPoint
  deriving DecidableEq, Repr

/-- How a completion handler ends. -/
inductive HandlerEnd where
  | returned
  | threw (message : String)
  | timedOut

/-- What a block of the supervisor shows. -/
inductive BackgroundItem where
  /-- `task_registered`. -/
  | registered (task : BackgroundTask) (row : BackgroundTaskRow)
  /-- `register` throws: the tag is active. -/
  | tagActive (tag : BackgroundTaskTag)
  /-- A registration after the disposal: the task is cancelled and leaves no trace. -/
  | discarded (taskId : BackgroundTaskId)
  /-- `entry.settling = true`: this code has taken a running task for its settlement. -/
  | settling (settler : Settler) (taskId : BackgroundTaskId)
  /-- The promise of a `cancel()` call resolves. -/
  | cancelResolved (call : Nat) (result : Bool)
  /-- `onCompletion` is called. -/
  | handlerCalled (taskId : BackgroundTaskId) (outcome : BackgroundTaskOutcome)
  /-- `task_settled`. -/
  | settled (row : BackgroundTaskRow) (outcome : BackgroundTaskOutcome)
      (completionError : Option String)
  /-- A waker of `waitForChange` is called. -/
  | woke (waker : Nat)
  /-- The promise of a `disposeAll()` call resolves. -/
  | disposed (call : Nat)

/-- `RunBackgroundTaskSupervisor`: `#entries` in insertion order, and what is under way. -/
structure Supervisor where
  entries : List TaskEntry
  wakers : List Nat
  changes : Nat
  disposedReason : Option String
  /-- The ids that `mintBackgroundTaskId` has given. -/
  minted : List BackgroundTaskId
  settlements : List Settlement
  /-- The number of `cancel()` and `disposeAll()` calls. -/
  calls : Nat
  /-- The `cancel()` calls whose `await this.#complete(..)` is over. -/
  returning : List Nat
  /-- The `disposeAll()` calls that have not resolved. -/
  disposals : List Nat

inductive SupervisorLabel where
  /-- `register(task)`, with the id it mints and the time. -/
  | register (task : BackgroundTask) (taskId : BackgroundTaskId) (startedAt : Nat)
  /-- The task's `done` resolves, or rejects with this message. -/
  | done (taskId : BackgroundTaskId) (result : Except String BackgroundTaskOutcome)
  | cancel (tag : BackgroundTaskTag) (reason : Option String)
  | disposeAll (reason : String)
  /-- The task's `cancel()` of this settlement has returned or thrown. -/
  | tornDown (position : Nat)
  /-- The microtask of this settlement calls the handler. -/
  | callHandler (position : Nat)
  | handlerEnded (position : Nat) (how : HandlerEnd)
  | cancelReturns (call : Nat)
  | disposalReturns (call : Nat)

namespace Supervisor

def initial : Supervisor :=
  { entries := [], wakers := [], changes := 0, disposedReason := none, minted := []
    settlements := [], calls := 0, returning := [], disposals := [] }

/-! ## What the gates read -/

/-- `list()`. -/
def list (s : Supervisor) : List BackgroundTaskRow :=
  s.entries.map (·.row)

/-- `isEmpty()`: the gates' `task registry empty`. -/
def isEmpty (s : Supervisor) : Bool :=
  s.entries.isEmpty

/-- `count()`. -/
def count (s : Supervisor) : Nat :=
  s.entries.length

/-- `changeCount()`. -/
def changeCount (s : Supervisor) : Nat :=
  s.changes

/-- `#findActive(tag)`. -/
def findActive (s : Supervisor) (tag : BackgroundTaskTag) : Option TaskEntry :=
  s.entries.find? fun entry => entry.row.tag == tag

/-- `#entries.get(taskId)`. -/
def get (s : Supervisor) (taskId : BackgroundTaskId) : Option TaskEntry :=
  s.entries.find? fun entry => entry.row.taskId == taskId

/-! ## The completion path -/

/-- `entry.settling = true` for these entries, and the start of their settlements. -/
def beginSettling (s : Supervisor) (opened : List TaskEntry) (settler : Settler)
    (outcome : BackgroundTaskOutcome) : Supervisor × List BackgroundItem :=
  ({ s with
      entries := s.entries.map fun entry =>
        if opened.any (·.row.taskId == entry.row.taskId) then { entry with settling := true }
        else entry
      settlements := s.settlements ++ opened.map fun entry =>
        { settler, task := entry.task, row := entry.row, outcome, point := .tearingDown } },
    opened.map fun entry => .settling settler entry.row.taskId)

/-- The end of `#complete`: remove the entry, emit `task_settled`, wake every waiter. -/
def remove (s : Supervisor) (position : Nat) (settlement : Settlement)
    (completionError : Option String) : Supervisor × List BackgroundItem :=
  ({ s with
      entries := s.entries.filter fun entry => entry.row.taskId != settlement.row.taskId
      changes := s.changes + 1
      wakers := []
      settlements := s.settlements.eraseIdx position
      returning :=
        match settlement.settler with
        | .cancel call => s.returning ++ [call]
        | _ => s.returning },
    .settled settlement.row settlement.outcome completionError :: s.wakers.map .woke)

/-- `#complete` up to its first `await`: a silent task is removed at once. -/
def complete (s : Supervisor) (position : Nat) (settlement : Settlement) :
    Supervisor × List BackgroundItem :=
  if settlement.task.silent then s.remove position settlement none
  else
    ({ s with settlements :=
        s.settlements.set position { settlement with point := .completing } }, [])

/-- `#settle(taskId, outcome)`: a natural settle against a settling task is dropped. -/
def settle (s : Supervisor) (taskId : BackgroundTaskId) (outcome : BackgroundTaskOutcome) :
    Supervisor × List BackgroundItem :=
  match s.get taskId with
  | some entry =>
    if entry.settling then (s, [])
    else
      let begun := s.beginSettling [entry] .natural outcome
      let completed := begun.1.complete s.settlements.length
        { settler := .natural, task := entry.task, row := entry.row, outcome
          point := .tearingDown }
      (completed.1, begun.2 ++ completed.2)
  | none => (s, [])

/-! ## The public operations -/

/-- `register(task)`. -/
def register (s : Supervisor) (task : BackgroundTask) (taskId : BackgroundTaskId)
    (startedAt : Nat) : Supervisor × List BackgroundItem :=
  let minted := { s with minted := taskId :: s.minted }
  if s.disposedReason.isSome then (minted, [.discarded taskId])
  else if (s.findActive task.tag).isSome then (minted, [.tagActive task.tag])
  else
    let row : BackgroundTaskRow := { taskId, tag := task.tag, title := task.title, startedAt }
    ({ minted with entries := s.entries ++ [{ task, row, settling := false }] },
      [.registered task row])

/-- `cancel(tag, reason)` up to its first `await`. -/
def cancel (s : Supervisor) (tag : BackgroundTaskTag) (reason : Option String) :
    Supervisor × List BackgroundItem :=
  let called := { s with calls := s.calls + 1 }
  match s.findActive tag with
  | some entry =>
    if entry.settling then (called, [.cancelResolved s.calls false])
    else
      called.beginSettling [entry] (.cancel s.calls)
        { status := .cancelled, outcome := reason.getD "cancelled" }
  | none => (called, [.cancelResolved s.calls false])

/-- `disposeAll(reason)` up to its first `await`. -/
def disposeAll (s : Supervisor) (reason : String) : Supervisor × List BackgroundItem :=
  let latched := { s with
    disposedReason := s.disposedReason <|> some reason
    calls := s.calls + 1
    disposals := s.disposals ++ [s.calls] }
  latched.beginSettling (s.entries.filter fun entry => !entry.settling) (.disposal s.calls)
    { status := .cancelled, outcome := reason }

/-- `completionError`: what a throwing or timed-out handler leaves on the event. -/
def completionError (completionTimeoutMs : Nat) : HandlerEnd → Option String
  | .returned => none
  | .threw message => some message
  | .timedOut => some s!"onCompletion exceeded {completionTimeoutMs}ms"

/-- One synchronous block; `none` when nothing waits for this label. -/
def step (completionTimeoutMs : Nat) (s : Supervisor) :
    SupervisorLabel → Option (Supervisor × List BackgroundItem)
  | .register task taskId startedAt =>
    if taskId ∈ s.minted then none else some (s.register task taskId startedAt)
  | .done taskId (.ok outcome) => some (s.settle taskId outcome)
  | .done taskId (.error message) =>
    some (s.settle taskId { status := .failed, outcome := message })
  | .cancel tag reason => some (s.cancel tag reason)
  | .disposeAll reason => some (s.disposeAll reason)
  | .tornDown position =>
    match s.settlements[position]? with
    | some settlement =>
      if settlement.point = .tearingDown then some (s.complete position settlement) else none
    | none => none
  | .callHandler position =>
    match s.settlements[position]? with
    | some settlement =>
      if settlement.point = .completing then
        some ({ s with settlements :=
            s.settlements.set position { settlement with point := .handling } },
          [.handlerCalled settlement.row.taskId settlement.outcome])
      else none
    | none => none
  | .handlerEnded position how =>
    match s.settlements[position]? with
    | some settlement =>
      if settlement.point = .handling then
        some (s.remove position settlement (completionError completionTimeoutMs how))
      else none
    | none => none
  | .cancelReturns call =>
    if call ∈ s.returning then
      some ({ s with returning := s.returning.erase call }, [.cancelResolved call true])
    else none
  | .disposalReturns call =>
    if call ∈ s.disposals ∧ ∀ settlement ∈ s.settlements, settlement.settler ≠ .disposal call then
      some ({ s with disposals := s.disposals.erase call }, [.disposed call])
    else none

/-- A label with what it waits for, and the block that it runs. -/
inductive Fired (completionTimeoutMs : Nat) (s : Supervisor) :
    SupervisorLabel → Supervisor × List BackgroundItem → Prop
  | register (task : BackgroundTask) (taskId : BackgroundTaskId) (startedAt : Nat)
      (hfresh : taskId ∉ s.minted) :
      Fired completionTimeoutMs s (.register task taskId startedAt)
        (s.register task taskId startedAt)
  | done (taskId : BackgroundTaskId) (outcome : BackgroundTaskOutcome) :
      Fired completionTimeoutMs s (.done taskId (.ok outcome)) (s.settle taskId outcome)
  | failed (taskId : BackgroundTaskId) (message : String) :
      Fired completionTimeoutMs s (.done taskId (.error message))
        (s.settle taskId { status := .failed, outcome := message })
  | cancel (tag : BackgroundTaskTag) (reason : Option String) :
      Fired completionTimeoutMs s (.cancel tag reason) (s.cancel tag reason)
  | disposeAll (reason : String) :
      Fired completionTimeoutMs s (.disposeAll reason) (s.disposeAll reason)
  | tornDown (position : Nat) (settlement : Settlement)
      (hat : s.settlements[position]? = some settlement) (hpoint : settlement.point = .tearingDown) :
      Fired completionTimeoutMs s (.tornDown position) (s.complete position settlement)
  | callHandler (position : Nat) (settlement : Settlement)
      (hat : s.settlements[position]? = some settlement) (hpoint : settlement.point = .completing) :
      Fired completionTimeoutMs s (.callHandler position)
        ({ s with settlements :=
            s.settlements.set position { settlement with point := .handling } },
          [.handlerCalled settlement.row.taskId settlement.outcome])
  | handlerEnded (position : Nat) (how : HandlerEnd) (settlement : Settlement)
      (hat : s.settlements[position]? = some settlement) (hpoint : settlement.point = .handling) :
      Fired completionTimeoutMs s (.handlerEnded position how)
        (s.remove position settlement (completionError completionTimeoutMs how))
  | cancelReturns (call : Nat) (hcall : call ∈ s.returning) :
      Fired completionTimeoutMs s (.cancelReturns call)
        ({ s with returning := s.returning.erase call }, [.cancelResolved call true])
  | disposalReturns (call : Nat) (hcall : call ∈ s.disposals)
      (hall : ∀ settlement ∈ s.settlements, settlement.settler ≠ .disposal call) :
      Fired completionTimeoutMs s (.disposalReturns call)
        ({ s with disposals := s.disposals.erase call }, [.disposed call])

/-- **Every step is one of these.** -/
theorem fired_of_step {completionTimeoutMs : Nat} {s : Supervisor} {label : SupervisorLabel}
    {next : Supervisor × List BackgroundItem} (h : s.step completionTimeoutMs label = some next) :
    Fired completionTimeoutMs s label next := by
  cases label with
  | register task taskId startedAt =>
    obtain ⟨hfresh, heq⟩ := Option.ite_none_left_eq_some.mp h
    cases heq
    exact .register task taskId startedAt hfresh
  | done taskId result =>
    cases result <;> cases h
    · exact .failed taskId _
    · exact .done taskId _
  | cancel tag reason =>
    cases h
    exact .cancel tag reason
  | disposeAll reason =>
    cases h
    exact .disposeAll reason
  | cancelReturns call =>
    obtain ⟨hcall, heq⟩ := Option.ite_none_right_eq_some.mp h
    cases heq
    exact .cancelReturns call hcall
  | disposalReturns call =>
    obtain ⟨⟨hcall, hall⟩, heq⟩ := Option.ite_none_right_eq_some.mp h
    cases heq
    exact .disposalReturns call hcall hall
  | _ =>
    -- the labels that name a settlement by its position
    simp only [step] at h
    split at h
    · next settlement hat =>
      obtain ⟨hpoint, heq⟩ := Option.ite_none_right_eq_some.mp h
      cases heq
      constructor <;> assumption
    · cases h

/-! ## The park -/

/-- `waitForChange(since, signal)`: register this waker, or resolve at once. -/
def waitForChange (s : Supervisor) (since : Nat) (aborted : Bool) (waker : Nat) :
    Supervisor × Bool :=
  if s.changes ≠ since ∨ aborted then (s, true)
  else ({ s with wakers := s.wakers ++ [waker] }, false)

/-- The signal of this waker aborts: its listener is the waker itself. -/
def abortWaker (s : Supervisor) (waker : Nat) : Supervisor :=
  { s with wakers := s.wakers.filter (· != waker) }

end Supervisor

end EphemeralAgent.Background
