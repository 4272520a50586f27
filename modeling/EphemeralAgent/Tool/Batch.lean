import EphemeralAgent.Contracts.ToolCalls
import EphemeralAgent.Lib.Transition

/-!
# The batch executor

`src/agents/tool/executor.ts`.  `executeBatch` is one caller, up to eight lanes that share a
cursor, and one `dispatch` for each call; each of them is suspended at its own `await`.

* `Batch` — the local variables of one `executeBatch` with the place of every lane
* `Batch.step` — one synchronous block of a lane or of `executeBatch` itself, and what it emits
* `step` — a batch under a signal that may abort at any point
-/

namespace EphemeralAgent.Tool

/-- `MAX_TOOL_CONCURRENCY`. -/
def maxToolConcurrency : Nat := 8

/-- Where one lane is. -/
inductive Lane where
  /-- `lane()` has not been called yet. -/
  | fresh
  /-- `await executeCall(..)` in `dispatch(index)`. -/
  | running (index : Nat)
  /-- `await dispatch(index)`, which has returned `more`. -/
  | returning (more : Bool)
  | done

/-- Where `executeBatch` itself is. -/
inductive BatchPhase where
  /-- Before the call of `lane()` number `lane`, in the first block. -/
  | starting (lane : Nat)
  /-- `await settledOrAborted(..)`. -/
  | racing
  /-- `await executeCall(..)` in the dispatch of the terminal call at this position. -/
  | terminalRunning (position : Nat)
  /-- `await dispatch(index)` of that call, which has returned `more`. -/
  | terminalReturning (position : Nat) (more : Bool)
  | returned (results : List ToolCallResult)

/-- What a block of the batch does that others see, by the index of the call. -/
inductive BatchItem where
  /-- `tool_execution_started`. -/
  | started (index : Nat)
  /-- `tool_execution_completed`. -/
  | completed (index : Nat) (result : ToolCallResult)
  /-- A straggler: the call has settled after the abort, and its result is dropped. -/
  | dropped (index : Nat)
  /-- The signal has aborted. -/
  | aborted

/-- One `executeBatch`. -/
structure Batch where
  calls : List ToolUseBlock
  terminalName : Option String
  settled : List (Option ToolCallResult)
  cursor : Nat
  lanes : List Lane
  phase : BatchPhase

/-- What wakes a part of the batch; `instant` is what `Date.now()` gives. -/
inductive BatchLabel where
  /-- The first block calls the next lane. -/
  | spawn
  /-- The call of a lane settles: `tool.run` has returned or thrown. -/
  | resolve (lane : Nat) (outcome : Except String PipelineResult) (instant : Nat)
  /-- A lane goes on after `await dispatch(..)`. -/
  | resume (lane : Nat)
  /-- `executeBatch` goes on after the lanes. -/
  | proceed (instant : Nat)
  /-- The terminal call settles. -/
  | resolveTerminal (outcome : Except String PipelineResult) (instant : Nat)
  /-- `executeBatch` goes on after a terminal call. -/
  | resumeTerminal (instant : Nat)

/-- `executeCall`, once `tool.run` has settled. -/
def executeCall (tools : List String) (call : ToolUseBlock) (outcome : Except String PipelineResult)
    (instant : Nat) : ToolCallResult :=
  if tools.contains call.name then
    match outcome with
    | .ok result => { result with toolUseId := call.toolUseId }
    | .error message => errorResult call.toolUseId message instant
  else errorResult call.toolUseId s!"tool not found: {call.name}" instant

/-- `call.name === input.terminalName`. -/
def isTerminalCall (calls : List ToolUseBlock) (terminalName : Option String) (index : Nat) :
    Bool :=
  match calls[index]?, terminalName with
  | some call, some name => call.name == name
  | _, _ => false

/-- `ordinary`: the indices of the ordinary calls, in call order. -/
def ordinaryCalls (calls : List ToolUseBlock) (terminalName : Option String) : List Nat :=
  (List.range calls.length).filter fun index => !isTerminalCall calls terminalName index

/-- `terminal`: the indices of the terminal calls, in call order. -/
def terminalCalls (calls : List ToolUseBlock) (terminalName : Option String) : List Nat :=
  (List.range calls.length).filter fun index => isTerminalCall calls terminalName index

namespace Batch

abbrev ordinary (b : Batch) : List Nat :=
  ordinaryCalls b.calls b.terminalName

abbrev terminal (b : Batch) : List Nat :=
  terminalCalls b.calls b.terminalName

/-- The first block of `executeBatch`, up to its first `lane()`. -/
def start (calls : List ToolUseBlock) (terminalName : Option String) : Batch :=
  let count := min maxToolConcurrency (ordinaryCalls calls terminalName).length
  { calls
    terminalName
    settled := List.replicate calls.length none
    cursor := 0
    lanes := List.replicate count .fresh
    phase := if count = 0 then .racing else .starting 0 }

/-- The loop head of `lane()`: claim the next ordinary call and start its `dispatch`. -/
def claim (b : Batch) (aborted : Bool) (lane : Nat) : Batch × List BatchItem :=
  match b.ordinary[b.cursor]?, aborted with
  | some index, false =>
    ({ b with cursor := b.cursor + 1, lanes := b.lanes.set lane (.running index) },
      [.started index])
  | _, _ => ({ b with lanes := b.lanes.set lane .done }, [])

/-- `dispatch` after `await executeCall(..)`: the result is dropped once the signal has aborted. -/
def record (b : Batch) (aborted : Bool) (index : Nat) (result : ToolCallResult) :
    Batch × Bool × List BatchItem :=
  if aborted then (b, false, [.dropped index])
  else ({ b with settled := b.settled.set index (some result) }, true, [.completed index result])

/-- `settled[index] ?? errorResult(call.tool_use_id, "interrupted")`. -/
def results (b : Batch) (instant : Nat) : List ToolCallResult :=
  b.calls.mapIdx fun index call =>
    ((b.settled[index]?).join).getD (errorResult call.toolUseId "interrupted" instant)

/-- The loop over the terminal calls, from this position on. -/
def nextTerminal (b : Batch) (aborted : Bool) (position instant : Nat) : Batch × List BatchItem :=
  match b.terminal[position]?, aborted with
  | some index, false => ({ b with phase := .terminalRunning position }, [.started index])
  | _, _ => ({ b with phase := .returned (b.results instant) }, [])

/-- The lane has settled. -/
def laneDone : Lane → Bool
  | .done => true
  | _ => false

/-- One synchronous block; `none` when that part of the batch does not wait for this. -/
def step (tools : List String) (aborted : Bool) (b : Batch) :
    BatchLabel → Option (Batch × List BatchItem)
  | .spawn =>
    match b.phase with
    | .starting lane =>
      let claimed := b.claim aborted lane
      some ({ claimed.1 with
        phase := if lane + 1 < b.lanes.length then .starting (lane + 1) else .racing }, claimed.2)
    | _ => none
  | .resolve lane outcome instant =>
    match b.lanes[lane]? with
    | some (.running index) =>
      (b.calls[index]?).map fun call =>
        let recorded := b.record aborted index (executeCall tools call outcome instant)
        ({ recorded.1 with lanes := b.lanes.set lane (.returning recorded.2.1) }, recorded.2.2)
    | _ => none
  | .resume lane =>
    match b.lanes[lane]? with
    | some (.returning true) => some (b.claim aborted lane)
    | some (.returning false) => some ({ b with lanes := b.lanes.set lane .done }, [])
    | _ => none
  | .proceed instant =>
    match b.phase with
    | .racing =>
      if b.lanes.all laneDone = true ∨ aborted = true then some (b.nextTerminal aborted 0 instant)
      else none
    | _ => none
  | .resolveTerminal outcome instant =>
    match b.phase with
    | .terminalRunning position =>
      (b.terminal[position]?).bind fun index =>
        (b.calls[index]?).map fun call =>
          let recorded := b.record aborted index (executeCall tools call outcome instant)
          ({ recorded.1 with phase := .terminalReturning position recorded.2.1 }, recorded.2.2)
    | _ => none
  | .resumeTerminal instant =>
    match b.phase with
    | .terminalReturning position true => some (b.nextTerminal aborted (position + 1) instant)
    | .terminalReturning _ false => some ({ b with phase := .returned (b.results instant) }, [])
    | _ => none

end Batch

/-! ## A batch and its signal -/

/-- A batch with its signal, and what has happened so far; no transition reads the history. -/
structure BatchRun where
  batch : Batch
  aborted : Bool
  history : List BatchItem

/-- A block of the batch, or the abort of its signal. -/
inductive BatchRunLabel where
  | block (label : BatchLabel)
  | abort

/-- A call of `executeBatch`; its signal may have aborted before. -/
def BatchRun.initial (calls : List ToolUseBlock) (terminalName : Option String) (aborted : Bool) :
    BatchRun :=
  { batch := .start calls terminalName
    aborted
    history := if aborted then [.aborted] else [] }

def BatchRun.step (tools : List String) (s : BatchRun) : BatchRunLabel → Option BatchRun
  | .block label =>
    (s.batch.step tools s.aborted label).map fun next =>
      { s with batch := next.1, history := s.history ++ next.2 }
  | .abort =>
    if s.aborted then none else some { s with aborted := true, history := s.history ++ [.aborted] }

end EphemeralAgent.Tool
