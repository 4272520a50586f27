import Mathlib.Data.List.Nodup
import EphemeralAgent.Lib.History

/-!
# Push-fed streams with a single consumer

`EventStream` of `src/agents/engine/run-handle.ts`, and its two copies `LiveEventStream` in
`src/nodes/events.ts` and in `src/runs/live-event-stream.ts`.  A waker is the number of the
`next()` call that has registered it.

* `EventStream`, `Nodes.LiveEventStream`, `Runs.LiveEventStream` — the three classes
* `StreamClass` — what they have in common, as operations
* `StreamClass.step` — a stream with its producer and the pending `next()` calls of its consumer
-/

namespace EphemeralAgent.Streams

/-- `IteratorResult`. -/
inductive IteratorResult (E : Type) where
  | event (event : E)
  | done
  deriving DecidableEq, Repr

/-! ## `EventStream` -/

/-- `EventStream` of agent-core's run handle: the wakers stand in an array. -/
structure EventStream (E : Type) where
  buffer : List E
  wakers : List Nat
  closed : Bool
  detached : Bool
  consumed : Bool

namespace EventStream

variable {E : Type}

def initial : EventStream E :=
  { buffer := [], wakers := [], closed := false, detached := false, consumed := false }

/-- `#wake()`: with the wakers that it calls. -/
def wake (s : EventStream E) : EventStream E × List Nat :=
  ({ s with wakers := [] }, s.wakers)

def push (s : EventStream E) (event : E) : EventStream E × List Nat :=
  if s.detached ∨ s.closed then (s, [])
  else ({ s with buffer := s.buffer ++ [event] } : EventStream E).wake

def close (s : EventStream E) : EventStream E × List Nat :=
  ({ s with closed := true } : EventStream E).wake

/-- `[Symbol.asyncIterator]()`; `none` when it throws. -/
def iterator (s : EventStream E) : Option (EventStream E) :=
  if s.consumed then none else some { s with consumed := true }

/-- One turn of the loop of `#next()`; without a result it awaits its waker. -/
def next (s : EventStream E) (waker : Nat) : EventStream E × Option (IteratorResult E) :=
  if s.detached then (s, some .done)
  else
    match s.buffer with
    | event :: rest => ({ s with buffer := rest }, some (.event event))
    | [] =>
      if s.closed then (s, some .done)
      else ({ s with wakers := s.wakers ++ [waker] }, none)

/-- `#detach()`. -/
def detach (s : EventStream E) : EventStream E × List Nat :=
  ({ s with detached := true, buffer := [] } : EventStream E).wake

end EventStream

/-! ## The copies -/

/-- A `Set` of wakers, in the order in which they were added. -/
structure WakerSet where
  wakers : List Nat
  nodup : wakers.Nodup

namespace WakerSet

def empty : WakerSet := ⟨[], List.nodup_nil⟩

/-- `add`: a member keeps its place. -/
def add (set : WakerSet) (waker : Nat) : WakerSet :=
  if h : waker ∈ set.wakers then set
  else ⟨set.wakers ++ [waker], List.nodup_append.mpr ⟨set.nodup, List.nodup_singleton _, by
    intro a ha b hb
    rw [List.mem_singleton.mp hb]
    exact fun heq => h (heq ▸ ha)⟩⟩

theorem add_wakers {set : WakerSet} {waker : Nat} (h : waker ∉ set.wakers) :
    (set.add waker).wakers = set.wakers ++ [waker] := by
  unfold add
  rw [dif_neg h]

end WakerSet

/-- `LiveEventStream` of agent-core's nodes. -/
structure Nodes.LiveEventStream (E : Type) where
  buffer : List E
  wakers : WakerSet
  closed : Bool
  detached : Bool
  consumed : Bool

namespace Nodes.LiveEventStream

variable {E : Type}

def initial : LiveEventStream E :=
  { buffer := [], wakers := .empty, closed := false, detached := false, consumed := false }

/-- `#wake()`: every waker is called, then the set is cleared. -/
def wake (s : LiveEventStream E) : LiveEventStream E × List Nat :=
  ({ s with wakers := .empty }, s.wakers.wakers)

def push (s : LiveEventStream E) (event : E) : LiveEventStream E × List Nat :=
  if s.closed ∨ s.detached then (s, [])
  else ({ s with buffer := s.buffer ++ [event] } : LiveEventStream E).wake

def close (s : LiveEventStream E) : LiveEventStream E × List Nat :=
  ({ s with closed := true } : LiveEventStream E).wake

def iterator (s : LiveEventStream E) : Option (LiveEventStream E) :=
  if s.consumed then none else some { s with consumed := true }

def next (s : LiveEventStream E) (waker : Nat) :
    LiveEventStream E × Option (IteratorResult E) :=
  if s.detached then (s, some .done)
  else
    match s.buffer with
    | event :: rest => ({ s with buffer := rest }, some (.event event))
    | [] =>
      if s.closed then (s, some .done)
      else ({ s with wakers := s.wakers.add waker }, none)

/-- `#detach()`. -/
def detach (s : LiveEventStream E) : LiveEventStream E × List Nat :=
  ({ s with detached := true, buffer := [] } : LiveEventStream E).wake

end Nodes.LiveEventStream

/-- `LiveEventStream` of agent-engine's runs. -/
structure Runs.LiveEventStream (E : Type) where
  buffer : List E
  wakers : WakerSet
  closed : Bool
  detached : Bool
  consumed : Bool

namespace Runs.LiveEventStream

variable {E : Type}

def initial : LiveEventStream E :=
  { buffer := [], wakers := .empty, closed := false, detached := false, consumed := false }

def wake (s : LiveEventStream E) : LiveEventStream E × List Nat :=
  ({ s with wakers := .empty }, s.wakers.wakers)

def push (s : LiveEventStream E) (event : E) : LiveEventStream E × List Nat :=
  if s.closed ∨ s.detached then (s, [])
  else ({ s with buffer := s.buffer ++ [event] } : LiveEventStream E).wake

def close (s : LiveEventStream E) : LiveEventStream E × List Nat :=
  ({ s with closed := true } : LiveEventStream E).wake

def iterator (s : LiveEventStream E) : Option (LiveEventStream E) :=
  if s.consumed then none else some { s with consumed := true }

def next (s : LiveEventStream E) (waker : Nat) : LiveEventStream E × Option (IteratorResult E) :=
  if s.detached then (s, some .done)
  else
    match s.buffer with
    | event :: rest => ({ s with buffer := rest }, some (.event event))
    | [] =>
      if s.closed then (s, some .done)
      else ({ s with wakers := s.wakers.add waker }, none)

/-- The body of `return()`. -/
def detach (s : LiveEventStream E) : LiveEventStream E × List Nat :=
  ({ s with detached := true, buffer := [] } : LiveEventStream E).wake

end Runs.LiveEventStream

/-! ## A stream at work -/

/-- The operations of a stream class. -/
structure StreamClass (E S : Type) where
  initial : S
  push : S → E → S × List Nat
  close : S → S × List Nat
  iterator : S → Option S
  next : S → Nat → S × Option (IteratorResult E)
  detach : S → S × List Nat

def eventStream (E : Type) : StreamClass E (EventStream E) where
  initial := EventStream.initial
  push := EventStream.push
  close := EventStream.close
  iterator := EventStream.iterator
  next := EventStream.next
  detach := EventStream.detach

def Nodes.liveEventStream (E : Type) : StreamClass E (Nodes.LiveEventStream E) where
  initial := Nodes.LiveEventStream.initial
  push := Nodes.LiveEventStream.push
  close := Nodes.LiveEventStream.close
  iterator := Nodes.LiveEventStream.iterator
  next := Nodes.LiveEventStream.next
  detach := Nodes.LiveEventStream.detach

def Runs.liveEventStream (E : Type) : StreamClass E (Runs.LiveEventStream E) where
  initial := Runs.LiveEventStream.initial
  push := Runs.LiveEventStream.push
  close := Runs.LiveEventStream.close
  iterator := Runs.LiveEventStream.iterator
  next := Runs.LiveEventStream.next
  detach := Runs.LiveEventStream.detach

/-- A stream with the `next()` calls of its consumer. -/
structure Streaming (S : Type) where
  stream : S
  /-- The consumer has got its iterator. -/
  iterating : Bool
  /-- How often `next()` has been called. -/
  calls : Nat
  /-- The calls whose waker has been called; they go on in a later microtask. -/
  woken : List Nat

/-- What the consumer does, and what goes on for it. -/
inductive ConsumerLabel where
  | iterator
  | next
  | resume (call : Nat)
  | return
  deriving DecidableEq, Repr

inductive StreamLabel (E : Type) where
  | push (event : E)
  | close
  | consumer (label : ConsumerLabel)

/-- What is seen of a stream from outside. -/
inductive StreamItem (E : Type) where
  | push (event : E)
  | close
  | iterator
  /-- A second `[Symbol.asyncIterator]()` throws. -/
  | refused
  | called (call : Nat)
  | answered (call : Nat) (result : IteratorResult E)
  | detached
  deriving DecidableEq, Repr

namespace StreamClass

variable {E S : Type} (c : StreamClass E S)

def start : Streaming S :=
  { stream := c.initial, iterating := false, calls := 0, woken := [] }

/-- A turn of the loop of this `next()` call. -/
def turn (s : Streaming S) (call : Nat) : Streaming S × List (StreamItem E) :=
  let next := c.next s.stream call
  ({ s with stream := next.1 }, next.2.toList.map (.answered call))

def consume (s : Streaming S) : ConsumerLabel → Option (Streaming S × List (StreamItem E))
  | .iterator =>
    match c.iterator s.stream with
    | some stream => some ({ s with stream, iterating := true }, [.iterator])
    | none => some (s, [.refused])
  | .next =>
    if s.iterating then
      let next := c.turn { s with calls := s.calls + 1 } s.calls
      some (next.1, .called s.calls :: next.2)
    else none
  | .resume call =>
    if call ∈ s.woken then some (c.turn { s with woken := s.woken.erase call } call) else none
  | .return =>
    if s.iterating then
      let next := c.detach s.stream
      some ({ s with stream := next.1, woken := s.woken ++ next.2 }, [.detached])
    else none

/-- One synchronous block of the producer or the consumer. -/
def step (s : Streaming S) : StreamLabel E → Option (Streaming S × List (StreamItem E))
  | .push event =>
    let next := c.push s.stream event
    some ({ s with stream := next.1, woken := s.woken ++ next.2 }, [.push event])
  | .close =>
    let next := c.close s.stream
    some ({ s with stream := next.1, woken := s.woken ++ next.2 }, [.close])
  | .consumer label => c.consume s label

end StreamClass

/-! ## Reading a history -/

section History

variable {E : Type}

/-- The events that are pushed before the first `close()`. -/
def published : List (StreamItem E) → List E
  | [] => []
  | .close :: _ => []
  | .push event :: rest => event :: published rest
  | _ :: rest => published rest

/-- The results of the `next()` calls, in the order in which they are given. -/
def answers (history : List (StreamItem E)) : List (IteratorResult E) :=
  history.filterMap fun item =>
    match item with
    | .answered _ result => some result
    | _ => none

def isClose : StreamItem E → Bool
  | .close => true
  | _ => false

def isDetached : StreamItem E → Bool
  | .detached => true
  | _ => false

def isCalled : StreamItem E → Bool
  | .called _ => true
  | _ => false

end History

end EphemeralAgent.Streams
