import EphemeralAgent.Contracts.Message

/-!
# The notification inbox

`src/agents/notification/inbox.ts`: a mailbox of host-published strings, drained by the loop one
priority below the steers.
-/

namespace EphemeralAgent.Notification

structure InboxEntry where
  message : String
  key : Option String
  deriving DecidableEq, Repr

/-- `NotificationInbox`; a waker is the number of the park that has registered it. -/
structure Inbox where
  entries : List InboxEntry
  wakers : List Nat

namespace Inbox

def initial : Inbox :=
  { entries := [], wakers := [] }

/-- The entry that a keyed publish replaces: the first pending one with its key. -/
def pendingIndex (inbox : Inbox) (key : Option String) : Option Nat :=
  key.bind fun key => inbox.entries.findIdx? fun candidate => candidate.key == some key

/-- `publish(message, opts)`, with the wakers that it calls. -/
def publish (inbox : Inbox) (message : String) (key : Option String) : Inbox × List Nat :=
  let entry : InboxEntry := { message, key }
  let entries :=
    match inbox.pendingIndex key with
    | some index => inbox.entries.set index entry
    | none => inbox.entries ++ [entry]
  ({ entries, wakers := [] }, inbox.wakers)

/-- `drain()`. -/
def drain (inbox : Inbox) : Inbox × List String :=
  ({ inbox with entries := [] }, inbox.entries.map (·.message))

/-- `isEmpty()`: the gates' `inbox drained`. -/
def isEmpty (inbox : Inbox) : Bool :=
  inbox.entries.isEmpty

/-- `count()`. -/
def count (inbox : Inbox) : Nat :=
  inbox.entries.length

/-- `waitForNext(signal)`: register this waker, or resolve at once. -/
def waitForNext (inbox : Inbox) (aborted : Bool) (waker : Nat) : Inbox × Bool :=
  if inbox.entries ≠ [] ∨ aborted then (inbox, true)
  else ({ inbox with wakers := inbox.wakers ++ [waker] }, false)

/-- The signal of this waker aborts. -/
def abortWaker (inbox : Inbox) (waker : Nat) : Inbox :=
  { inbox with wakers := inbox.wakers.filter (· != waker) }

end Inbox

/-- `systemNotificationMessage(payload)`, with `JSON.stringify` as it prints the payload. -/
def systemNotificationMessage (stringify : Json → String) (payload : JsonObject) : UserMessage :=
  let json := (stringify (.obj payload)).replace "<" "\\u003c"
  ⟨userText s!"<system_notification>{json}</system_notification>", rfl⟩

end EphemeralAgent.Notification
