import EphemeralAgent.Lib.Coalesce
import EphemeralAgent.Lib.History
import EphemeralAgent.Lib.Transition
import EphemeralAgent.Notification.Inbox

/-!
# What the inbox keeps

Over any order of publishes, drains and waits: the drains cut the publishes into epochs, and an epoch
is drained with the last entry of each key in the place of the first.

* `Inbox.step` — one call of the inbox
* `epochs` — the entries that are published between two drains
* `inbox_coalesces` — **nothing is lost but what a later publish of its key supersedes**
-/

namespace EphemeralAgent.Notification

open Lib

/-- A call of the inbox, or the abort of a waiter's signal. -/
inductive InboxLabel where
  | publish (message : String) (key : Option String)
  | drain
  | waitForNext (aborted : Bool) (waker : Nat)
  | abort (waker : Nat)
  deriving DecidableEq, Repr

/-- What a call shows: a publish, the waiters that it resolves; a drain, the messages. -/
inductive InboxItem where
  | published (entry : InboxEntry) (resolved : List Nat)
  | drained (messages : List String)
  | waiting (waker : Nat)
  /-- `waitForNext` has resolved at once. -/
  | passed (waker : Nat)
  | aborted (waker : Nat)
  deriving DecidableEq, Repr

/-- One call; every `waitForNext` has a waker of its own. -/
def Inbox.step (inbox : Inbox) : InboxLabel → Option (Inbox × List InboxItem)
  | .publish message key =>
    let next := inbox.publish message key
    some (next.1, [.published { message, key } next.2])
  | .drain =>
    let next := inbox.drain
    some (next.1, [.drained next.2])
  | .waitForNext aborted waker =>
    if waker ∈ inbox.wakers then none
    else
      let next := inbox.waitForNext aborted waker
      some (next.1, [if next.2 then .passed waker else .waiting waker])
  | .abort waker => some (inbox.abortWaker waker, [.aborted waker])

/-! ## Reading a history -/

/-- The drained epochs, and the current one. -/
structure Epochs where
  closed : List (List InboxEntry)
  current : List InboxEntry

/-- A publish belongs to the current epoch, and a drain closes it. -/
def Epochs.add (e : Epochs) : InboxItem → Epochs
  | .published entry _ => { e with current := e.current ++ [entry] }
  | .drained _ => { closed := e.closed ++ [e.current], current := [] }
  | _ => e

def epochs (history : List InboxItem) : Epochs :=
  history.foldl Epochs.add { closed := [], current := [] }

/-- All epochs, in order. -/
def Epochs.all (e : Epochs) : List (List InboxEntry) :=
  e.closed ++ [e.current]

/-- What has been published. -/
def publishes (history : List InboxItem) : List InboxEntry :=
  history.filterMap fun item =>
    match item with
    | .published entry _ => some entry
    | _ => none

/-- What each drain has returned. -/
def drains (history : List InboxItem) : List (List String) :=
  history.filterMap fun item =>
    match item with
    | .drained messages => some messages
    | _ => none

/-- The waiters after an item: those that have registered and have not been resolved. -/
def addWaiter (waiters : List Nat) : InboxItem → List Nat
  | .published .. => []
  | .waiting waker => waiters ++ [waker]
  | .aborted waker => waiters.filter (· != waker)
  | _ => waiters

def waiters (history : List InboxItem) : List Nat :=
  history.foldl addWaiter []

/-- The last entry of each key, in the place of the first. -/
def kept (epoch : List InboxEntry) : List InboxEntry :=
  coalesce (·.key) epoch

/-! ## One call -/

theorem epochs_snoc (history : List InboxItem) (item : InboxItem) :
    epochs (history ++ [item]) = (epochs history).add item := by
  rw [epochs, List.foldl_append]
  rfl

theorem waiters_snoc (history : List InboxItem) (item : InboxItem) :
    waiters (history ++ [item]) = addWaiter (waiters history) item := by
  rw [waiters, List.foldl_append]
  rfl

/-- **A publish coalesces.** -/
theorem publish_entries {inbox : Inbox} {epoch : List InboxEntry} (h : inbox.entries = kept epoch)
    (message : String) (key : Option String) :
    (inbox.publish message key).1.entries = kept (epoch ++ [⟨message, key⟩]) := by
  let entry : InboxEntry := ⟨message, key⟩
  have htest : ∀ k, key = some k → (fun candidate : InboxEntry => candidate.key == some k) =
      sameKey (·.key) entry := by
    rintro k rfl
    funext candidate
    exact Bool.beq_comm
  unfold Inbox.publish
  dsimp only
  cases hindex : inbox.pendingIndex key with
  | some index =>
    obtain ⟨k, hk, hfound⟩ := Option.bind_eq_some_iff.mp hindex
    rw [htest k hk, h] at hfound
    dsimp only
    rw [h]
    exact (coalesce_replace hfound).symm
  | none =>
    have hnone : epoch.any (sameKey (·.key) entry) = false := by
      rw [← any_coalesce]
      cases hk : key with
      | none => simp [sameKey, entry, hk]
      | some k =>
        rw [hk] at hindex
        have hmissing := List.findIdx?_eq_none_iff.mp (Option.bind_eq_none_iff.mp hindex k rfl)
        rw [h] at hmissing
        rw [← htest k hk]
        exact List.any_eq_false.mpr fun x hx => Bool.eq_false_iff.mp (hmissing x hx)
    dsimp only
    rw [h]
    exact (coalesce_append hnone).symm

/-- What the inbox holds, by what has happened to it. -/
structure Holds (inbox : Inbox) (history : List InboxItem) : Prop where
  entries : inbox.entries = kept (epochs history).current
  drained : drains history = (epochs history).closed.map fun epoch => (kept epoch).map (·.message)
  published : publishes history = (epochs history).all.flatten
  wakers : inbox.wakers = waiters history
  /-- Every publish resolves the waiters there are. -/
  resolved : Chronicle (fun before item => ∀ entry resolved, item = .published entry resolved →
    resolved = waiters before) history

theorem holds_initial : Holds .initial [] where
  entries := rfl
  drained := rfl
  published := rfl
  wakers := rfl
  resolved := .nil

theorem drains_snoc (history : List InboxItem) (item : InboxItem) :
    drains (history ++ [item]) = drains history ++ drains [item] := List.filterMap_append

theorem publishes_snoc (history : List InboxItem) (item : InboxItem) :
    publishes (history ++ [item]) = publishes history ++ publishes [item] := List.filterMap_append

/-- An item that is neither a publish nor a drain. -/
theorem Holds.quiet {inbox inbox' : Inbox} {history : List InboxItem} {item : InboxItem}
    (h : Holds inbox history) (hentries : inbox'.entries = inbox.entries)
    (hwakers : inbox'.wakers = addWaiter inbox.wakers item)
    (hitem : (epochs history).add item = epochs history) (hdrains : drains [item] = [])
    (hpublishes : publishes [item] = [])
    (hnot : ∀ entry resolved, item ≠ .published entry resolved) :
    Holds inbox' (history ++ [item]) where
  entries := by
    rw [epochs_snoc, hitem, hentries]
    exact h.entries
  drained := by
    rw [epochs_snoc, hitem, drains_snoc, hdrains, List.append_nil]
    exact h.drained
  published := by
    rw [epochs_snoc, hitem, publishes_snoc, hpublishes, List.append_nil]
    exact h.published
  wakers := by
    rw [waiters_snoc, hwakers, h.wakers]
  resolved := h.resolved.snoc fun entry resolved heq => absurd heq (hnot entry resolved)

/-- **One call.** -/
theorem holds_step {inbox : Inbox} {history : List InboxItem} {label : InboxLabel}
    {next : Inbox × List InboxItem} (h : Holds inbox history) (hstep : inbox.step label = some next) :
    Holds next.1 (history ++ next.2) := by
  cases label with
  | publish message key =>
    cases hstep
    have hwoken : (inbox.publish message key).2 = waiters history := h.wakers
    refine ⟨?_, ?_, ?_, ?_, ?_⟩
    · rw [epochs_snoc]
      exact publish_entries h.entries message key
    · rw [epochs_snoc, drains_snoc]
      exact (List.append_nil _).trans h.drained
    · rw [epochs_snoc, publishes_snoc, h.published]
      simp [Epochs.all, Epochs.add, publishes]
    · rw [waiters_snoc]
      rfl
    · refine h.resolved.snoc fun entry resolved heq => ?_
      cases heq
      exact hwoken
  | drain =>
    cases hstep
    refine ⟨?_, ?_, ?_, ?_, ?_⟩
    · rw [epochs_snoc]
      rfl
    · rw [epochs_snoc, drains_snoc, h.drained]
      simp [Epochs.add, drains, Inbox.drain, h.entries]
    · rw [epochs_snoc, publishes_snoc, h.published]
      simp [Epochs.all, Epochs.add, publishes]
    · rw [waiters_snoc]
      exact h.wakers
    · exact h.resolved.snoc fun entry resolved heq => absurd heq nofun
  | waitForNext aborted waker =>
    simp only [Inbox.step] at hstep
    split at hstep
    · cases hstep
    · cases hstep
      unfold Inbox.waitForNext
      by_cases hready : inbox.entries ≠ [] ∨ aborted = true
      · rw [if_pos hready]
        exact h.quiet rfl rfl rfl rfl rfl nofun
      · rw [if_neg hready]
        exact h.quiet rfl rfl rfl rfl rfl nofun
  | abort waker =>
    cases hstep
    exact h.quiet rfl rfl rfl rfl rfl nofun

/-! ## Every run -/

/-- **What the inbox makes of its publishes.** -/
structure Coalesces (inbox : Inbox) (history : List InboxItem) : Prop where
  /-- One pending entry for each key, at most. -/
  pending : (inbox.entries.filterMap (·.key)).Nodup
  /-- The drains and the pending queue, epoch by epoch. -/
  output : drains history ++ [inbox.entries.map (·.message)] =
    (epochs history).all.map fun epoch => (kept epoch).map (·.message)
  published : publishes history = (epochs history).all.flatten
  /-- Every publish without a key, once and in order. -/
  unkeyed : ((epochs history).all.flatMap kept).filter (fun entry => entry.key.isNone) =
    (publishes history).filter fun entry => entry.key.isNone
  /-- Nothing that has not been published. -/
  only : (epochs history).all.flatMap kept ⊆ publishes history
  /-- Of the publishes with a key the last before each drain, once. -/
  keyed : ∀ epoch ∈ (epochs history).all, ∀ key,
    (kept epoch).filter (fun entry => entry.key == some key) =
      (epoch.filter fun entry => entry.key == some key).getLast?.toList
  /-- It stands where the first of them stood. -/
  place : ∀ epoch ∈ (epochs history).all,
    (kept epoch).map (·.key) = (slots (·.key) epoch).map (·.key)
  /-- Every publish resolves all that wait, whether it appends or replaces. -/
  resolved : Chronicle (fun before item => ∀ entry resolved, item = .published entry resolved →
    resolved = waiters before) history

theorem Holds.coalesces {inbox : Inbox} {history : List InboxItem} (h : Holds inbox history) :
    Coalesces inbox history where
  pending := by
    rw [h.entries]
    exact nodup_keys_coalesce _
  output := by
    rw [h.drained, h.entries, Epochs.all, List.map_append, List.map_singleton]
  published := h.published
  unkeyed := by
    rw [h.published, List.filter_flatten, List.filter_flatMap, List.flatMap]
    exact congrArg List.flatten (List.map_congr_left fun epoch _ => filter_unkeyed_coalesce epoch)
  only := by
    rw [h.published]
    intro entry hentry
    obtain ⟨epoch, hepoch, hmem⟩ := List.mem_flatMap.mp hentry
    exact List.mem_flatten.mpr ⟨epoch, hepoch, coalesce_subset epoch hmem⟩
  keyed := fun epoch _ key => filter_key_coalesce epoch key
  place := fun epoch _ => map_key_coalesce epoch
  resolved := h.resolved

/-- **The inbox loses nothing but superseded entries, and resolves every waiter at a publish.** -/
theorem inbox_coalesces {labels : List InboxLabel} {r : Recorded Inbox InboxItem}
    (run : Run (Recorded.step Inbox.step) Free ⟨.initial, []⟩ labels r) :
    Coalesces r.state r.history := by
  refine Holds.coalesces (run.invariant (I := fun r => Holds r.state r.history) holds_initial ?_)
  intro r label r' _ hr hstep
  obtain ⟨state, items, hstate, rfl⟩ := Recorded.step_cases hstep
  exact holds_step hr hstate

/-- A keyed entry is superseded before it is drained, and another one after. -/
theorem inbox_coalesces_replaced :
    ∃ r : Recorded Inbox InboxItem, drains r.history = [["b", "plain"]] ∧
      r.state.entries = [⟨"c", some "k"⟩] ∧ Coalesces r.state r.history := by
  obtain ⟨r, run, hr⟩ := exists_run (Recorded.step Inbox.step) Free ⟨.initial, []⟩
    [.waitForNext false 0, .publish "a" (some "k"), .publish "plain" none, .publish "b" (some "k"),
      .drain, .publish "c" (some "k")]
    (fun r => decide (drains r.history = [["b", "plain"]] ∧ r.state.entries = [⟨"c", some "k"⟩]))
    (by decide +kernel)
  obtain ⟨hdrains, hentries⟩ := of_decide_eq_true hr
  exact ⟨r, hdrains, hentries, inbox_coalesces run⟩

end EphemeralAgent.Notification
