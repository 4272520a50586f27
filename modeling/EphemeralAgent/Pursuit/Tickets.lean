import EphemeralAgent.Pursuit.Deadlock

/-!
# Tickets

A node is launched for a ticket: the id of a plan or the key of a work item.  A ticket that has
been issued stays apart from every ticket that can still be asked for, because ids are minted
under new stamps and a planner may not reuse an item id within a leg-goal version.

* `Ledger` — what is known of the tickets issued so far while a pursuit is open
* `Ledger.settle`, `Ledger.evaluate` — accepted settlements and evaluations keep it
* `Ledger.dispatch` — `dispatch` asks for new tickets only
-/

namespace EphemeralAgent.Pursuit

open EphemeralAgent.Lib EphemeralAgent.Workflow

/-! ## Tickets -/

/-- What a node is launched for. -/
inductive Ticket where
  | plan (id : String)
  | item (key : String)
  deriving DecidableEq

/-- The id of the plan that a node is for. -/
def planIdOf (metadata : Option JsonObject) : Option String := do
  let metadata ← metadata
  if Json.stringField metadata "role" = some "planner" then Json.stringField metadata "plan_id"
  else none

/-- The ticket of a node. -/
def ticketOf (metadata : Option JsonObject) : Option Ticket :=
  match planIdOf metadata with
  | some id => some (.plan id)
  | none => (workItemKeyOf metadata).map .item

def PursuitNodeMetadata.ticket : PursuitNodeMetadata → Ticket
  | .planner _ _ planId _ => .plan planId
  | .worker _ _ _ workItemKey _ => .item workItemKey

@[simp] theorem ticketOf_toJson (target : PursuitNodeMetadata) :
    ticketOf (some target.toJson) = some target.ticket := by
  cases target <;>
    simp [ticketOf, planIdOf, workItemKeyOf, PursuitNodeMetadata.toJson, Json.stringField,
      Json.field, Json.asString, List.lookup_cons, PursuitNodeMetadata.ticket]

theorem planIdOf_of_ticketOf {metadata : Option JsonObject} {id : String}
    (h : ticketOf metadata = some (.plan id)) : planIdOf metadata = some id := by
  unfold ticketOf at h
  cases hplan : planIdOf metadata with
  | some other =>
    rw [hplan] at h
    cases h
    rfl
  | none =>
    rw [hplan] at h
    obtain ⟨key, -, hkey⟩ := Option.map_eq_some_iff.mp h
    cases hkey

theorem workItemKeyOf_of_ticketOf {metadata : Option JsonObject} {key : String}
    (h : ticketOf metadata = some (.item key)) : workItemKeyOf metadata = some key := by
  unfold ticketOf at h
  cases hplan : planIdOf metadata with
  | some other =>
    rw [hplan] at h
    cases h
  | none =>
    rw [hplan] at h
    obtain ⟨other, hother, hkey⟩ := Option.map_eq_some_iff.mp h
    cases hkey
    exact hother

/-- The tickets of these nodes. -/
def ticketsOf (metadata : List (Option JsonObject)) : List Ticket :=
  metadata.filterMap ticketOf

theorem ticketsOf_append (xs ys : List (Option JsonObject)) :
    ticketsOf (xs ++ ys) = ticketsOf xs ++ ticketsOf ys :=
  List.filterMap_append

theorem mem_plans {runtime : RuntimeSnapshot} {id : String}
    (h : .plan id ∈ ticketsOf (runtime.runningNodes.map (·.metadata))) :
    id ∈ (runningMetadata runtime).plans := by
  obtain ⟨metadata, hmem, hticket⟩ := List.mem_filterMap.mp h
  obtain ⟨node, hnode, rfl⟩ := List.mem_map.mp hmem
  exact List.mem_filterMap.mpr ⟨node, hnode, planIdOf_of_ticketOf hticket⟩

theorem mem_workItems {runtime : RuntimeSnapshot} {key : String}
    (h : .item key ∈ ticketsOf (runtime.runningNodes.map (·.metadata))) :
    key ∈ (runningMetadata runtime).workItems := by
  obtain ⟨metadata, hmem, hticket⟩ := List.mem_filterMap.mp h
  obtain ⟨node, hnode, rfl⟩ := List.mem_map.mp hmem
  exact List.mem_filterMap.mpr ⟨node, hnode, workItemKeyOf_of_ticketOf hticket⟩

/-- The attempt still needs a node for the ticket. -/
inductive Ticket.Waits (current : Attempt) : Ticket → Prop
  | plan (hplan : current.plan.status = .notStarted) : Waits current (.plan current.plan.id)
  | item (item : WorkItem) (hitem : item ∈ current.workItems) (hwaits : item.waits = true) :
      Waits current (.item item.key)

/-! ## Identifiers -/

/-- What `randomUUID` promises: no two calls return the same identifier, and none contains a
colon. -/
structure Host.Random (host : Host) : Prop where
  distinct : ∀ {stamp stamp' index index'},
    host.randomUUID stamp index = host.randomUUID stamp' index' → stamp = stamp' ∧ index = index'
  plain : ∀ stamp index, ':' ∉ (host.randomUUID stamp index).toList

/-- The identifier was minted before the clock stood there. -/
def Minted (host : Host) (clock : Stamp) (id : String) : Prop :=
  ∃ stamp < clock, ∃ index, id = host.randomUUID stamp index

theorem Minted.mono {host : Host} {clock clock' : Stamp} {id : String} (h : Minted host clock id)
    (hle : clock ≤ clock') : Minted host clock' id := by
  obtain ⟨stamp, hlt, index, hid⟩ := h
  exact ⟨stamp, Nat.lt_of_lt_of_le hlt hle, index, hid⟩

/-- A later stamp mints other identifiers. -/
theorem Minted.ne {host : Host} (hhost : host.Random) {clock stamp : Stamp} {id : String}
    (h : Minted host clock id) (hle : clock ≤ stamp) (index : Nat) :
    id ≠ host.randomUUID stamp index := by
  rintro rfl
  obtain ⟨stamp', hlt, index', hid⟩ := h
  obtain ⟨rfl, -⟩ := hhost.distinct hid
  exact absurd hlt (Nat.not_lt_of_le hle)

theorem Minted.plain {host : Host} (hhost : host.Random) {clock : Stamp} {id : String}
    (h : Minted host clock id) : ':' ∉ id.toList := by
  obtain ⟨stamp, -, index, rfl⟩ := h
  exact hhost.plain stamp index

/-- What stands before the first separator is determined. -/
theorem append_separator_inj {α : Type} {a : α} {xs ys xs' ys' : List α} (hxs : a ∉ xs)
    (hxs' : a ∉ xs') (h : xs ++ a :: ys = xs' ++ a :: ys') : xs = xs' ∧ ys = ys' := by
  induction xs generalizing xs' with
  | nil =>
    cases xs' with
    | nil => exact ⟨rfl, (List.cons.inj h).2⟩
    | cons b rest =>
      obtain ⟨rfl, -⟩ := List.cons.inj h
      exact absurd List.mem_cons_self hxs'
  | cons b rest ih =>
    cases xs' with
    | nil =>
      obtain ⟨rfl, -⟩ := List.cons.inj h
      exact absurd List.mem_cons_self hxs
    | cons b' rest' =>
      obtain ⟨rfl, htail⟩ := List.cons.inj h
      obtain ⟨rfl, hys⟩ := ih (fun hmem => hxs (List.mem_cons_of_mem _ hmem))
        (fun hmem => hxs' (List.mem_cons_of_mem _ hmem)) htail
      exact ⟨rfl, hys⟩

theorem colon_notMem_toString (n : Nat) : ':' ∉ (toString n).toList := by
  intro hmem
  have hrepr : (toString n).toList = Nat.toDigits 10 n := Nat.toList_repr
  rw [hrepr] at hmem
  have hdigit := Nat.isDigit_of_mem_toDigits (by decide) (by decide) hmem
  exact absurd hdigit (by decide)

theorem toString_nat_inj {m n : Nat} (h : (toString m).toList = (toString n).toList) : m = n := by
  have hm : (toString m).toList = Nat.toDigits 10 m := Nat.toList_repr
  have hn : (toString n).toList = Nat.toDigits 10 n := Nat.toList_repr
  rw [hm, hn] at h
  rw [← Nat.ofDigitChars_ten_toDigits (n := m), h, Nat.ofDigitChars_ten_toDigits]

/-- **A key tells its leg, its version and its item**, when leg ids contain no colon. -/
theorem workItemKey_inj {legId legId' : String} {version version' : Nat} {itemId itemId' : String}
    (hleg : ':' ∉ legId.toList) (hleg' : ':' ∉ legId'.toList)
    (h : workItemKey legId version itemId = workItemKey legId' version' itemId') :
    legId = legId' ∧ version = version' ∧ itemId = itemId' := by
  have hchars := congrArg String.toList h
  simp only [workItemKey, String.toList_append, List.append_assoc] at hchars
  obtain ⟨hid, hrest⟩ := append_separator_inj hleg hleg' (by exact hchars)
  obtain ⟨hversion, hitem⟩ := append_separator_inj (colon_notMem_toString version)
    (colon_notMem_toString version') (by exact hrest)
  exact ⟨String.toList_inj.mp hid, toString_nat_inj hversion, String.toList_inj.mp hitem⟩

/-! ## Keys of a leg -/

/-- The items of the attempt have the keys of the leg's current goal. -/
structure Attempt.Keyed (attempt : Attempt) (leg : Leg) : Prop where
  keys : ∀ item ∈ attempt.workItems, item.key = workItemKey leg.id leg.legGoalVersion item.id ∧
    item.legGoalVersion = leg.legGoalVersion
  nodup : (attempt.workItems.map (·.key)).Nodup
  consistent : attempt.isConsistentWithLegGoal = true

/-- The leg has an item with this id in its current goal version, or the version has passed. -/
def Leg.Used (leg : Leg) (version : Nat) (id : String) : Prop :=
  version < leg.legGoalVersion ∨ version = leg.legGoalVersion ∧
    ∃ entry ∈ allExisting leg, entry.inVersion leg = true ∧ entry.item.id = id

/-- Items that the current goal may depend on stay, whatever else happens to the leg. -/
theorem Leg.Used.mono {l m : Leg} {version : Nat} {id : String} (h : l.Used version id)
    (hversion : m.legGoalVersion = l.legGoalVersion)
    (hitems : ∀ a ∈ l.attempts, a.isConsistentWithLegGoal = true → ∀ item ∈ a.workItems,
      ∃ b ∈ m.attempts, b.isConsistentWithLegGoal = true ∧ ∃ other ∈ b.workItems,
        other.id = item.id ∧ other.legGoalVersion = item.legGoalVersion) :
    m.Used version id := by
  rcases h with hlt | ⟨heq, entry, hentry, hin, hid⟩
  · exact .inl (hversion ▸ hlt)
  · simp only [ExistingItem.inVersion, Bool.and_eq_true, beq_iff_eq] at hin
    obtain ⟨hattempt, hitem⟩ := mem_allExisting.mp hentry
    obtain ⟨b, hb, hconsistent, other, hother, hotherId, hotherVersion⟩ :=
      hitems entry.attempt hattempt hin.1 entry.item hitem
    refine .inr ⟨heq.trans hversion.symm, ⟨b, other⟩, mem_allExisting.mpr ⟨hb, hother⟩, ?_, ?_⟩
    · simp [ExistingItem.inVersion, hconsistent, hotherVersion, hin.2, hversion]
    · exact hotherId.trans hid

theorem Leg.Advances.used {l m : Leg} (h : l.Advances m) {version : Nat} {id : String}
    (hused : l.Used version id) : m.Used version id := by
  refine hused.mono h.legGoalVersion fun a ha hconsistent item hitem => ?_
  obtain ⟨b, hb, hab⟩ := exists_of_forall₂_left h.attempts ha
  obtain ⟨other, hother, hadv⟩ := exists_of_forall₂_left hab.items hitem
  refine ⟨b, hb, ?_, other, hother, hadv.id, hadv.legGoalVersion⟩
  rw [hab.eq]
  exact hconsistent

theorem map_key_of_advances {items items' : List WorkItem}
    (h : List.Forall₂ WorkItem.Advances items items') :
    items'.map (·.key) = items.map (·.key) := by
  induction h with
  | nil => rfl
  | cons hadv _ ih => rw [List.map_cons, List.map_cons, ih, hadv.key]

theorem Attempt.Keyed.advances {a b : Attempt} {l m : Leg} (h : a.Keyed l) (hab : a.Advances b)
    (hid : m.id = l.id) (hversion : m.legGoalVersion = l.legGoalVersion) : b.Keyed m := by
  refine ⟨fun other hother => ?_, ?_, ?_⟩
  · obtain ⟨item, hitem, hadv⟩ := exists_of_forall₂_right hab.items hother
    rw [hid, hversion, hadv.key, hadv.legGoalVersion, hadv.id]
    exact h.keys item hitem
  · rw [map_key_of_advances hab.items]
    exact h.nodup
  · rw [hab.eq]
    exact h.consistent

theorem Ticket.Waits.of_advances {a b : Attempt} (hab : a.Advances b) {ticket : Ticket}
    (h : ticket.Waits b) : ticket.Waits a := by
  cases h with
  | plan hplan =>
    rw [hab.plan] at hplan ⊢
    exact .plan hplan
  | item other hother hwaits =>
    obtain ⟨item, hitem, hadv⟩ := exists_of_forall₂_right hab.items hother
    rw [hadv.key]
    exact .item item hitem (hadv.waits hwaits)

/-! ## The ledger -/

/-- The ticket was minted before the clock stood there, and its leg cannot ask for it anew. -/
inductive Issued (host : Host) (clock : Stamp) (leg : Leg) : Ticket → Prop
  | plan (id : String) (hid : Minted host clock id) : Issued host clock leg (.plan id)
  | item (legId : String) (version : Nat) (itemId : String) (hid : Minted host clock legId)
      (hused : legId = leg.id → leg.Used version itemId) :
      Issued host clock leg (.item (workItemKey legId version itemId))

/-- The tickets issued so far, and those of them that nodes run for or are about to. -/
structure Ledger (host : Host) (clock : Stamp) (leg : Leg) (current : Attempt)
    (issued running : List Ticket) : Prop where
  legId : Minted host clock leg.id
  planId : Minted host clock current.plan.id
  keyed : current.Keyed leg
  recorded : ∀ ticket ∈ issued, Issued host clock leg ticket
  covered : ∀ ticket ∈ issued, ticket.Waits current → ticket ∈ running

section Ledger

variable {host : Host} {clock clock' stamp : Stamp} {state next : PursuitState} {closed : List Leg}
  {leg leg' : Leg} {earlier earlier' : List Attempt} {current current' : Attempt}
  {issued running running' : List Ticket} {ticket : Ticket}

theorem Issued.mono (h : Issued host clock leg ticket) (hle : clock ≤ clock')
    (hid : leg'.id = leg.id) (hused : ∀ version id, leg.Used version id → leg'.Used version id) :
    Issued host clock' leg' ticket := by
  cases h with
  | plan id hminted => exact .plan id (hminted.mono hle)
  | item legId version itemId hminted h =>
    exact .item legId version itemId (hminted.mono hle) fun heq => hused _ _ (h (heq.trans hid))

theorem Ledger.later (h : Ledger host clock leg current issued running) (hle : clock ≤ clock') :
    Ledger host clock' leg current issued running :=
  ⟨h.legId.mono hle, h.planId.mono hle, h.keyed,
    fun ticket hticket => (h.recorded ticket hticket).mono hle rfl fun _ _ => id, h.covered⟩

/-- Items of the open leg end. -/
theorem Ledger.advances (h : Ledger host clock leg current issued running)
    (hleg : leg.Advances leg') (hcurrent : current.Advances current') :
    Ledger host clock leg' current' issued running := by
  refine ⟨hleg.id ▸ h.legId, ?_, h.keyed.advances hcurrent hleg.id hleg.legGoalVersion,
    fun ticket hticket => ?_, fun ticket hticket hwaits => ?_⟩
  · rw [hcurrent.plan]
    exact h.planId
  · exact (h.recorded ticket hticket).mono (Nat.le_refl _) hleg.id fun _ _ => hleg.used
  · exact h.covered ticket hticket (hwaits.of_advances hcurrent)

/-! ## Settlements -/

theorem Leg.Open.workItems_nil (h : leg.Open earlier current)
    (hplan : current.plan.status ≠ .success) : current.workItems = [] := by
  rcases h.current.plan with ⟨_, hitems⟩ | ⟨_, hitems⟩ | ⟨hsuccess, _⟩
  · exact hitems
  · exact hitems
  · exact absurd hsuccess hplan

/-- The submitted plan leaves what the leg has used. -/
theorem Leg.planned_used (hattempts : leg.attempts = earlier ++ [current])
    (hitems : current.workItems = []) {payload : PlannerOutcomePayload} {version : Nat}
    {id : String} (h : leg.Used version id) :
    (leg.planned earlier current payload).Used version id := by
  have hversion : (leg.planned earlier current payload).legGoalVersion =
      if payload.legGoal.isSome then leg.legGoalVersion + 1 else leg.legGoalVersion :=
    Leg.declareGoal_legGoalVersion leg current.id payload
  by_cases hgoal : payload.legGoal.isSome = true
  · -- a new goal makes every version so far a past one
    rw [if_pos hgoal] at hversion
    left
    rcases h with hlt | ⟨heq, -⟩ <;> omega
  · rw [if_neg hgoal] at hversion
    refine h.mono hversion fun a ha hconsistent item hitem => ?_
    rw [hattempts, List.mem_append, List.mem_singleton] at ha
    rcases ha with ha | rfl
    · refine ⟨a.mark current.id payload, List.mem_append_left _ (List.mem_map_of_mem ha), ?_, item,
        hitem, rfl, rfl⟩
      unfold Attempt.mark
      rw [if_neg hgoal]
      exact hconsistent
    · rw [hitems] at hitem
      cases hitem

/-- **A submitted plan has keys that were never issued.** -/
theorem Ledger.planned (hhost : host.Random) (hleg : leg.Open earlier current)
    (h : Ledger host clock leg current issued running) (hplan : current.plan.status = .notStarted)
    {payload : PlannerOutcomePayload} (hvalid : ValidPlan leg current payload) :
    Ledger host clock (leg.planned earlier current payload)
      ((current.mark current.id payload).planSubmitted leg.id
        (leg.declareGoal current.id payload).legGoalVersion payload) issued running' := by
  have hitems : current.workItems = [] := hleg.workItems_nil (by rw [hplan]; decide)
  have hid : (leg.planned earlier current payload).id = leg.id := Leg.declareGoal_id ..
  have hnew : ((current.mark current.id payload).planSubmitted leg.id
      (leg.declareGoal current.id payload).legGoalVersion payload).workItems =
      payload.workItems.map
        (submittedItem leg.id (leg.declareGoal current.id payload).legGoalVersion) := by
    simp [Attempt.planSubmitted, Attempt.mark, hitems]
  have hplain := h.legId.plain hhost
  refine ⟨hid ▸ h.legId, h.planId, ⟨fun item hitem => ?_, ?_, ?_⟩, fun ticket hticket => ?_,
    fun ticket hticket hwaits => ?_⟩
  · rw [hnew] at hitem
    obtain ⟨spec, -, rfl⟩ := List.mem_map.mp hitem
    exact ⟨by rw [hid]; rfl, rfl⟩
  · rw [hnew, List.map_map]
    have hkeys := hvalid.nodup.map (f := workItemKey leg.id
      (leg.declareGoal current.id payload).legGoalVersion)
      fun _ _ heq => (workItemKey_inj hplain hplain heq).2.2
    rwa [PlannerOutcomePayload.ids, List.map_map] at hkeys
  · unfold Attempt.planSubmitted Attempt.mark
    simp only
    split
    · exact beq_self_eq_true _
    · exact h.keyed.consistent
  · exact (h.recorded ticket hticket).mono (Nat.le_refl _) hid fun _ _ =>
      Leg.planned_used hleg.attempts hitems
  · exfalso
    cases hwaits with
    | plan hstatus => cases hstatus
    | item item hitem hwaits =>
      rw [hnew] at hitem
      obtain ⟨spec, hspec, rfl⟩ := List.mem_map.mp hitem
      generalize hkey : Ticket.item (submittedItem leg.id _ spec).key = ticket at hticket
      cases h.recorded ticket hticket with
      | plan id hminted => cases hkey
      | item legId version itemId hminted hused =>
        obtain ⟨rfl, rfl, rfl⟩ := workItemKey_inj hplain (hminted.plain hhost)
          (Ticket.item.inj hkey)
        rw [Leg.declareGoal_legGoalVersion] at hused
        -- the key was used under this version: only if the plan repeats an id
        rcases hused rfl with hlt | ⟨heq, entry, hentry, hin, hentryId⟩
        · split at hlt <;> omega
        · split at heq
          · omega
          · next hgoal =>
            have hnone : payload.legGoal = none := by simpa using hgoal
            exact hvalid.fresh hnone spec hspec entry hentry hin hentryId

/-- **An accepted settlement keeps the ledger**, without the ticket of its node among the running
ones. -/
theorem Ledger.settle (hhost : host.Random) (hleg : leg.Open earlier current)
    (h : Ledger host clock leg current issued running) {settled : NodeRunStatus}
    {metadata : PursuitNodeMetadata}
    (hsettled : Settled state leg earlier current settled metadata leg' earlier' current')
    (hrunning : ∀ ticket ∈ running, ticket ≠ metadata.ticket → ticket ∈ running') :
    Ledger host clock leg' current' issued running' := by
  cases hsettled with
  | planned planId number hplan hcompleted payload herror =>
    exact h.planned hhost hleg hplan (validPlan_of_error herror)
  | planFailed planId number hplan reason =>
    have hitems : current.workItems = [] := hleg.workItems_nil (by rw [hplan]; decide)
    refine ⟨h.legId, h.planId, ⟨h.keyed.keys, h.keyed.nodup, h.keyed.consistent⟩,
      fun ticket hticket => ?_, fun ticket hticket hwaits => ?_⟩
    · refine (h.recorded ticket hticket).mono (Nat.le_refl _) rfl fun version id hused => ?_
      refine hused.mono rfl fun a ha hconsistent item hitem => ?_
      rw [hleg.attempts, List.mem_append, List.mem_singleton] at ha
      rcases ha with ha | rfl
      · exact ⟨a, List.mem_append_left _ ha, hconsistent, item, hitem, rfl, rfl⟩
      · rw [hitems] at hitem
        cases hitem
    · exfalso
      cases hwaits with
      | plan hstatus => cases hstatus
      | item item hitem _ =>
        have hnil : (current.planFailed reason).workItems = [] := hitems
        rw [hnil] at hitem
        cases hitem
  | closed number item hfind hwaits status hstatus summary outcome =>
    have hadv := Attempt.advances_updateWorkItem hfind hwaits hstatus summary outcome
    have hledger := h.advances (hleg.advances_replace hadv) hadv
    refine ⟨hledger.legId, hledger.planId, hledger.keyed, hledger.recorded,
      fun ticket hticket hticketWaits => ?_⟩
    refine hrunning ticket (hledger.covered ticket hticket hticketWaits) ?_
    rintro rfl
    -- the only item with this key has just ended
    generalize hkey : PursuitNodeMetadata.ticket _ = ticket at hticketWaits
    cases hticketWaits with
    | plan => cases hkey
    | item other hother hotherWaits =>
      have heq := eq_of_mem_updateFirst h.keyed.nodup hfind rfl hother (Ticket.item.inj hkey).symm
      rw [heq, not_waits_of_ended hstatus] at hotherWaits
      cases hotherWaits

/-- A node that did not complete submits no plan. -/
theorem Settled.plan_ne_success {settled : NodeRunStatus} {metadata : PursuitNodeMetadata}
    (hsettled : Settled state leg earlier current settled metadata leg' earlier' current')
    (hstatus : settled ≠ .completed) (hplan : current.plan.status ≠ .success) :
    current'.plan.status ≠ .success := by
  cases hsettled with
  | planned _ _ _ hcompleted => exact absurd hcompleted hstatus
  | planFailed planId number _ reason =>
    intro hsuccess
    cases hsuccess
  | closed number item hfind hwaits status _ summary outcome => exact hplan

/-! ## Evaluations -/

/-- Nothing that was issued is for a new attempt. -/
theorem Issued.not_waits_created (hhost : host.Random) (h : Issued host clock leg ticket)
    (hle : clock ≤ stamp) {index sequence version : Nat} :
    ¬ ticket.Waits (createAttempt host stamp index sequence version) := by
  intro hwaits
  cases hwaits with
  | plan hplan =>
    cases h with
    | plan id hid => exact hid.ne hhost hle (index + 1) rfl
  | item item hitem _ => cases hitem

theorem createAttempt_keyed {index sequence version : Nat} :
    (createAttempt host stamp index sequence version).Keyed leg :=
  ⟨fun _ hitem => (by cases hitem), List.nodup_nil, rfl⟩

theorem Ledger.retry (hhost : host.Random) (h : Ledger host clock leg current issued running)
    (hattempts : leg.attempts = earlier ++ [current]) (hle : clock ≤ stamp) (hlt : stamp < clock')
    (status : PursuitEntityRunStatus) (failureReasons : List AttemptFailureReason)
    (index sequence : Nat) :
    Ledger host clock'
      { leg with
        attempts := earlier ++ [current.close status failureReasons] ++
          [createAttempt host stamp index sequence leg.legGoalVersion] }
      (createAttempt host stamp index sequence leg.legGoalVersion) issued running := by
  have hclock : clock ≤ clock' := Nat.le_of_lt (Nat.lt_of_le_of_lt hle hlt)
  refine ⟨h.legId.mono hclock, ⟨stamp, hlt, index + 1, rfl⟩, createAttempt_keyed,
    fun ticket hticket => ?_, fun ticket hticket hwaits => ?_⟩
  · refine (h.recorded ticket hticket).mono hclock rfl fun version id hused => ?_
    refine hused.mono rfl fun a ha hconsistent item hitem => ?_
    rw [hattempts, List.mem_append, List.mem_singleton] at ha
    rcases ha with ha | rfl
    · exact ⟨a, by simp [ha], hconsistent, item, hitem, rfl, rfl⟩
    · exact ⟨a.close status failureReasons, by simp, hconsistent, item, hitem, rfl, rfl⟩
  · exact absurd hwaits ((h.recorded ticket hticket).not_waits_created hhost hle)

theorem Ledger.create (hhost : host.Random)
    (hrecorded : ∀ ticket ∈ issued, Issued host clock leg ticket) (hle : clock ≤ stamp)
    (hlt : stamp < clock') (index : Nat) (input : LegInit) :
    Ledger host clock' (createLeg host stamp index input)
      (createAttempt host stamp (index + 1) 1 1) issued running := by
  refine ⟨⟨stamp, hlt, index, rfl⟩, ⟨stamp, hlt, index + 1 + 1, rfl⟩, createAttempt_keyed,
    fun ticket hticket => ?_, fun ticket hticket hwaits => ?_⟩
  · have hclock : clock ≤ clock' := Nat.le_of_lt (Nat.lt_of_le_of_lt hle hlt)
    cases hrecorded ticket hticket with
    | plan id hid => exact .plan id (hid.mono hclock)
    | item legId version itemId hid hused =>
      exact .item legId version itemId (hid.mono hclock) fun heq =>
        absurd heq (hid.ne hhost hle index)
  · exact absurd hwaits ((hrecorded ticket hticket).not_waits_created hhost hle)

/-- **An evaluation keeps the ledger.**  It does not submit plans. -/
theorem Ledger.evaluate (hhost : host.Random) (h : Ledger host clock leg current issued running)
    {now : RunningMetadata}
    (hevaluated : Evaluated host stamp now closed leg earlier current next) (hle : clock ≤ stamp)
    (hlt : stamp < clock') :
    next.isWorkflowDone = true ∨ ∃ closed' leg' earlier' current',
      Open next closed' leg' earlier' current' ∧
      Ledger host clock' leg' current' issued running ∧
      (current.plan.status ≠ .success → current'.plan.status ≠ .success) := by
  have hclock : clock ≤ clock' := Nat.le_of_lt (Nat.lt_of_le_of_lt hle hlt)
  cases hevaluated with
  | undecided leg' earlier' current' hadvances hearlier hcurrent hopen =>
    refine .inr ⟨closed, leg', earlier', current', hopen,
      (h.advances hadvances hcurrent).later hclock, fun hplan => ?_⟩
    rw [hcurrent.plan]
    exact hplan
  | decided leg' earlier' current' hadvances hearlier hcurrent hleg hdecided =>
    have hledger := h.advances hadvances hcurrent
    cases hdecided with
    | retried status failureReasons sequence hopen =>
      exact .inr ⟨_, _, _, _, hopen,
        hledger.retry hhost hleg.attempts hle hlt status failureReasons _ sequence,
        fun _ hsuccess => by cases hsuccess⟩
    | succeeded status failureReasons input hopen =>
      exact .inr ⟨_, _, _, _, hopen, .create hhost hledger.recorded hle hlt _ input,
        fun _ hsuccess => by cases hsuccess⟩
    | done hdone => exact .inl hdone

/-! ## Dispatches -/

/-- What `dispatch` asks for in an open pursuit: the plan of the current attempt, or items. -/
inductive Asked (running : RunningMetadata) (leg : Leg) (current : Attempt) :
    List (Option JsonObject) → Prop
  | nothing : Asked running leg current []
  | plan (hplan : current.plan.status = .notStarted) (hnew : current.plan.id ∉ running.plans) :
      Asked running leg current [some (plannerMetadata leg current).toJson]
  | items (hplan : current.plan.status = .success) :
      Asked running leg current ((current.workItems.filter (dispatchable running leg)).map
        fun item => some (workerMetadata leg current item).toJson)

/-- The closed legs ask for nothing. -/
theorem Open.asked (h : Open state closed leg earlier current) (host : Host)
    (definition : WorkflowDefinition) (runtime : RuntimeSnapshot) :
    Asked (runningMetadata runtime) leg current
      ((dispatch host definition state runtime).map (·.metadata)) := by
  have hlast : leg.attempts.getLast? = some current := by
    rw [h.leg.attempts, List.getLast?_append, List.getLast?_singleton, Option.some_or]
  have hclosed : closed.flatMap (dispatchLeg host (nodeBindings definition)
      (runningMetadata runtime) state) = [] := by
    rw [List.flatMap_eq_nil_iff]
    intro other hother
    unfold dispatchLeg
    rw [if_pos (h.closed other hother).status]
  unfold dispatch
  rw [if_neg (by simp [h.notDone]), h.legs, List.flatMap_append, hclosed, List.flatMap_singleton]
  unfold dispatchLeg
  rw [if_neg (by simp [h.leg.running]), hlast]
  simp only [List.nil_append]
  rw [if_neg (by simp [h.leg.current.running])]
  by_cases hplan : current.plan.status = .notStarted
  · rw [if_pos hplan]
    by_cases hrunning : (runningMetadata runtime).plans.contains current.plan.id = true
    · rw [if_pos hrunning]
      exact .nothing
    · rw [if_neg hrunning]
      cases nodeBindings definition with
      | none => exact .nothing
      | some bindings => exact .plan hplan (by simpa using hrunning)
  · rw [if_neg hplan]
    by_cases hsuccess : current.plan.status = .success
    · rw [if_neg (not_not.mpr hsuccess)]
      cases nodeBindings definition with
      | none => exact .nothing
      | some bindings =>
        simp only [List.map_map]
        exact .items hsuccess
    · rw [if_pos hsuccess]
      exact .nothing

/-- What is asked for waits, no node runs for it, and nothing is asked for twice. -/
theorem Asked.tickets {runtime : RuntimeSnapshot} {asked : List (Option JsonObject)}
    (h : Asked (runningMetadata runtime) leg current asked) (hkeyed : current.Keyed leg) :
    (ticketsOf asked).Nodup ∧ ∀ ticket ∈ ticketsOf asked, ticket.Waits current ∧
      ticket ∉ ticketsOf (runtime.runningNodes.map (·.metadata)) := by
  cases h with
  | nothing => exact ⟨List.nodup_nil, fun ticket hticket => by cases hticket⟩
  | plan hplan hnew =>
    have htickets : ticketsOf [some (plannerMetadata leg current).toJson] =
        [.plan current.plan.id] := by
      simp [ticketsOf, plannerMetadata, PursuitNodeMetadata.ticket]
    rw [htickets]
    refine ⟨List.nodup_singleton _, fun ticket hticket => ?_⟩
    obtain rfl := List.mem_singleton.mp hticket
    exact ⟨.plan hplan, fun hmem => hnew (mem_plans hmem)⟩
  | items hplan =>
    have htickets : ticketsOf ((current.workItems.filter
        (dispatchable (runningMetadata runtime) leg)).map
          fun item => some (workerMetadata leg current item).toJson) =
        ((current.workItems.filter (dispatchable (runningMetadata runtime) leg)).map
          (·.key)).map .item := by
      rw [ticketsOf, List.filterMap_map, List.map_map, ← List.filterMap_eq_map]
      congr 1
    rw [htickets]
    refine ⟨?_, fun ticket hticket => ?_⟩
    · have hkeys : ((current.workItems.filter
          (dispatchable (runningMetadata runtime) leg)).map (·.key)).Nodup :=
        hkeyed.nodup.sublist (List.filter_sublist.map _)
      exact hkeys.map fun _ _ heq => Ticket.item.inj heq
    · obtain ⟨key, hkey, rfl⟩ := List.mem_map.mp hticket
      obtain ⟨item, hitem, rfl⟩ := List.mem_map.mp hkey
      obtain ⟨hitem, hready⟩ := List.mem_filter.mp hitem
      simp only [dispatchable, Bool.and_eq_true, Bool.not_eq_true'] at hready
      refine ⟨.item item hitem hready.1.1, fun hmem => ?_⟩
      have hrunning := mem_workItems hmem
      simp [hrunning] at hready

/-- What the current attempt waits for is recorded once it is issued. -/
theorem Ledger.issued_of_waits (h : Ledger host clock leg current issued running)
    (hattempts : leg.attempts = earlier ++ [current]) (hwaits : ticket.Waits current) :
    Issued host clock leg ticket := by
  cases hwaits with
  | plan hplan => exact .plan _ h.planId
  | item item hitem hwaits =>
    obtain ⟨hkey, hversion⟩ := h.keyed.keys item hitem
    rw [hkey]
    refine .item leg.id leg.legGoalVersion item.id h.legId fun _ => .inr ⟨rfl, ⟨current, item⟩,
      mem_allExisting.mpr ⟨by simp [hattempts], hitem⟩, ?_, rfl⟩
    simp [ExistingItem.inVersion, h.keyed.consistent, hversion]

/-- **`dispatch` asks for new tickets only**, and for one at most before a plan is submitted. -/
theorem Ledger.dispatch (h : Ledger host clock leg current issued running)
    (hopen : Open state closed leg earlier current) (hissued : issued.Nodup)
    (definition : WorkflowDefinition) {runtime : RuntimeSnapshot}
    (hruntime : ticketsOf (runtime.runningNodes.map (·.metadata)) = running) :
    (issued ++ ticketsOf ((dispatch host definition state runtime).map (·.metadata))).Nodup ∧
      Ledger host clock leg current
        (issued ++ ticketsOf ((dispatch host definition state runtime).map (·.metadata)))
        (running ++ ticketsOf ((dispatch host definition state runtime).map (·.metadata))) ∧
      (current.plan.status ≠ .success → (dispatch host definition state runtime).length ≤ 1) := by
  have hasked := hopen.asked host definition runtime
  obtain ⟨hnodup, hnew⟩ := hasked.tickets h.keyed
  refine ⟨?_, ⟨h.legId, h.planId, h.keyed, fun ticket hticket => ?_,
    fun ticket hticket hwaits => ?_⟩, fun hplan => ?_⟩
  · refine List.Nodup.append hissued hnodup fun ticket hticket hasked => ?_
    obtain ⟨hwaits, hnot⟩ := hnew ticket hasked
    exact hnot (hruntime ▸ h.covered ticket hticket hwaits)
  · rcases List.mem_append.mp hticket with hticket | hticket
    · exact h.recorded ticket hticket
    · exact h.issued_of_waits hopen.leg.attempts (hnew ticket hticket).1
  · rcases List.mem_append.mp hticket with hticket | hticket
    · exact List.mem_append_left _ (h.covered ticket hticket hwaits)
    · exact List.mem_append_right _ hticket
  · rw [← List.length_map (f := (·.metadata))]
    generalize (EphemeralAgent.Pursuit.dispatch host definition state runtime).map (·.metadata) =
      asked at hasked
    cases hasked with
    | nothing => exact Nat.zero_le 1
    | plan => exact Nat.le_refl 1
    | items hsuccess => exact absurd hsuccess hplan

end Ledger

end EphemeralAgent.Pursuit
