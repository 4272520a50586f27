import EphemeralAgent.Pursuit.Runs
import EphemeralAgent.Pursuit.Tickets
import EphemeralAgent.Workflow.Timed

/-!
# One node for each plan and each work item

As long as no launch fails while dispatches of the same list are still to be launched, the
runtime launches at most one node for each plan and for each work item.  A launch that fails
earlier settles its node and dispatches anew, beside the rest of the old list, which is then
launched a second time.

* `Unrepeated` — tickets of launched nodes and of dispatches still to be launched are distinct
* `one_launch_per_target` — so no plan and no work item gets two nodes
* `launched_twice` — the launch of the first of two items fails
-/

namespace EphemeralAgent.Pursuit

open EphemeralAgent.Lib EphemeralAgent.Workflow

/-! ## Tickets of a run -/

/-- The dispatches of the queue's thread that are still to be launched. -/
def pendingDispatches (s : WorkflowRunInstance PursuitFields) : List (Option JsonObject) :=
  ((s.frames .queue).flatMap (·.remaining)).map (·.metadata)

/-- The tickets of the nodes that were launched, and of those that are about to be. -/
def issuedTickets (s : WorkflowRunInstance PursuitFields) : List Ticket :=
  ticketsOf (s.labels.map (·.2) ++ pendingDispatches s)

/-- The tickets of the nodes that run, and of those that are about to be launched. -/
def runningTickets (s : WorkflowRunInstance PursuitFields) : List Ticket :=
  ticketsOf (s.runningLabels ++ pendingDispatches s)

/-- `start()` awaits the launch of a node that runs. -/
def StartWaits (s : WorkflowRunInstance PursuitFields) (index : Nat) : Prop :=
  s.statusOf index = some .running ∧
    ∃ remaining outer, s.frames .start = { awaiting := some index, remaining } :: outer

/-- The pursuit is done, or its ledger accounts for the tickets. -/
def Accounted (host : Host) (clock : Stamp) (issued running : List Ticket) (noPlan : Prop)
    (state : PursuitState) : Prop :=
  state.isWorkflowDone = true ∨ ∃ closed leg earlier current,
    Open state closed leg earlier current ∧ Ledger host clock leg current issued running ∧
      (noPlan → current.plan.status ≠ .success)

/-- **Tickets are distinct**, and only the innermost call of the queue has something left to
launch. -/
structure Unrepeated (host : Host) (s : WorkflowRunInstance PursuitFields) : Prop where
  unique : (issuedTickets s).Nodup
  outer : ∀ flow frame outer, s.frames flow = frame :: outer → ∀ below ∈ outer,
    below.awaiting = none ∧ below.remaining = []
  start : ∀ frame ∈ s.frames .start, frame.remaining = []
  bound : ∀ index remaining outer, s.frames .start = { awaiting := some index, remaining } :: outer →
    index < s.nodes.length
  alone : ∀ index, StartWaits s index →
    s.frames .queue = [] ∧ ∀ other, s.statusOf other = some .running → other = index
  state : ∀ state, s.state = some state →
    Accounted host s.clock (issuedTickets s) (runningTickets s) (∃ index, StartWaits s index) state

/-- A launch fails only when it is the last of its list. -/
def RejectsLast (s : WorkflowRunInstance PursuitFields) : Label → Prop
  | .launchRejected flow _ => (s.frames flow).head?.all (·.remaining.isEmpty) = true
  | _ => True

instance (s : WorkflowRunInstance PursuitFields) (l : Label) : Decidable (RejectsLast s l) := by
  cases l <;> unfold RejectsLast <;> infer_instance

section Step

variable {host : Host} {definition : WorkflowDefinition} {args : JsonObject}
  {toJsonObject : PursuitState → Except String Json} {s t u v : WorkflowRunInstance PursuitFields}
  {clock clock' : Stamp} {issued running : List Ticket} {noPlan noPlan' : Prop}

theorem Accounted.mono {state : PursuitState} (h : Accounted host clock issued running noPlan state)
    (hle : clock ≤ clock') (hplan : noPlan' → noPlan) :
    Accounted host clock' issued running noPlan' state := by
  rcases h with hdone | ⟨closed, leg, earlier, current, hopen, hledger, hnone⟩
  · exact .inl hdone
  · exact .inr ⟨closed, leg, earlier, current, hopen, hledger.later hle, fun h => hnone (hplan h)⟩

theorem accounted_created (hhost : host.Random) (stamp : Stamp) (parsed : PursuitArgs)
    (hlt : stamp < clock) :
    Accounted host clock [] [] True (createInitialState host stamp parsed) := by
  have hopen : Open (createInitialState host stamp parsed) []
      ((createInitialState host stamp parsed).ext.legs.head (by simp [createInitialState])) []
      (createAttempt host stamp 2 1 1) :=
    ⟨rfl, by simp, createLeg_open .., rfl⟩
  have hrecorded : ∀ ticket ∈ ([] : List Ticket), Issued host stamp
      ((createInitialState host stamp parsed).ext.legs.head (by simp [createInitialState])) ticket :=
    by simp
  exact .inr ⟨_, _, _, _, hopen, .create hhost hrecorded (Nat.le_refl stamp) hlt 1 _,
    fun _ hsuccess => by cases hsuccess⟩

/-- Dispatches that are dropped were for tickets of their own. -/
theorem Accounted.drop {labels runningLabels pending pending' : List (Option JsonObject)}
    {state : PursuitState}
    (h : Accounted host clock (ticketsOf (labels ++ pending)) (ticketsOf (runningLabels ++ pending))
      noPlan state)
    (hunique : (ticketsOf (labels ++ pending)).Nodup) (hsub : pending'.Sublist pending) :
    Accounted host clock (ticketsOf (labels ++ pending')) (ticketsOf (runningLabels ++ pending'))
      noPlan state := by
  rcases h with hdone | ⟨closed, leg, earlier, current, hopen, hledger, hplan⟩
  · exact .inl hdone
  · refine .inr ⟨closed, leg, earlier, current, hopen, ?_, hplan⟩
    rw [ticketsOf_append] at hunique hledger
    rw [ticketsOf_append runningLabels] at hledger
    rw [ticketsOf_append, ticketsOf_append]
    have htickets : (ticketsOf pending').Sublist (ticketsOf pending) := hsub.filterMap ticketOf
    have hissued := htickets.append_left (ticketsOf labels)
    refine ⟨hledger.legId, hledger.planId, hledger.keyed,
      fun ticket hticket => hledger.recorded ticket (hissued.subset hticket),
      fun ticket hticket hwaits => ?_⟩
    rcases List.mem_append.mp (hledger.covered ticket (hissued.subset hticket) hwaits) with
      hmem | hmem
    · exact List.mem_append_left _ hmem
    · rcases List.mem_append.mp hticket with hlabel | hpending
      · exact absurd hmem (List.disjoint_of_nodup_append hunique hlabel)
      · exact List.mem_append_right _ hpending

/-- What the code after a snapshot leaves to launch. -/
def leftOf : Except Fault (Option Frame) → List WorkflowNodeDispatch
  | .ok (some frame) => frame.remaining
  | _ => []

/-- **The code after a snapshot launches new tickets only.** -/
theorem ended_unrepeated {state : PursuitState} {r : Except Fault (Option Frame)}
    (h : Ended (pursuitRequest host definition args toJsonObject) state v r u)
    (hstate : v.state = some state) (hunique : (ticketsOf (v.labels.map (·.2))).Nodup)
    (haccounted : Accounted host clock (ticketsOf (v.labels.map (·.2))) (ticketsOf v.runningLabels)
      noPlan state) :
    (ticketsOf (u.labels.map (·.2) ++ (leftOf r).map (·.metadata))).Nodup ∧
      (noPlan → leftOf r = []) ∧
      ∀ next, u.state = some next → Accounted host clock
        (ticketsOf (u.labels.map (·.2) ++ (leftOf r).map (·.metadata)))
        (ticketsOf (u.runningLabels ++ (leftOf r).map (·.metadata))) noPlan next := by
  have hnothing : (r = .ok none ∨ ∃ fault, r = .error fault) → leftOf r = [] := by
    rintro (rfl | ⟨fault, rfl⟩) <;> rfl
  cases h with
  | quiet hs hnodes hr =>
    rw [hnothing hr, List.map_nil, List.append_nil, List.append_nil, labels_of_nodes hnodes,
      runningLabels_of_nodes hnodes]
    refine ⟨hunique, fun _ => rfl, fun next hnext => ?_⟩
    rw [hs, hstate, Option.some.injEq] at hnext
    exact hnext ▸ haccounted
  | deadlocked hdone hidle stamp runtime hruntime hdispatch report hs hnodes hr =>
    rw [hnothing hr, List.map_nil, List.append_nil, List.append_nil, labels_of_nodes hnodes]
    refine ⟨hunique, fun _ => rfl, fun next hnext => .inl ?_⟩
    rw [hs, Option.some.injEq] at hnext
    exact hnext ▸ rfl
  | launched hdone stamp runtime hruntime first rest hdispatch startedAt hs hnodes hr =>
    rcases haccounted with hd | ⟨closed, leg, earlier, current, hopen, hledger, hplan⟩
    · rw [hdone] at hd
      cases hd
    · obtain rfl := hr
      have hlist : dispatch host definition state runtime = first :: rest :=
        Except.ok.inj hdispatch
      obtain ⟨hnodup, hledger', hlength⟩ := hledger.dispatch hopen hunique definition
        (by rw [hruntime]; rfl)
      rw [hlist, List.map_cons, ← ticketsOf_append] at hnodup hledger'
      rw [hlist] at hlength
      rw [← ticketsOf_append] at hledger'
      -- the first dispatch is launched, the others stay pending: together the same list
      have hlabels : u.labels.map (·.2) ++ rest.map (·.metadata) =
          v.labels.map (·.2) ++ first.metadata :: rest.map (·.metadata) := by
        rw [labels_launched hnodes]
        simp
      have hrunning : u.runningLabels ++ rest.map (·.metadata) =
          v.runningLabels ++ first.metadata :: rest.map (·.metadata) := by
        rw [runningLabels_launched hnodes rfl]
        simp
      refine ⟨?_, fun hnone => ?_, fun next hnext => ?_⟩
      · rw [leftOf, hlabels]
        exact hnodup
      · have hle := hlength (hplan hnone)
        rw [List.length_cons] at hle
        -- without a plan there is at most one dispatch
        have hzero : rest.length = 0 := by omega
        exact List.eq_nil_of_length_eq_zero hzero
      · rw [hs, hstate, Option.some.injEq] at hnext
        rw [leftOf, hlabels, hrunning]
        exact .inr ⟨closed, leg, earlier, current, hnext ▸ hopen, hledger', hplan⟩

/-- The code after a snapshot launches one node at most, and awaits it. -/
theorem Ended.grows {c : WorkflowStartRequest PursuitFields} {state : PursuitState}
    {r : Except Fault (Option Frame)} (h : Ended c state v r u) :
    u.nodes = v.nodes ∧ (r = .ok none ∨ ∃ fault, r = .error fault) ∨
      ∃ entry rest, u.nodes = v.nodes ++ [entry] ∧
        r = .ok (some { awaiting := some v.nodes.length, remaining := rest }) := by
  cases h with
  | quiet _ hnodes hr => exact .inl ⟨hnodes, hr⟩
  | deadlocked _ _ _ _ _ _ _ _ hnodes hr => exact .inl ⟨hnodes, hr⟩
  | launched _ _ _ _ first rest _ startedAt _ hnodes hr => exact .inr ⟨_, rest, hnodes, hr⟩

/-! ## Control, launches and interrupts -/

theorem pending_of_left (h : FramesLeft (s.frames .queue) (t.frames .queue)) :
    (pendingDispatches t).Sublist (pendingDispatches s) := by
  unfold pendingDispatches
  refine List.Sublist.map _ ?_
  generalize s.frames .queue = frames at h
  generalize t.frames .queue = frames' at h
  cases h with
  | same => exact List.Sublist.refl _
  | dropped => exact List.nil_sublist _
  | resolved => exact List.Sublist.refl _
  | popped outer => exact List.Sublist.refl _

theorem unrepeated_initial (host : Host) : Unrepeated host initial := by
  refine ⟨List.nodup_nil, fun flow frame outer h => ?_, fun frame h => (by cases h),
    fun index remaining outer h => (by cases h), fun index h => ?_, fun state h => (by cases h)⟩
  · cases flow <;> cases h
  · cases h.1

theorem Unrepeated.control {faults : List Fault} (h : Unrepeated host s) (hclock : s.clock ≤ t.clock)
    (ht : Control faults s t) (hframes : ∀ flow, FramesLeft (s.frames flow) (t.frames flow)) :
    Unrepeated host t := by
  have hlabels := ht.labels
  have hlength : t.nodes.length = s.nodes.length := by
    have := congrArg List.length hlabels
    simpa [WorkflowRunInstance.labels] using this
  have hsub := pending_of_left (hframes .queue)
  -- `start()` only resumes or leaves calls, so it awaits no node that it did not await before
  have hwaits : ∀ index, StartWaits t index → StartWaits s index := by
    rintro index ⟨hstatus, remaining, outer, hstart⟩
    refine ⟨(ht.statusOf index) ▸ hstatus, ?_⟩
    have hleft := hframes .start
    rw [hstart] at hleft
    generalize hs : s.frames .start = frames at hleft
    cases hleft with
    | same => exact ⟨remaining, outer, rfl⟩
    | popped =>
      have hbelow := h.outer .start _ _ hs _ List.mem_cons_self
      cases hbelow.1
  refine ⟨?_, fun flow frame outer hflow below hbelow => ?_, fun frame hframe => ?_,
    fun index remaining outer hstart => ?_, fun index hindex => ?_, fun state hstate => ?_⟩
  · unfold issuedTickets
    rw [hlabels]
    exact h.unique.sublist ((hsub.append_left _).filterMap ticketOf)
  · have hleft := hframes flow
    rw [hflow] at hleft
    generalize hs : s.frames flow = frames at hleft
    cases hleft with
    | same => exact h.outer flow _ _ hs below hbelow
    | resolved => exact h.outer flow _ _ hs below hbelow
    | popped => exact h.outer flow _ _ hs below (List.mem_cons_of_mem _ hbelow)
  · have hleft := hframes .start
    have hnone : ∀ frame ∈ s.frames .start, ∀ next ∈ frame.remaining, False := by
      intro frame hframe next hnext
      rw [h.start frame hframe] at hnext
      cases hnext
    exact List.eq_nil_iff_forall_not_mem.mpr (framesLeft_remaining hleft hnone frame hframe)
  · rw [hlength]
    have hleft := hframes .start
    rw [hstart] at hleft
    generalize hs : s.frames .start = frames at hleft
    cases hleft with
    | same => exact h.bound index remaining outer hs
    | popped =>
      have hbelow := h.outer .start _ _ hs _ List.mem_cons_self
      cases hbelow.1
  · obtain ⟨hqueue, hother⟩ := h.alone index (hwaits index hindex)
    refine ⟨?_, fun other hrunning => hother other ((ht.statusOf other) ▸ hrunning)⟩
    have hleft := hframes .queue
    rw [hqueue] at hleft
    generalize t.frames .queue = frames at hleft
    cases hleft <;> rfl
  · have haccounted := (h.state state (ht.state ▸ hstate)).drop h.unique hsub
    unfold issuedTickets runningTickets
    rw [hlabels, ht.runningLabels]
    exact haccounted.mono hclock fun h => h.imp hwaits

theorem Unrepeated.launched (h : Unrepeated host s) (hclock : s.clock ≤ t.clock) {flow : FlowId}
    {next : WorkflowNodeDispatch} {rest : List WorkflowNodeDispatch} {outer : List Frame}
    (hframes : s.frames flow = { awaiting := none, remaining := next :: rest } :: outer)
    {startedAt : Stamp} {clock : Stamp} {history : List (HistoryItem PursuitFields)}
    (ht : Control []
      { s with
        clock
        nodes := s.nodes ++
          [{ start := next.start, metadata := next.metadata, status := .running, startedAt }]
        history } t)
    (hcall : FramesTo flow ({ awaiting := some s.nodes.length, remaining := rest } :: outer) s t) :
    Unrepeated host t := by
  cases flow with
  | start =>
    -- `start()` has launched its only node in its call
    have hnil := h.start _ (hframes ▸ List.mem_cons_self)
    cases hnil
  | queue =>
    have hstart : t.frames .start = s.frames .start := hcall.2 .start (by simp)
    have hlabels : t.labels.map (·.2) = s.labels.map (·.2) ++ [next.metadata] := by
      rw [ht.labels]
      simp [WorkflowRunInstance.labels]
    have hrunning : t.runningLabels = s.runningLabels ++ [next.metadata] := by
      rw [ht.runningLabels, runningLabels_eq, runningLabels_eq, List.filter_append, List.map_append]
      rfl
    -- the ticket of the dispatch moves from the pending ones to the labels
    have hpending : pendingDispatches s = next.metadata :: pendingDispatches t := by
      unfold pendingDispatches
      rw [hframes, hcall.1]
      rfl
    have hissued : issuedTickets t = issuedTickets s := by
      unfold issuedTickets
      rw [hlabels, hpending, List.append_assoc, List.singleton_append]
    have hrunningTickets : runningTickets t = runningTickets s := by
      unfold runningTickets
      rw [hrunning, hpending, List.append_assoc, List.singleton_append]
    have hlength : s.nodes.length ≤ t.nodes.length := by
      have := congrArg List.length ht.nodes
      simp only [List.length_map, List.length_append] at this
      omega
    -- `start()` cannot wait beside a queue that is at work
    have hno : ∀ index, ¬ StartWaits t index := by
      rintro index ⟨hstatus, remaining, outer', hwaits⟩
      rw [hstart] at hwaits
      have hlt := h.bound index remaining outer' hwaits
      rw [ht.statusOf] at hstatus
      have hs : StartWaits s index := by
        refine ⟨?_, remaining, outer', hwaits⟩
        unfold WorkflowRunInstance.statusOf at hstatus ⊢
        rwa [List.getElem?_append_left hlt] at hstatus
      have hqueue := (h.alone index hs).1
      rw [hframes] at hqueue
      cases hqueue
    refine ⟨hissued ▸ h.unique, fun flow frame outer' hflow below hbelow => ?_,
      fun frame hframe => h.start frame (hstart ▸ hframe), fun index remaining outer' hwaits => ?_,
      fun index hindex => absurd hindex (hno index), fun state hstate => ?_⟩
    · cases flow with
      | start => exact h.outer .start frame outer' (hstart ▸ hflow) below hbelow
      | queue =>
        rw [hcall.1] at hflow
        obtain ⟨-, rfl⟩ := List.cons.inj hflow
        exact h.outer .queue _ _ hframes below hbelow
    · exact Nat.lt_of_lt_of_le (h.bound index remaining outer' (hstart ▸ hwaits)) hlength
    · rw [hissued, hrunningTickets]
      refine (h.state state ?_).mono hclock fun h => h.elim fun index hindex => absurd hindex (hno index)
      rw [ht.state] at hstate
      exact hstate

theorem Unrepeated.interrupted (h : Unrepeated host s)
    (hlabels : t.labels = s.labels) (hdone : ∀ state, t.state = some state →
      state.isWorkflowDone = true)
    (hreturned : s.startFlow = .returned) (hcall : FramesTo .queue [] s t) : Unrepeated host t := by
  have hstart : t.frames .start = [] := by
    rw [hcall.2 .start (by simp), WorkflowRunInstance.frames, hreturned]
  refine ⟨?_, fun flow frame outer hflow => ?_, fun frame hframe => ?_,
    fun index remaining outer hwaits => ?_, fun index hindex => ?_,
    fun state hstate => .inl (hdone state hstate)⟩
  · have hsub : (pendingDispatches t).Sublist (pendingDispatches s) := by
      unfold pendingDispatches
      rw [hcall.1]
      exact List.nil_sublist _
    unfold issuedTickets
    rw [hlabels]
    exact h.unique.sublist ((hsub.append_left _).filterMap ticketOf)
  · cases flow with
    | start =>
      rw [hstart] at hflow
      cases hflow
    | queue =>
      rw [hcall.1] at hflow
      cases hflow
  · rw [hstart] at hframe
    cases hframe
  · rw [hstart] at hwaits
    cases hwaits
  · obtain ⟨-, remaining, outer, hwaits⟩ := hindex
    rw [hstart] at hwaits
    cases hwaits

/-! ## Starting -/

/-- The call of a thread has nothing in its outer frames. -/
theorem outer_of_call {flow : FlowId} {outer : List Frame} {r : Except Fault (Option Frame)}
    (hs : ∀ flow frame outer, s.frames flow = frame :: outer → ∀ below ∈ outer,
      below.awaiting = none ∧ below.remaining = [])
    (houter : ∀ below ∈ outer, below.awaiting = none ∧ below.remaining = [])
    (hcall : FramesTo flow (callFrames r outer) s t) :
    ∀ flow frame outer, t.frames flow = frame :: outer → ∀ below ∈ outer,
      below.awaiting = none ∧ below.remaining = [] := by
  intro other frame rest hother below hbelow
  by_cases heq : other = flow
  · subst heq
    rw [hcall.1] at hother
    rcases r with fault | _ | top
    · cases hother
    · refine houter below ?_
      rw [show outer = frame :: rest from hother]
      exact List.mem_cons_of_mem _ hbelow
    · obtain ⟨-, rfl⟩ := List.cons.inj hother
      exact houter below hbelow
  · exact hs other frame rest ((hcall.2 other heq) ▸ hother) below hbelow

theorem flatMap_remaining_eq_nil {frames : List Frame}
    (h : ∀ frame ∈ frames, frame.remaining = []) : frames.flatMap (·.remaining) = [] :=
  List.flatMap_eq_nil_iff.mpr h

theorem callFrames_remaining {r : Except Fault (Option Frame)} {outer : List Frame}
    (houter : ∀ below ∈ outer, below.awaiting = none ∧ below.remaining = []) :
    (callFrames r outer).flatMap (·.remaining) = leftOf r := by
  have hnil := flatMap_remaining_eq_nil fun frame hframe => (houter frame hframe).2
  rcases r with fault | _ | top
  · rfl
  · exact hnil
  · show top.remaining ++ outer.flatMap (·.remaining) = _
    rw [hnil, List.append_nil]
    rfl

/-- What the call of `start()` leaves: it awaits the node that it has launched, if any. -/
theorem start_of_call {r : Except Fault (Option Frame)} {outer : List Frame}
    (houter : ∀ below ∈ outer, below.awaiting = none ∧ below.remaining = [])
    (hgrows : u.nodes = v.nodes ∧ (r = .ok none ∨ ∃ fault, r = .error fault) ∨
      ∃ entry rest, u.nodes = v.nodes ++ [entry] ∧
        r = .ok (some { awaiting := some v.nodes.length, remaining := rest }))
    {index : Nat} {remaining : List WorkflowNodeDispatch} {rest : List Frame}
    (h : callFrames r outer = { awaiting := some index, remaining } :: rest) :
    index = v.nodes.length ∧ ∃ entry, u.nodes = v.nodes ++ [entry] := by
  rcases hgrows with ⟨-, rfl | ⟨fault, rfl⟩⟩ | ⟨entry, left, hnodes, rfl⟩
  · have hbelow := houter { awaiting := some index, remaining } (by
      rw [show outer = _ from h]
      exact List.mem_cons_self)
    cases hbelow.1
  · cases h
  · obtain ⟨hframe, -⟩ := List.cons.inj h
    cases hframe
    exact ⟨rfl, entry, hnodes⟩

/-- **A thread has called the code after a snapshot**, and nothing else was left to launch. -/
theorem unrepeated_of_call {flow : FlowId} {outer : List Frame} {r : Except Fault (Option Frame)}
    {state : PursuitState} {faults : List Fault} (h : Unrepeated host s)
    (hended : Ended (pursuitRequest host definition args toJsonObject) state v r u)
    (hv : v.state = some state) (hlabels : v.labels = s.labels) (hpending : pendingDispatches s = [])
    (houter : ∀ below ∈ outer, below.awaiting = none ∧ below.remaining = [])
    (ht : Control faults u t) (hcall : FramesTo flow (callFrames r outer) s t)
    (haccounted : Accounted host t.clock (ticketsOf (v.labels.map (·.2)))
      (ticketsOf v.runningLabels) (flow = .start) state)
    (hstart : flow = .start →
      s.frames .queue = [] ∧ ∀ index, v.statusOf index ≠ some .running)
    (hqueue : flow = .queue → ∀ index, StartWaits s index → v.statusOf index ≠ some .running)
    (hstatus : ∀ index, v.statusOf index = some .running → s.statusOf index = some .running) :
    Unrepeated host t := by
  have hgrows := Ended.grows hended
  have hlength : v.nodes.length = s.nodes.length := by
    have := congrArg List.length hlabels
    simpa [WorkflowRunInstance.labels] using this
  have htlength : s.nodes.length ≤ t.nodes.length ∧ u.nodes.length ≤ t.nodes.length := by
    have hcontrol := congrArg List.length ht.nodes
    simp only [List.length_map] at hcontrol
    rcases hgrows with ⟨hnodes, -⟩ | ⟨entry, left, hnodes, -⟩ <;>
      simp only [hnodes, List.length_append] at hcontrol ⊢ <;> omega
  have hvunique : (ticketsOf (v.labels.map (·.2))).Nodup := by
    have hunique := h.unique
    unfold issuedTickets at hunique
    rwa [hpending, List.append_nil, ← hlabels] at hunique
  obtain ⟨hnodup, hleft, hnext⟩ := ended_unrepeated hended hv hvunique haccounted
  -- what is pending now is what the call has left
  have hnow : pendingDispatches t = (leftOf r).map (·.metadata) := by
    unfold pendingDispatches
    cases flow with
    | start =>
      rw [hcall.2 .queue (by simp), (hstart rfl).1, hleft rfl]
      rfl
    | queue => rw [hcall.1, callFrames_remaining houter]
  have hissued : issuedTickets t =
      ticketsOf (u.labels.map (·.2) ++ (leftOf r).map (·.metadata)) := by
    unfold issuedTickets
    rw [ht.labels, hnow]
  have hrunning : runningTickets t =
      ticketsOf (u.runningLabels ++ (leftOf r).map (·.metadata)) := by
    unfold runningTickets
    rw [ht.runningLabels, hnow]
  have hold : ∀ index < v.nodes.length, u.statusOf index = v.statusOf index := by
    intro index hlt
    unfold WorkflowRunInstance.statusOf
    rcases hgrows with ⟨hnodes, -⟩ | ⟨entry, left, hnodes, -⟩
    · rw [hnodes]
    · rw [hnodes, List.getElem?_append_left hlt]
  have hflow : ∀ index, StartWaits t index → flow = .start ∧ index = v.nodes.length ∧
      ∃ entry, u.nodes = v.nodes ++ [entry] := by
    rintro index ⟨hwaits, remaining, rest, hframes⟩
    cases flow with
    | start =>
      rw [hcall.1] at hframes
      exact ⟨rfl, start_of_call houter hgrows hframes⟩
    | queue =>
      exfalso
      rw [hcall.2 .start (by simp)] at hframes
      have hlt : index < v.nodes.length := hlength ▸ h.bound index remaining rest hframes
      rw [ht.statusOf, hold index hlt] at hwaits
      exact hqueue rfl index ⟨hstatus index hwaits, remaining, rest, hframes⟩ hwaits
  refine ⟨hissued ▸ hnodup, outer_of_call h.outer houter hcall, fun frame hframe => ?_,
    fun index remaining rest hframes => ?_, fun index hindex => ?_, fun next hstate => ?_⟩
  · cases flow with
    | start =>
      rw [hcall.1] at hframe
      have hnil := hleft rfl
      rw [← callFrames_remaining houter, List.flatMap_eq_nil_iff] at hnil
      exact hnil frame hframe
    | queue => exact h.start frame ((hcall.2 .start (by simp)) ▸ hframe)
  · cases flow with
    | start =>
      rw [hcall.1] at hframes
      obtain ⟨rfl, entry, hnodes⟩ := start_of_call houter hgrows hframes
      have := congrArg List.length hnodes
      rw [List.length_append, List.length_singleton] at this
      omega
    | queue =>
      have := h.bound index remaining rest ((hcall.2 .start (by simp)) ▸ hframes)
      omega
  · obtain ⟨rfl, rfl, entry, hnodes⟩ := hflow index hindex
    refine ⟨(hcall.2 .queue (by simp)).trans (hstart rfl).1, fun other hother => ?_⟩
    rw [ht.statusOf] at hother
    rcases Nat.lt_trichotomy other v.nodes.length with hlt | heq | hgt
    · rw [hold other hlt] at hother
      exact absurd hother ((hstart rfl).2 other)
    · exact heq
    · unfold WorkflowRunInstance.statusOf at hother
      rw [List.getElem?_eq_none (by rw [hnodes]; simp; omega)] at hother
      cases hother
  · rw [hissued, hrunning]
    refine (hnext next (ht.state ▸ hstate)).mono (Nat.le_refl _) ?_
    rintro ⟨index, hindex⟩
    exact (hflow index hindex).1

theorem unrepeated_started (hhost : host.Random) {r : Except Fault (Option Frame)}
    (hu : Started (pursuitRequest host definition args toJsonObject) initial r u)
    (hclock : 0 < t.clock) (ht : Control (faultsOf r) u t)
    (hcall : FramesTo .start (callFrames r []) initial t) : Unrepeated host t := by
  cases hu with
  | threw message clock =>
    refine (unrepeated_initial host).control (Nat.zero_le _)
      ((control_fields [] none .idle clock []).trans ht) fun flow => ?_
    exact hcall.left (.same _) flow
  | created state hcreate clock events _ _ hu =>
    obtain ⟨parsed, -, rfl⟩ := created_of_ok hcreate
    refine unrepeated_of_call (unrepeated_initial host) hu.ended rfl rfl rfl (by simp) ht hcall
      ((accounted_created hhost 0 parsed hclock).mono (Nat.le_refl _) fun _ => trivial)
      (fun _ => ⟨rfl, fun index hrunning => ?_⟩) (fun hflow => ?_) fun index hrunning => hrunning
    · cases hrunning
    · cases hflow

/-! ## Settlements -/

/-- Only a node that did not complete is settled by a launch that failed. -/
theorem status_of_rejected {flow : FlowId} {reason : String} {sh : Shown PursuitFields}
    (h : shown s (.launchRejected flow reason) = some sh) : sh.settlement.status ≠ .completed := by
  simp only [shown] at h
  split at h
  · obtain ⟨entry, -, hsh⟩ := Option.bind_eq_some_iff.mp h
    unfold shownSettlement at hsh
    split at hsh
    · cases hsh
    · next hnot =>
      obtain rfl := Option.some.inj hsh
      exact fun hcompleted => hnot (.inl hcompleted)
  · cases h

/-- Closing the entry of a settlement keeps every other ticket that runs. -/
theorem running_of_closed {sh : Shown PursuitFields} (hin : ShownIn s sh)
    {entry : WorkflowNodeRunEntry} (hentry : s.nodes[sh.entry]? = some entry) {ticket : Ticket}
    (hticket : ticket ∈ ticketsOf s.runningLabels) (hne : ticketOf entry.metadata ≠ some ticket) :
    ticket ∈ ticketsOf sh.closed.runningLabels := by
  obtain ⟨metadata, hmem, hof⟩ := List.mem_filterMap.mp hticket
  rw [runningLabels_eq] at hmem
  obtain ⟨other, hother, rfl⟩ := List.mem_map.mp hmem
  obtain ⟨hother, hrunning⟩ := List.mem_filter.mp hother
  obtain ⟨index, hindex⟩ := List.getElem?_of_mem hother
  have hindexNe : index ≠ sh.entry := by
    rintro rfl
    obtain rfl := Option.some.inj (hentry.symm.trans hindex)
    exact hne hof
  refine List.mem_filterMap.mpr ⟨other.metadata, ?_, hof⟩
  rw [runningLabels_eq]
  refine List.mem_map_of_mem (List.mem_filter.mpr ⟨?_, hrunning⟩)
  obtain ⟨clock, events, close, hclosed, -⟩ := hin.closed
  rw [hclosed]
  refine List.mem_of_getElem? (i := index) ?_
  simp [hindex, Ne.symm hindexNe]

theorem statusOf_closed {sh : Shown PursuitFields} (hin : ShownIn s sh) {index : Nat}
    (h : sh.closed.statusOf index = some .running) :
    index ≠ sh.entry ∧ s.statusOf index = some .running := by
  obtain ⟨clock, events, close, hclosed, hclose⟩ := hin.closed
  unfold WorkflowRunInstance.statusOf at h ⊢
  rw [hclosed, List.getElem?_modify] at h
  obtain ⟨entry, hentry, hstatus⟩ := Option.map_eq_some_iff.mp h
  obtain ⟨old, hold, rfl⟩ := Option.map_eq_some_iff.mp hentry
  rw [hold]
  by_cases heq : sh.entry = index
  · rw [if_pos heq] at hstatus
    exact absurd ((hclose old).1.symm.trans hstatus) hin.closes
  · rw [if_neg heq] at hstatus
    exact ⟨Ne.symm heq, congrArg some hstatus⟩

/-- When a settlement is shown nothing is left to launch. -/
theorem Unrepeated.calls (h : Unrepeated host s) {l : Label} (hok : RejectsLast s l)
    {sh : Shown PursuitFields} {flow : FlowId} {outer : List Frame} (hcalls : Calls s sh l flow outer)
    (hrunning : s.statusOf sh.entry = some .running) :
    pendingDispatches s = [] ∧ (∀ below ∈ outer, below.awaiting = none ∧ below.remaining = []) ∧
      (flow = .start → StartWaits s sh.entry) := by
  cases hcalls with
  | queued hactive =>
    refine ⟨?_, by simp, fun hflow => by cases hflow⟩
    unfold pendingDispatches WorkflowRunInstance.frames
    rw [hactive]
    rfl
  | rejected _ reason remaining outer hframes =>
    have hnil : remaining = [] := by
      unfold RejectsLast at hok
      simpa [hframes] using hok
    subst hnil
    have houter := h.outer flow _ _ hframes
    refine ⟨?_, fun below hbelow => ?_, fun hflow => ?_⟩
    · unfold pendingDispatches
      cases flow with
      | start =>
        rw [(h.alone sh.entry ⟨hrunning, [], outer, hframes⟩).1]
        rfl
      | queue =>
        rw [hframes, List.flatMap_cons, List.nil_append,
          flatMap_remaining_eq_nil fun frame hframe => (houter frame hframe).2]
        rfl
    · rcases List.mem_cons.mp hbelow with rfl | hbelow
      · exact ⟨rfl, rfl⟩
      · exact houter below hbelow
    · subst hflow
      exact ⟨hrunning, [], outer, hframes⟩

theorem Unrepeated.settled (hhost : host.Random) (hserved : Served host s) (h : Unrepeated host s)
    {l : Label} (hok : RejectsLast s l) (hstamped : Stamped t)
    {sh : Shown PursuitFields} (hshown : shown s l = some sh) {state : PursuitState}
    (hstate : s.state = some state)
    (hvalid : validateNodeSettlement host state sh.settlement = .ok .ok)
    {r : Except Fault (Option Frame)}
    (hu : Applied (pursuitRequest host definition args toJsonObject) sh.entry sh.settlement state
      sh.closed r u)
    (ht : Control (faultsOf r) u t) {flow : FlowId} {outer : List Frame}
    (hcalls : Calls s sh l flow outer) (hcall : FramesTo flow (callFrames r outer) s t) :
    Unrepeated host t := by
  obtain ⟨queue, hin⟩ := shownIn_of_shown hshown
  obtain ⟨entry, target, hentry, hrunning, hfor, hmetadata, -⟩ := settlement_of_shown hserved hshown
  have hstatus : s.statusOf sh.entry = some .running := by
    unfold WorkflowRunInstance.statusOf
    rw [hentry, Option.map_some, hrunning]
  obtain ⟨hpending, houter, hwaits⟩ := h.calls hok hcalls hstatus
  rcases h.state state hstate with hdone | ⟨closed, leg, earlier, current, hopen, hledger, hplan⟩
  · unfold validateNodeSettlement at hvalid
    rw [if_pos hdone] at hvalid
    cases hvalid
  obtain ⟨applied, stamp, runtime, v, happly, hstamp, hruntime, hnodes, -, hhistory, hv, hended⟩ :=
    evaluated_of_applied hserved hshown hopen hvalid hu
  obtain ⟨metadata, leg', earlier', current', hmetadata', hsettled, hlegs, hnotDone⟩ :=
    settled_of_apply hopen hvalid happly
  obtain rfl : target = metadata := Option.some.inj (hmetadata.symm.trans hmetadata')
  -- the evaluation has a stamp between the clocks before and after the step
  have hle : s.clock ≤ stamp := by
    rw [hstamp]
    exact Nat.le_trans (shown_clock hshown) (evaluating_clock _ _ _)
  have hlt : stamp < t.clock := hstamped _ (ht.extends.mem hhistory) stamp rfl
  have hticket : ticketOf entry.metadata = some target.ticket := by
    rw [show entry.metadata = some target.toJson from hfor.metadata, ticketOf_toJson]
  have hlabels : v.labels = s.labels := (labels_of_nodes hnodes).trans hin.labels
  have hvrunning : v.runningLabels = sh.closed.runningLabels := runningLabels_of_nodes hnodes
  have hissued : issuedTickets s = ticketsOf (v.labels.map (·.2)) := by
    unfold issuedTickets
    rw [hpending, List.append_nil, hlabels]
  have hrun : runningTickets s = ticketsOf s.runningLabels := by
    unfold runningTickets
    rw [hpending, List.append_nil]
  rw [hissued, hrun] at hledger
  have hsettle : Ledger host s.clock leg' current' (ticketsOf (v.labels.map (·.2)))
      (ticketsOf v.runningLabels) := by
    refine hledger.settle hhost hopen.leg hsettled fun ticket hmem hne => ?_
    rw [hvrunning]
    refine running_of_closed hin hentry hmem ?_
    rw [hticket]
    exact fun heq => hne (Option.some.inj heq).symm
  have hopen' : Open applied.state closed leg' earlier' current' :=
    ⟨hlegs, hopen.closed, hsettled.open hopen.leg, hnotDone⟩
  have haccounted := hsettle.evaluate hhost (evaluated_of_evaluate host stamp hopen' runtime) hle hlt
  have hvstatus : ∀ index, v.statusOf index = sh.closed.statusOf index := by
    intro index
    unfold WorkflowRunInstance.statusOf
    rw [hnodes]
  refine unrepeated_of_call h hended hv hlabels hpending houter ht hcall ?_ (fun hflow => ?_)
    (fun _ index hindex hvrun => ?_) fun index hvrun => ?_
  · rcases haccounted with hdone | ⟨closed', leg'', earlier'', current'', hopen'', hledger'', hkeep⟩
    · exact .inl hdone
    · refine .inr ⟨closed', leg'', earlier'', current'', hopen'', hledger'', fun hflow => hkeep ?_⟩
      cases hcalls with
      | queued => cases hflow
      | rejected _ reason remaining outer hframes =>
        exact hsettled.plan_ne_success (status_of_rejected hshown) (hplan ⟨_, hwaits hflow⟩)
  · obtain ⟨hqueue, hothers⟩ := h.alone sh.entry (hwaits hflow)
    refine ⟨hqueue, fun index hvrun => ?_⟩
    obtain ⟨hne, hrun⟩ := statusOf_closed hin ((hvstatus index) ▸ hvrun)
    exact hne (hothers index hrun)
  · obtain ⟨hne, -⟩ := statusOf_closed hin ((hvstatus index) ▸ hvrun)
    exact hne ((h.alone index hindex).2 sh.entry hstatus).symm
  · exact (statusOf_closed hin ((hvstatus index) ▸ hvrun)).2

/-! ## Every run -/

theorem unrepeated_step (hhost : host.Random) {l : Label} (hok : RejectsLast s l)
    (hwell : WellStarted s) (hthreads : Threads s) (hstamped : Stamped s) (hserved : Served host s)
    (h : Unrepeated host s)
    (hstep : step (pursuitRequest host definition args toJsonObject) s l = some t) :
    Unrepeated host t := by
  obtain ⟨hclock, hstampedStep⟩ := later_step hstep
  cases stepped_of_step hwell hstep with
  | control faults hfaults ht hframes => exact h.control hclock ht hframes
  | started hidle r u _ hu ht hcall =>
    obtain rfl := hthreads.idle hidle
    exact unrepeated_started hhost hu (clock_lt_start hstep) ht hcall
  | launched flow next rest outer hframes clock startedAt ht hcall =>
    exact h.launched hclock hframes ht hcall
  | settled sh hshown state hstate hverdict r u _ hu ht flow outer hcalls hcall =>
    exact h.settled hhost hserved hok (hstampedStep hstamped) hshown hstate hverdict hu ht
      hcalls hcall
  | interrupted reason running hactive state hstate r u _ hu ht hcall =>
    obtain ⟨hstate', hlabels, -⟩ := hu.view
    refine h.interrupted (ht.labels.trans hlabels) (fun next hnext => ?_)
      (hthreads.interrupting reason running hactive).1 hcall
    rw [ht.state, hstate', Option.some.injEq] at hnext
    exact hnext ▸ rfl

/-- A ticket is a plan id or a work item key, and both can be read back. -/
def Ticket.planId? : Ticket → Option String
  | .plan id => some id
  | .item _ => none

def Ticket.key? : Ticket → Option String
  | .plan _ => none
  | .item key => some key

theorem planIdOf_eq (metadata : Option JsonObject) :
    planIdOf metadata = (ticketOf metadata).bind Ticket.planId? := by
  unfold ticketOf
  cases planIdOf metadata with
  | some id => rfl
  | none => cases workItemKeyOf metadata <;> rfl

theorem workItemKeyOf_eq (metadata : Option JsonObject) :
    workItemKeyOf metadata = (ticketOf metadata).bind Ticket.key? := by
  unfold ticketOf
  cases hplan : planIdOf metadata with
  | none => cases workItemKeyOf metadata <;> rfl
  | some id =>
    -- a node has one role
    show workItemKeyOf metadata = none
    cases metadata with
    | none => rfl
    | some object =>
      have hplanner : Json.stringField object "role" = some "planner" := by
        by_contra hne
        simp [planIdOf, hne] at hplan
      simp [workItemKeyOf, hplanner]

theorem filterMap_ticket_nodup {α : Type} (read : Ticket → Option α)
    (hread : ∀ ticket ticket' a, read ticket = some a → read ticket' = some a → ticket = ticket')
    {metadata : List (Option JsonObject)} (h : (ticketsOf metadata).Nodup) :
    (metadata.filterMap fun m => (ticketOf m).bind read).Nodup := by
  rw [← List.filterMap_filterMap]
  exact h.filterMap fun ticket ticket' a ha ha' => hread ticket ticket' a ha ha'

end Step

/-- **At most one node is launched for each plan id and for each work item key**, in every run in
which a launch fails only as the last of its list. -/
theorem one_launch_per_target (host : Host) (hhost : host.Random) (definition : WorkflowDefinition)
    (args : JsonObject) (toJsonObject : PursuitState → Except String Json) {ls : List Label}
    {s : WorkflowRunInstance PursuitFields}
    (run : Run (step (pursuitRequest host definition args toJsonObject)) RejectsLast initial ls s) :
    (s.labels.filterMap fun label => planIdOf label.2).Nodup ∧
      (s.labels.filterMap fun label => workItemKeyOf label.2).Nodup := by
  have hinvariant : Served host s ∧ Unrepeated host s :=
    run.invariant_of (I := fun s => Served host s ∧ Unrepeated host s)
      (J := fun s => WellStarted s ∧ Threads s ∧ Stamped s)
      (fun run => ⟨wellStarted_of_run run, threads_of_run run, stamped_of_run run⟩)
      ⟨served_initial host, unrepeated_initial host⟩
      fun _ _ _ hok hJ hI hstep => ⟨served_step hJ.1 hI.1 hstep,
        unrepeated_step hhost hok hJ.1 hJ.2.1 hJ.2.2 hI.1 hI.2 hstep⟩
  have hlabels : (ticketsOf (s.labels.map (·.2))).Nodup := by
    have hunique := hinvariant.2.unique
    unfold issuedTickets at hunique
    rw [ticketsOf_append] at hunique
    exact hunique.of_append_left
  have hplans := filterMap_ticket_nodup Ticket.planId? (by
    rintro (id | key) (id' | key') a ha ha' <;> simp_all [Ticket.planId?]) hlabels
  have hkeys := filterMap_ticket_nodup Ticket.key? (by
    rintro (id | key) (id' | key') a ha ha' <;> simp_all [Ticket.key?]) hlabels
  rw [List.filterMap_map] at hplans hkeys
  simp only [← planIdOf_eq, ← workItemKeyOf_eq] at hplans hkeys
  exact ⟨hplans, hkeys⟩

/-- Identifiers that spell their stamp and their index are as `randomUUID` promises. -/
theorem spellingHost_random : spellingHost.Random := by
  constructor
  · intro stamp stamp' index index' h
    have hchars : List.replicate stamp 'a' ++ 'b' :: List.replicate index 'c' =
        List.replicate stamp' 'a' ++ 'b' :: List.replicate index' 'c' :=
      String.ofList_injective h
    obtain ⟨hstamp, hindex⟩ := append_separator_inj (by simp) (by simp) hchars
    have hstamp := congrArg List.length hstamp
    have hindex := congrArg List.length hindex
    rw [List.length_replicate, List.length_replicate] at hstamp hindex
    exact ⟨hstamp, hindex⟩
  · intro stamp index
    simp [spellingHost]

/-- The outcome of a planner that asks for two items, which depend on nothing. -/
def twoItems : Json :=
  .obj
    [("summary", .str "two items"),
      ("work_items", .arr
        [.obj
          [("id", .str "a"), ("agent_name", .str "worker"), ("title", .str "A"),
            ("spec", .str "do a")],
        .obj
          [("id", .str "b"), ("agent_name", .str "worker"), ("title", .str "B"),
            ("spec", .str "do b")]])]

/-- A pursuit with both roles bound. -/
def boundRequest : WorkflowStartRequest PursuitFields :=
  pursuitRequest spellingHost boundDefinition [("pursuit_goal", .str "ship")] fun _ => .ok .null

/-- The planner submits two items; both are launched. -/
def twoLaunches : List Label :=
  [.start, .launchResolved .start, .resume .start, .submit 0 twoItems, .dequeue,
    .launchResolved .queue, .resume .queue]

theorem one_launch_per_target_pair :
    ∃ s, Run (step boundRequest) RejectsLast initial twoLaunches s ∧
      (s.labels.filterMap fun label => workItemKeyOf label.2).length = 2 ∧
      (s.labels.filterMap fun label => planIdOf label.2).Nodup ∧
      (s.labels.filterMap fun label => workItemKeyOf label.2).Nodup := by
  obtain ⟨s, hs, hp⟩ := exists_run (step boundRequest) RejectsLast initial twoLaunches
    (fun s => (s.labels.filterMap fun label => workItemKeyOf label.2).length = 2)
    (by decide +kernel)
  exact ⟨s, hs, of_decide_eq_true hp,
    one_launch_per_target spellingHost spellingHost_random boundDefinition _ _ hs⟩

/-- The launch of the first item fails while the second is still to be launched: the second is
launched by the nested dispatch and again by the loop that was going on. -/
theorem launched_twice :
    ∃ s, Run (step boundRequest) Free initial
        [.start, .launchResolved .start, .resume .start, .submit 0 twoItems, .dequeue,
          .launchRejected .queue "no capacity", .launchResolved .queue, .resume .queue,
          .resume .queue] s ∧
      ¬ (s.labels.filterMap fun label => workItemKeyOf label.2).Nodup := by
  obtain ⟨s, hs, hp⟩ := exists_run (step boundRequest) Free initial
    [.start, .launchResolved .start, .resume .start, .submit 0 twoItems, .dequeue,
      .launchRejected .queue "no capacity", .launchResolved .queue, .resume .queue, .resume .queue]
    (fun s => ¬ (s.labels.filterMap fun label => workItemKeyOf label.2).Nodup) (by decide +kernel)
  exact ⟨s, hs, of_decide_eq_true hp⟩

end EphemeralAgent.Pursuit
