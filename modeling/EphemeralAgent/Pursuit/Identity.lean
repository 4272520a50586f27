import EphemeralAgent.Pursuit.Once
import EphemeralAgent.Pursuit.Tracking

/-!
# Ids of legs and attempts

Legs and attempts get their ids when they are created, each call of the script under a stamp of
its own.  So every leg of a pursuit and every attempt of a leg is found by its id.

* `Dated` — ids are distinct and were minted in the past
* `dated_of_run` — in every state of every run of the workflow runtime
* `findAttempt_of_dated` — what is looked up by its ids is found
-/

namespace EphemeralAgent.Pursuit

open EphemeralAgent.Lib EphemeralAgent.Workflow

/-- The ids of the leg and of its attempts were minted before the clock stood there, and no two
attempts share theirs. -/
structure Leg.Dated (host : Host) (clock : Stamp) (leg : Leg) : Prop where
  id : Minted host clock leg.id
  attempts : ∀ id ∈ leg.attempts.map (·.id), Minted host clock id
  nodup : (leg.attempts.map (·.id)).Nodup

/-- The same for every leg of the pursuit; no two legs share their ids either. -/
structure Dated (host : Host) (clock : Stamp) (state : PursuitState) : Prop where
  legs : ∀ leg ∈ state.ext.legs, leg.Dated host clock
  nodup : (state.ext.legs.map (·.id)).Nodup

section Dated

variable {host : Host} {clock clock' stamp : Stamp} {state next : PursuitState}
  {closed : List Leg} {leg leg' : Leg} {earlier earlier' : List Attempt}
  {current current' : Attempt}

theorem Leg.Dated.mono (h : leg.Dated host clock) (hle : clock ≤ clock') :
    leg.Dated host clock' :=
  ⟨h.id.mono hle, fun id hid => (h.attempts id hid).mono hle, h.nodup⟩

theorem Dated.mono (h : Dated host clock state) (hle : clock ≤ clock') :
    Dated host clock' state :=
  ⟨fun leg hleg => (h.legs leg hleg).mono hle, h.nodup⟩

theorem Dated.of_ext (h : Dated host clock state) (hext : next.ext = state.ext) :
    Dated host clock next := by
  obtain ⟨hlegs, hnodup⟩ := h
  refine ⟨?_, ?_⟩
  · rw [hext]
    exact hlegs
  · rw [hext]
    exact hnodup

theorem Leg.Dated.of_ids (h : leg.Dated host clock) (hid : leg'.id = leg.id)
    (hids : leg'.attempts.map (·.id) = leg.attempts.map (·.id)) : leg'.Dated host clock := by
  obtain ⟨hminted, hattempts, hnodup⟩ := h
  refine ⟨?_, ?_, ?_⟩
  · rw [hid]
    exact hminted
  · rw [hids]
    exact hattempts
  · rw [hids]
    exact hnodup

/-- A new attempt has an id of its own. -/
theorem Leg.Dated.retried (hhost : host.Random) (h : leg.Dated host clock) (hle : clock ≤ stamp)
    (hlt : stamp < clock') (hid : leg'.id = leg.id) {index : Nat}
    (hids : leg'.attempts.map (·.id) =
      leg.attempts.map (·.id) ++ [host.randomUUID stamp index]) : leg'.Dated host clock' := by
  have hclock : clock ≤ clock' := Nat.le_of_lt (Nat.lt_of_le_of_lt hle hlt)
  refine ⟨hid ▸ h.id.mono hclock, ?_, ?_⟩
  · rw [hids]
    intro id hmem
    rcases List.mem_append.mp hmem with hmem | hmem
    · exact (h.attempts id hmem).mono hclock
    · exact ⟨stamp, hlt, index, List.mem_singleton.mp hmem⟩
  · rw [hids]
    refine List.Nodup.append h.nodup (List.nodup_singleton _) fun id hmem hnew => ?_
    exact (h.attempts id hmem).ne hhost hle index (List.mem_singleton.mp hnew)

theorem createLeg_dated (hlt : stamp < clock) (index : Nat) (input : LegInit) :
    (createLeg host stamp index input).Dated host clock := by
  refine ⟨⟨stamp, hlt, index, rfl⟩, fun id hid => ?_, List.nodup_singleton _⟩
  exact ⟨stamp, hlt, index + 1, List.mem_singleton.mp hid⟩

/-- Another last leg of the same id. -/
theorem Dated.replace (h : Dated host clock state) (hlegs : state.ext.legs = closed ++ [leg])
    (hnext : next.ext.legs = closed ++ [leg']) (hle : clock ≤ clock') (hid : leg'.id = leg.id)
    (hleg : leg.Dated host clock → leg'.Dated host clock') : Dated host clock' next := by
  refine ⟨fun other hother => ?_, ?_⟩
  · rw [hnext] at hother
    rcases List.mem_append.mp hother with hother | hother
    · exact (h.legs other (hlegs ▸ List.mem_append_left _ hother)).mono hle
    · obtain rfl := List.mem_singleton.mp hother
      exact hleg (h.legs leg (hlegs ▸ List.mem_append_right _ (List.mem_singleton_self _)))
  · have hnodup := h.nodup
    rw [hlegs, List.map_append] at hnodup
    rw [hnext, List.map_append, List.map_singleton, hid]
    exact hnodup

/-- One more leg, with an id of its own. -/
theorem Dated.push (hhost : host.Random) (h : Dated host clock state)
    (hlegs : state.ext.legs = closed ++ [leg]) (hle : clock ≤ stamp) (hlt : stamp < clock')
    {index : Nat} {input : LegInit}
    (hnext : next.ext.legs = closed ++ [leg'] ++ [createLeg host stamp index input])
    (hid : leg'.id = leg.id) (hids : leg'.attempts.map (·.id) = leg.attempts.map (·.id)) :
    Dated host clock' next := by
  have hclock : clock ≤ clock' := Nat.le_of_lt (Nat.lt_of_le_of_lt hle hlt)
  have hmap : (closed ++ [leg']).map (·.id) = state.ext.legs.map (·.id) := by
    rw [hlegs, List.map_append, List.map_append, List.map_singleton, List.map_singleton, hid]
  refine ⟨fun other hother => ?_, ?_⟩
  · rw [hnext, List.append_assoc] at hother
    rcases List.mem_append.mp hother with hother | hother
    · exact (h.legs other (hlegs ▸ List.mem_append_left _ hother)).mono hclock
    · rcases List.mem_cons.mp hother with rfl | hother
      · have hdated : leg.Dated host clock' :=
          (h.legs leg (hlegs ▸ List.mem_append_right _ (List.mem_singleton_self _))).mono hclock
        exact hdated.of_ids hid hids
      · obtain rfl := List.mem_singleton.mp hother
        exact createLeg_dated hlt index input
  · rw [hnext, List.map_append, hmap]
    refine List.Nodup.append h.nodup (List.nodup_singleton _) fun id hmem hnew => ?_
    obtain ⟨other, hother, rfl⟩ := List.mem_map.mp hmem
    exact (h.legs other hother).id.ne hhost hle index (List.mem_singleton.mp hnew)

/-! ## Calls -/

theorem Settled.attemptIds {settled : NodeRunStatus} {metadata : PursuitNodeMetadata}
    (h : Settled state leg earlier current settled metadata leg' earlier' current')
    (hattempts : leg.attempts = earlier ++ [current]) :
    leg'.attempts.map (·.id) = leg.attempts.map (·.id) := by
  cases h with
  | planned planId number hplan hcompleted payload herror =>
    rw [hattempts]
    simp [Leg.planned, Attempt.planSubmitted, Attempt.mark, Function.comp_def]
  | planFailed =>
    rw [hattempts]
    simp [Attempt.planFailed]
  | closed =>
    rw [hattempts]
    simp [Attempt.updateWorkItem]

theorem Leg.Advances.attemptIds (h : leg.Advances leg') :
    leg'.attempts.map (·.id) = leg.attempts.map (·.id) :=
  map_eq_of_forall₂ (f := fun a : Attempt => a.id) (g := fun b : Attempt => b.id)
    (fun _ _ hab => hab.id) h.attempts

theorem Leg.retried_attemptIds (leg : Leg) (earlier : List Attempt) (current : Attempt)
    (failureReasons : List AttemptFailureReason) (retry : Attempt) :
    (leg.retried earlier current failureReasons retry).attempts.map (·.id) =
      (earlier ++ [current]).map (·.id) ++ [retry.id] := by
  rw [Leg.retried_attempts]
  simp [Attempt.close]

/-- A call keeps the ids; what it evaluates mints new ones. -/
theorem Called.dated (hhost : host.Random) {c : Call} (hcalled : Called host state c next)
    (h : Dated host clock state) (hclock : clock ≤ clock')
    (hstamp : ∀ stamp runtime, c = .evaluate stamp runtime → clock ≤ stamp ∧ stamp < clock') :
    Dated host clock' next := by
  cases hcalled with
  | settled settlement metadata _ hmetadata hopen hsettled hids hnext hon =>
    refine h.replace hopen.legs hnext.legs hclock hsettled.stays.id fun hleg => ?_
    exact (hleg.mono hclock).of_ids hsettled.stays.id (hsettled.attemptIds hopen.leg.attempts)
  | done stamp runtime hdone => exact h.mono hclock
  | undecided stamp runtime _ hopen hadvances hnext hon =>
    refine h.replace hopen.legs hnext.legs hclock hadvances.id fun hleg => ?_
    exact (hleg.mono hclock).of_ids hadvances.id hadvances.attemptIds
  | decided stamp runtime _ hopen hadvances hleg hdecided =>
    obtain ⟨hle, hlt⟩ := hstamp stamp runtime rfl
    have hids := hadvances.attemptIds
    rw [hleg.attempts] at hids
    cases hdecided with
    | retried failureReasons hfails hmore retry hretry hnext =>
      refine h.replace hopen.legs hnext.legs hclock hadvances.id fun hdated => ?_
      subst hretry
      exact hdated.retried hhost hle hlt hadvances.id (hids ▸ Leg.retried_attemptIds ..)
    | failed failureReasons hfails hlast hend =>
      refine h.replace hopen.legs hend.legs hclock hadvances.id fun hdated => ?_
      refine (hdated.mono hclock).of_ids hadvances.id ?_
      rw [Leg.failed_attempts, ← hids]
      simp [Attempt.close]
    | succeeded failureReasons hsucceeds input hinput hnext =>
      refine h.push hhost hopen.legs hle hlt hnext.legs hadvances.id ?_
      rw [Leg.succeeded_attempts, ← hids]
      simp [Attempt.close]
    | completed failureReasons hsucceeds hinput hend =>
      refine h.replace hopen.legs hend.legs hclock hadvances.id fun hdated => ?_
      refine (hdated.mono hclock).of_ids hadvances.id ?_
      rw [Leg.succeeded_attempts, ← hids]
      simp [Attempt.close]

theorem createInitialState_dated (hlt : stamp < clock) (args : PursuitArgs) :
    Dated host clock (createInitialState host stamp args) := by
  refine ⟨fun leg hleg => ?_, List.nodup_singleton _⟩
  obtain rfl := List.mem_singleton.mp hleg
  exact createLeg_dated hlt 1 _

end Dated

/-! ## Runs of the workflow runtime -/

section Runs

variable {host : Host} {definition : WorkflowDefinition} {args : JsonObject}
  {toJsonObject : PursuitState → Except String Json} {s t u v : WorkflowRunInstance PursuitFields}
  {state next : PursuitState} {ls : List Label}

/-- The code after a snapshot writes no legs. -/
theorem Ended.ext {c : WorkflowStartRequest PursuitFields} {r : Except Fault (Option Frame)}
    (h : Ended c state v r u) (hstate : v.state = some state) (hnext : u.state = some next) :
    next.ext = state.ext := by
  cases h with
  | quiet hs =>
    rw [hs, hstate, Option.some.injEq] at hnext
    rw [hnext]
  | deadlocked _ _ _ _ _ _ report hs =>
    rw [hs, Option.some.injEq] at hnext
    rw [← hnext]
    rfl
  | launched _ _ _ _ _ _ _ _ hs =>
    rw [hs, hstate, Option.some.injEq] at hnext
    rw [hnext]

/-- The state of a run is that of an open pursuit, or it is done. -/
theorem openOrDone_of_state
    (run : Run (step (pursuitRequest host definition args toJsonObject)) Free initial ls s)
    (hstate : s.state = some state) : OpenOrDone state := by
  rcases followed_of_run run with hnone | ⟨first, cs, pursuit, h⟩
  · rw [hnone.state] at hstate
    cases hstate
  · obtain ⟨state', hstate', hpursuit⟩ := h.state
    obtain rfl : state = state' := Option.some.inj (hstate.symm.trans hstate')
    rcases hpursuit with rfl | hended
    · exact openOrDone_of_follows h
    · exact .inl hended.done

/-- The ids of the pursuit of a run were minted in the past of its clock. -/
def DatedRun (host : Host) (s : WorkflowRunInstance PursuitFields) : Prop :=
  ∀ state, s.state = some state → Dated host s.clock state

theorem DatedRun.settled (hhost : host.Random) (h : DatedRun host s) (hserved : Served host s)
    {l : Label} (hstamped : Stamped t) {sh : Shown PursuitFields} (hshown : shown s l = some sh)
    (hstate : s.state = some state) (hopen : OpenOrDone state)
    (hvalid : validateNodeSettlement host state sh.settlement = .ok .ok)
    {r : Except Fault (Option Frame)}
    (hu : Applied (pursuitRequest host definition args toJsonObject) sh.entry sh.settlement state
      sh.closed r u)
    (ht : Control (faultsOf r) u t) (hclock : s.clock ≤ t.clock) : DatedRun host t := by
  have hgoing : state.isWorkflowDone = false := by
    by_contra hdone
    unfold validateNodeSettlement at hvalid
    rw [if_pos (by simpa using hdone)] at hvalid
    cases hvalid
  obtain ⟨_, _, _, _, hshape⟩ := hopen.resolve_left (by simp [hgoing])
  obtain ⟨applied, stamp, runtime, v, happly, hstamp, -, -, -, hhistory, hv, hended⟩ :=
    evaluated_of_applied hserved hshown hshape hvalid hu
  -- the evaluation has a stamp between the clocks before and after the step
  have hle : s.clock ≤ stamp := by
    rw [hstamp]
    exact Nat.le_trans (shown_clock hshown) (evaluating_clock _ _ _)
  have hlt : stamp < t.clock := hstamped _ (ht.extends.mem hhistory) stamp rfl
  have happlies : call host state (.apply sh.settlement) = some applied.state := by
    simp only [call, hvalid, happly, Except.toOption, Option.map_some]
  have hcalled := called_of_call hopen happlies
  have hafter : Dated host s.clock applied.state :=
    hcalled.dated hhost (h state hstate) (Nat.le_refl _) fun _ _ heq => by cases heq
  have hevaluated : Called host applied.state (.evaluate stamp runtime) _ :=
    called_of_call hcalled.openOrDone rfl
  intro next hnext
  refine Dated.of_ext ?_ (Ended.ext hended hv (ht.state ▸ hnext))
  refine hevaluated.dated hhost hafter hclock fun stamp' runtime' heq => ?_
  obtain ⟨rfl, -⟩ := Call.evaluate.inj heq
  exact ⟨hle, hlt⟩

theorem DatedRun.step (hhost : host.Random) {l : Label}
    (run : Run (step (pursuitRequest host definition args toJsonObject)) Free initial ls s)
    (h : DatedRun host s)
    (hstep : step (pursuitRequest host definition args toJsonObject) s l = some t) :
    DatedRun host t := by
  obtain ⟨hclock, hstampedStep⟩ := later_step hstep
  have hsame : t.state = s.state → DatedRun host t := fun hkept next hnext =>
    (h next (hkept ▸ hnext)).mono hclock
  cases stepped_of_step (wellStarted_of_run run) hstep with
  | control faults hfaults ht => exact hsame ht.state
  | started hidle r u _ hu ht =>
    have hzero := (threads_of_run run).idle hidle
    subst hzero
    have hlt : 0 < t.clock := clock_lt_start hstep
    cases hu with
    | threw => exact hsame ht.state
    | created state hcreate clock events _ _ hconcluded =>
      obtain ⟨parsed, -, rfl⟩ := created_of_ok hcreate
      intro next hnext
      refine Dated.of_ext ?_ (Ended.ext hconcluded.ended rfl (ht.state ▸ hnext))
      exact createInitialState_dated hlt parsed
  | launched flow next rest outer hframes clock startedAt ht => exact hsame ht.state
  | settled sh hshown state hstate hverdict r u _ hu ht =>
    exact h.settled hhost (served_of_run run) (hstampedStep (stamped_of_run run)) hshown hstate
      (openOrDone_of_state run hstate) hverdict hu ht hclock
  | interrupted reason running hactive state hstate r u _ hu ht =>
    intro next hnext
    rw [ht.state, hu.view.1, Option.some.injEq] at hnext
    refine ((h state hstate).mono hclock).of_ext ?_
    rw [← hnext]
    rfl

/-- **Ids are distinct in every state of every run.** -/
theorem dated_of_run (hhost : host.Random)
    (run : Run (step (pursuitRequest host definition args toJsonObject)) Free initial ls s) :
    DatedRun host s := by
  induction run with
  | nil =>
    intro state hstate
    cases hstate
  | snoc run _ hstep ih => exact ih.step hhost run hstep

end Runs

/-- What is looked up by its ids is found. -/
theorem findAttempt_of_dated {host : Host} {clock : Stamp} {state : PursuitState} {leg : Leg}
    {attempt : Attempt} (h : Dated host clock state) (hleg : leg ∈ state.ext.legs)
    (hattempt : attempt ∈ leg.attempts) :
    state.ext.legs.find? (·.id == leg.id) = some leg ∧
      leg.attempts.find? (·.id == attempt.id) = some attempt ∧
      findAttempt state leg.id attempt.id = some (leg, attempt) := by
  have hfindLeg := find?_of_nodup h.nodup hleg
  have hfindAttempt := find?_of_nodup (h.legs leg hleg).nodup hattempt
  refine ⟨hfindLeg, hfindAttempt, ?_⟩
  simp [findAttempt, hfindLeg, hfindAttempt]

end EphemeralAgent.Pursuit
