import EphemeralAgent.Pursuit.Calls

/-!
# The structure of a pursuit

Legs and attempts are numbered, statuses follow from the statuses below them, and what is terminal
stays as it is.

* `WellFormed`, `Agrees` — what holds of every state
* `Keeps` — what a later state keeps of an earlier one
* `Sound`, `Sound.advance` — every call keeps the structure
-/

namespace EphemeralAgent.Pursuit

open EphemeralAgent.Lib EphemeralAgent.Workflow

/-! ## Well-formed pursuits -/

/-- The status of the attempt has a reason, and its consistency is that of its version. -/
structure Attempt.WellFormed (attempt : Attempt) (legGoalVersion : Nat) : Prop where
  succeeds : attempt.status = .success → attempt.Succeeds
  fails : attempt.status = .failed → attempt.Fails
  consistent : attempt.isConsistentWithLegGoal = true ↔ attempt.legGoalVersion = legGoalVersion
  version_le : attempt.legGoalVersion ≤ legGoalVersion

structure Leg.WellFormed (leg : Leg) : Prop where
  bounded : leg.attempts.length ≤ leg.maxAttempts
  numbered : Numbered (·.sequence) leg.attempts
  failed : ∀ attempt ∈ leg.attempts.dropLast, attempt.status = .failed
  attempts : ∀ attempt ∈ leg.attempts, attempt.WellFormed leg.legGoalVersion

structure WellFormed (state : PursuitState) : Prop where
  numbered : Numbered (·.sequence) state.ext.legs
  succeeded : ∀ leg ∈ state.ext.legs.dropLast, leg.status = .success
  legs : ∀ leg ∈ state.ext.legs, leg.WellFormed

/-- How the workflow, the record of the pursuit and its last leg stand. -/
structure Standing (state : PursuitState) (done : Bool) (workflow : WorkflowStatus)
    (status : PursuitEntityRunStatus) : Prop where
  done : state.isWorkflowDone = done
  workflow : state.workflowStatus = workflow
  pursuit : state.ext.pursuit.status = status
  lastLeg : ∃ leg, state.ext.legs.getLast? = some leg ∧ leg.status = status

/-- The workflow, the record and the last leg agree: all go on, or all have ended alike. -/
def Agrees (state : PursuitState) : Prop :=
  Standing state false .running .running ∨ Standing state true .success .success ∨
    Standing state true .failure .failed

/-! ### At the end of a list -/

/-- A well-formed leg, seen from its last attempt. -/
structure Leg.Shape (leg : Leg) (earlier : List Attempt) (current : Attempt) : Prop where
  bounded : earlier.length + 1 ≤ leg.maxAttempts
  numbered : Numbered (·.sequence) earlier
  number : current.sequence = earlier.length + 1
  past : ∀ attempt ∈ earlier, attempt.status = .failed ∧ attempt.WellFormed leg.legGoalVersion
  current : current.WellFormed leg.legGoalVersion

theorem Leg.wellFormed_iff {leg : Leg} {earlier : List Attempt} {current : Attempt}
    (h : leg.attempts = earlier ++ [current]) : leg.WellFormed ↔ leg.Shape earlier current := by
  constructor
  · rintro ⟨hbounded, hnumbered, hfailed, hattempts⟩
    rw [h] at hbounded hnumbered hfailed hattempts
    rw [List.length_append, List.length_singleton] at hbounded
    rw [List.dropLast_concat] at hfailed
    obtain ⟨hearlier, hnumber⟩ := numbered_append_singleton.mp hnumbered
    refine ⟨hbounded, hearlier, hnumber, fun attempt hattempt => ?_, ?_⟩
    · exact ⟨hfailed attempt hattempt, hattempts attempt (List.mem_append_left _ hattempt)⟩
    · exact hattempts current (List.mem_append_right _ (List.mem_singleton_self _))
  · rintro ⟨hbounded, hearlier, hnumber, hpast, hcurrent⟩
    refine ⟨?_, ?_, ?_, ?_⟩
    · rw [h, List.length_append, List.length_singleton]
      exact hbounded
    · rw [h]
      exact numbered_append_singleton.mpr ⟨hearlier, hnumber⟩
    · rw [h, List.dropLast_concat]
      exact fun attempt hattempt => (hpast attempt hattempt).1
    · rw [h]
      intro attempt hattempt
      rcases List.mem_append.mp hattempt with hattempt | hattempt
      · exact (hpast attempt hattempt).2
      · obtain rfl := List.mem_singleton.mp hattempt
        exact hcurrent

/-- A well-formed pursuit, seen from its last leg. -/
structure Shape (closed : List Leg) (leg : Leg) : Prop where
  numbered : Numbered (·.sequence) closed
  number : leg.sequence = closed.length + 1
  past : ∀ other ∈ closed, other.status = .success ∧ other.WellFormed
  leg : leg.WellFormed

theorem wellFormed_iff {state : PursuitState} {closed : List Leg} {leg : Leg}
    (h : state.ext.legs = closed ++ [leg]) : WellFormed state ↔ Shape closed leg := by
  constructor
  · rintro ⟨hnumbered, hsucceeded, hlegs⟩
    rw [h] at hnumbered hsucceeded hlegs
    rw [List.dropLast_concat] at hsucceeded
    obtain ⟨hclosed, hnumber⟩ := numbered_append_singleton.mp hnumbered
    refine ⟨hclosed, hnumber, fun other hother => ?_, ?_⟩
    · exact ⟨hsucceeded other hother, hlegs other (List.mem_append_left _ hother)⟩
    · exact hlegs leg (List.mem_append_right _ (List.mem_singleton_self _))
  · rintro ⟨hclosed, hnumber, hpast, hleg⟩
    refine ⟨?_, ?_, ?_⟩
    · rw [h]
      exact numbered_append_singleton.mpr ⟨hclosed, hnumber⟩
    · rw [h, List.dropLast_concat]
      exact fun other hother => (hpast other hother).1
    · rw [h]
      intro other hother
      rcases List.mem_append.mp hother with hother | hother
      · exact (hpast other hother).2
      · obtain rfl := List.mem_singleton.mp hother
        exact hleg

/-! ## What stays -/

/-- The same item; its status stays once it is terminal. -/
structure WorkItem.Keeps (i j : WorkItem) : Prop where
  id : j.id = i.id
  key : j.key = i.key
  status : isWorkItemTerminal i.status = true → j.status = i.status

/-- The same attempt with the same plan; terminal statuses stay, and items stay at their places. -/
structure Attempt.Keeps (a b : Attempt) : Prop where
  id : b.id = a.id
  status : isPursuitEntityTerminal a.status = true → b.status = a.status
  planId : b.plan.id = a.plan.id
  planStatus : isPursuitEntityTerminal a.plan.status = true → b.plan.status = a.plan.status
  items : Grows WorkItem.Keeps a.workItems b.workItems

structure Leg.Keeps (l m : Leg) : Prop where
  id : m.id = l.id
  status : isPursuitEntityTerminal l.status = true → m.status = l.status
  attempts : Grows Attempt.Keeps l.attempts m.attempts

/-- Every leg is still there, and whatever was terminal in it has kept its status. -/
def Keeps (s t : PursuitState) : Prop :=
  Grows Leg.Keeps s.ext.legs t.ext.legs

section Keeps

theorem WorkItem.Keeps.refl (i : WorkItem) : i.Keeps i :=
  ⟨rfl, rfl, fun _ => rfl⟩

theorem WorkItem.Keeps.trans {i j k : WorkItem} (h₁ : i.Keeps j) (h₂ : j.Keeps k) : i.Keeps k := by
  refine ⟨h₂.id.trans h₁.id, h₂.key.trans h₁.key, fun h => ?_⟩
  have hj := h₁.status h
  exact (h₂.status (hj ▸ h)).trans hj

theorem Attempt.Keeps.refl (a : Attempt) : a.Keeps a :=
  ⟨rfl, fun _ => rfl, rfl, fun _ => rfl, .refl .refl _⟩

theorem Attempt.Keeps.trans {a b c : Attempt} (h₁ : a.Keeps b) (h₂ : b.Keeps c) : a.Keeps c := by
  refine ⟨h₂.id.trans h₁.id, fun h => ?_, h₂.planId.trans h₁.planId, fun h => ?_,
    h₁.items.trans (fun _ _ _ => .trans) h₂.items⟩
  · have hb := h₁.status h
    exact (h₂.status (hb ▸ h)).trans hb
  · have hb := h₁.planStatus h
    exact (h₂.planStatus (hb ▸ h)).trans hb

theorem Leg.Keeps.refl (l : Leg) : l.Keeps l :=
  ⟨rfl, fun _ => rfl, .refl .refl _⟩

theorem Leg.Keeps.trans {l m n : Leg} (h₁ : l.Keeps m) (h₂ : m.Keeps n) : l.Keeps n := by
  refine ⟨h₂.id.trans h₁.id, fun h => ?_, h₁.attempts.trans (fun _ _ _ => .trans) h₂.attempts⟩
  have hm := h₁.status h
  exact (h₂.status (hm ▸ h)).trans hm

theorem Keeps.refl (s : PursuitState) : Keeps s s :=
  Grows.refl .refl _

theorem Keeps.trans {s t u : PursuitState} (h₁ : Keeps s t) (h₂ : Keeps t u) : Keeps s u :=
  Grows.trans (fun _ _ _ => .trans) h₁ h₂

/-- Only the last leg has changed, and more legs may have come. -/
theorem keeps_of_last {s t : PursuitState} {closed more : List Leg} {leg leg' : Leg}
    (hs : s.ext.legs = closed ++ [leg]) (ht : t.ext.legs = closed ++ [leg'] ++ more)
    (hleg : leg.Keeps leg') : Keeps s t := by
  unfold Keeps
  rw [hs, ht]
  refine Grows.append (grows_of_forall₂ ?_) more
  exact List.rel_append (List.forall₂_same.mpr fun l _ => .refl l) (.cons hleg .nil)

/-- Only the last attempt has changed, and more attempts may have come. -/
theorem Leg.keeps_of_last {leg leg' : Leg} {earlier earlier' more : List Attempt}
    {current current' : Attempt} (h : leg.attempts = earlier ++ [current])
    (h' : leg'.attempts = earlier' ++ [current'] ++ more) (hid : leg'.id = leg.id)
    (hrunning : leg.status = .running) (hearlier : List.Forall₂ Attempt.Keeps earlier earlier')
    (hcurrent : current.Keeps current') : leg.Keeps leg' := by
  refine ⟨hid, fun hterminal => ?_, ?_⟩
  · rw [hrunning] at hterminal
    cases hterminal
  · rw [h, h']
    exact Grows.append (grows_of_forall₂ (List.rel_append hearlier (.cons hcurrent .nil))) more

end Keeps

/-! ## Items end -/

section Advances

variable {i j : WorkItem} {a b : Attempt} {l m : Leg}

theorem WorkItem.Advances.keeps (h : i.Advances j) : i.Keeps j := by
  refine ⟨h.id, h.key, fun hterminal => ?_⟩
  rcases h.status with hs | ⟨hs, _⟩
  · exact hs
  · rw [hs] at hterminal
    cases hterminal

theorem Attempt.Advances.keeps (h : a.Advances b) : a.Keeps b :=
  ⟨h.id, fun _ => h.status, by rw [h.plan], fun _ => by rw [h.plan],
    grows_of_forall₂ (h.items.imp fun _ _ => WorkItem.Advances.keeps)⟩

theorem Attempt.Advances.succeeds (h : a.Advances b) (ha : a.Succeeds) : b.Succeeds := by
  refine ⟨h.plan ▸ ha.plan, fun j hj => ?_⟩
  obtain ⟨i, hi, hij⟩ := exists_of_forall₂_right h.items hj
  have hstatus := ha.items i hi
  rw [hij.keeps.status (by rw [hstatus]; rfl), hstatus]

theorem Attempt.Advances.fails (h : a.Advances b) (ha : a.Fails) : b.Fails := by
  rcases ha with hplan | ⟨hterminal, i, hi, hstatus⟩
  · exact .inl (h.plan ▸ hplan)
  · refine .inr ⟨fun j hj => ?_, ?_⟩
    · obtain ⟨i, hi, hij⟩ := exists_of_forall₂_right h.items hj
      rw [hij.keeps.status (hterminal i hi)]
      exact hterminal i hi
    · obtain ⟨j, hj, hij⟩ := exists_of_forall₂_left h.items hi
      rw [← hij.keeps.status (hterminal i hi)] at hstatus
      exact ⟨j, hj, hstatus⟩

theorem Attempt.Advances.wellFormed (h : a.Advances b) {version : Nat}
    (ha : a.WellFormed version) : b.WellFormed version := by
  have hversion : b.legGoalVersion = a.legGoalVersion := by rw [h.eq]
  have hconsistent : b.isConsistentWithLegGoal = a.isConsistentWithLegGoal := by rw [h.eq]
  refine ⟨fun hs => h.succeeds (ha.succeeds (h.status ▸ hs)),
    fun hs => h.fails (ha.fails (h.status ▸ hs)), ?_, ?_⟩
  · rw [hversion, hconsistent]
    exact ha.consistent
  · rw [hversion]
    exact ha.version_le

theorem Leg.Advances.wellFormed (h : l.Advances m) (hl : l.WellFormed) : m.WellFormed := by
  have hlength := h.attempts.length_eq
  have hmax : m.maxAttempts = l.maxAttempts := by rw [h.eq]
  have hsequences : m.attempts.map (·.sequence) = l.attempts.map (·.sequence) :=
    map_eq_of_forall₂ (fun a b (hab : Attempt.Advances a b) => by rw [hab.eq]) h.attempts
  refine ⟨?_, ?_, ?_, fun b hb => ?_⟩
  · rw [← hlength, hmax]
    exact hl.bounded
  · have hnumbered := hl.numbered
    rwa [Numbered, ← hsequences, hlength] at hnumbered
  · have hdrop : List.Forall₂ Attempt.Advances l.attempts.dropLast m.attempts.dropLast := by
      rw [List.dropLast_eq_take, List.dropLast_eq_take, ← hlength]
      exact List.forall₂_take _ h.attempts
    intro b hb
    obtain ⟨a, ha, hab⟩ := exists_of_forall₂_right hdrop hb
    exact hab.status.trans (hl.failed a ha)
  · obtain ⟨a, ha, hab⟩ := exists_of_forall₂_right h.attempts hb
    rw [h.legGoalVersion]
    exact hab.wellFormed (hl.attempts a ha)

theorem Leg.Advances.keeps (h : l.Advances m) : l.Keeps m :=
  ⟨h.id, fun _ => h.status, grows_of_forall₂ (h.attempts.imp fun _ _ => Attempt.Advances.keeps)⟩

end Advances

/-! ## Settlements -/

theorem Attempt.wellFormed_of_running {attempt : Attempt} {version : Nat}
    (hrunning : attempt.status = .running)
    (hconsistent : attempt.isConsistentWithLegGoal = true ↔ attempt.legGoalVersion = version)
    (hle : attempt.legGoalVersion ≤ version) : attempt.WellFormed version := by
  refine ⟨fun hs => ?_, fun hs => ?_, hconsistent, hle⟩
  · rw [hrunning] at hs
    cases hs
  · rw [hrunning] at hs
    cases hs

/-- A refocused leg leaves its other attempts behind. -/
theorem Attempt.WellFormed.mark {attempt : Attempt} {version : Nat} (h : attempt.WellFormed version)
    {attemptId : String} (hid : attempt.id ≠ attemptId) (payload : PlannerOutcomePayload) :
    (attempt.mark attemptId payload).WellFormed
      (if payload.legGoal.isSome then version + 1 else version) := by
  have hle := h.version_le
  refine ⟨fun hs => ⟨(h.succeeds hs).plan, (h.succeeds hs).items⟩, fun hs => h.fails hs, ?_, ?_⟩
  · unfold Attempt.mark
    by_cases hgoal : payload.legGoal.isSome = true
    · simp only [hgoal, if_true, beq_iff_eq]
      constructor
      · intro heq
        exact absurd heq hid
      · intro heq
        omega
    · simp only [hgoal, Bool.false_eq_true, if_false]
      exact h.consistent
  · show attempt.legGoalVersion ≤ _
    split <;> omega

theorem Attempt.keeps_mark (attempt : Attempt) (attemptId : String)
    (payload : PlannerOutcomePayload) : attempt.Keeps (attempt.mark attemptId payload) :=
  ⟨rfl, fun _ => rfl, rfl, fun _ => rfl, .refl .refl _⟩

section Settle

variable {state : PursuitState} {leg leg' : Leg} {earlier earlier' : List Attempt}
  {current current' : Attempt} {settled : NodeRunStatus} {metadata : PursuitNodeMetadata}

/-- What a settlement leaves alone in the open leg. -/
structure Leg.Stays (leg leg' : Leg) : Prop where
  id : leg'.id = leg.id
  sequence : leg'.sequence = leg.sequence
  maxAttempts : leg'.maxAttempts = leg.maxAttempts
  status : leg'.status = leg.status

theorem Settled.stays (h : Settled state leg earlier current settled metadata leg' earlier' current') :
    leg.Stays leg' := by
  cases h with
  | planned _ _ _ _ payload =>
    exact ⟨Leg.declareGoal_id .., Leg.declareGoal_sequence .., Leg.declareGoal_maxAttempts ..,
      Leg.declareGoal_status ..⟩
  | planFailed => exact ⟨rfl, rfl, rfl, rfl⟩
  | closed => exact ⟨rfl, rfl, rfl, rfl⟩

/-- A settlement keeps the shape of the open leg. -/
theorem Settled.shape (h : Settled state leg earlier current settled metadata leg' earlier' current')
    (hleg : leg.Open earlier current) (hshape : leg.Shape earlier current)
    (hids : ∀ planId number, metadata = .planner leg.id current.id planId number →
      ∀ attempt ∈ earlier, attempt.id ≠ current.id) : leg'.Shape earlier' current' := by
  have hcurrent := hshape.current
  cases h with
  | planned planId number hplan hcompleted payload herror =>
    have hversion := Leg.declareGoal_legGoalVersion leg current.id payload
    refine ⟨?_, ?_, ?_, ?_, ?_⟩
    · show _ ≤ (leg.declareGoal current.id payload).maxAttempts
      rw [Leg.declareGoal_maxAttempts, List.length_map]
      exact hshape.bounded
    · unfold Numbered
      rw [List.map_map, List.length_map]
      exact hshape.numbered
    · rw [List.length_map]
      exact hshape.number
    · intro attempt hattempt
      obtain ⟨a, ha, rfl⟩ := List.mem_map.mp hattempt
      refine ⟨(hshape.past a ha).1, ?_⟩
      show Attempt.WellFormed _ (leg.declareGoal current.id payload).legGoalVersion
      rw [hversion]
      exact (hshape.past a ha).2.mark (hids planId number rfl a ha) payload
    · show Attempt.WellFormed _ (leg.declareGoal current.id payload).legGoalVersion
      rw [hversion]
      refine Attempt.wellFormed_of_running hleg.current.running ?_ ?_
      · by_cases hgoal : payload.legGoal.isSome = true
        · simp [Attempt.planSubmitted, Attempt.mark, hgoal]
        · simpa [Attempt.planSubmitted, Attempt.mark, hgoal] using hcurrent.consistent
      · have hle := hcurrent.version_le
        unfold Attempt.planSubmitted
        by_cases hgoal : payload.legGoal.isSome = true
        · simp [hgoal]
        · simpa [Attempt.mark, hgoal] using hle
  | planFailed =>
    exact ⟨hshape.bounded, hshape.numbered, hshape.number, hshape.past,
      Attempt.wellFormed_of_running hleg.current.running hcurrent.consistent hcurrent.version_le⟩
  | closed =>
    exact ⟨hshape.bounded, hshape.numbered, hshape.number, hshape.past,
      Attempt.wellFormed_of_running hleg.current.running hcurrent.consistent hcurrent.version_le⟩

theorem Settled.keeps (h : Settled state leg earlier current settled metadata leg' earlier' current')
    (hleg : leg.Open earlier current) : leg.Keeps leg' := by
  have hsame : List.Forall₂ Attempt.Keeps earlier earlier :=
    List.forall₂_same.mpr fun a _ => .refl a
  -- a plan that has not started is not terminal
  have hopen : current.plan.status = .notStarted →
      isPursuitEntityTerminal current.plan.status = true → False := by
    intro hplan hterminal
    rw [hplan] at hterminal
    cases hterminal
  cases h with
  | planned planId number hplan hcompleted payload herror =>
    refine Leg.keeps_of_last hleg.attempts (List.append_nil _).symm (Leg.declareGoal_id ..)
      hleg.running ?_ ?_
    · rw [List.forall₂_map_right_iff]
      exact List.forall₂_same.mpr fun a _ => a.keeps_mark current.id payload
    · exact ⟨rfl, fun _ => rfl, rfl, fun h => (hopen hplan h).elim, (Grows.refl .refl _).append _⟩
  | planFailed planId number hplan reason =>
    refine Leg.keeps_of_last hleg.attempts (List.append_nil _).symm rfl hleg.running hsame ?_
    exact ⟨rfl, fun _ => rfl, rfl, fun h => (hopen hplan h).elim, .refl .refl _⟩
  | closed number item hfind hwaits status hstatus summary outcome =>
    refine Leg.keeps_of_last hleg.attempts (List.append_nil _).symm rfl hleg.running hsame ?_
    exact (Attempt.advances_updateWorkItem hfind hwaits hstatus summary outcome).keeps

end Settle

/-! ## Reconciliation -/

theorem Attempt.keeps_close {attempt : Attempt} (hrunning : attempt.status = .running)
    (status : PursuitEntityRunStatus) (failureReasons : List AttemptFailureReason) :
    attempt.Keeps (attempt.close status failureReasons) := by
  refine ⟨rfl, fun hterminal => ?_, rfl, fun _ => rfl, .refl .refl _⟩
  rw [hrunning] at hterminal
  cases hterminal

theorem createAttempt_wellFormed (host : Host) (stamp : Stamp) (index sequence version : Nat) :
    (createAttempt host stamp index sequence version).WellFormed version :=
  Attempt.wellFormed_of_running rfl ⟨fun _ => rfl, fun _ => rfl⟩ (Nat.le_refl _)

section Reconcile

variable {host : Host} {stamp : Stamp} {state next : PursuitState} {closed : List Leg} {leg : Leg}
  {earlier : List Attempt} {current : Attempt} {failureReasons : List AttemptFailureReason}

theorem Leg.Shape.succeeded (h : leg.Shape earlier current) (hsucceeds : current.Succeeds) :
    (leg.succeeded earlier current failureReasons).WellFormed := by
  refine (Leg.wellFormed_iff (leg.succeeded_attempts ..)).mpr
    ⟨h.bounded, h.numbered, h.number, h.past, ?_⟩
  exact ⟨fun _ => ⟨hsucceeds.plan, hsucceeds.items⟩, fun hs => (by cases hs),
    h.current.consistent, h.current.version_le⟩

/-- The closed attempt of a leg that has failed or is retried. -/
theorem Leg.Shape.fails (h : leg.Shape earlier current) (hfails : current.Fails) :
    (current.close .failed failureReasons).WellFormed leg.legGoalVersion :=
  ⟨fun hs => (by cases hs), fun _ => hfails, h.current.consistent, h.current.version_le⟩

theorem Leg.Shape.failed (h : leg.Shape earlier current) (hfails : current.Fails) :
    (leg.failed earlier current failureReasons).WellFormed :=
  (Leg.wellFormed_iff (leg.failed_attempts ..)).mpr
    ⟨h.bounded, h.numbered, h.number, h.past, h.fails hfails⟩

theorem Leg.Shape.retried (h : leg.Shape earlier current) (hfails : current.Fails)
    (hmore : earlier.length + 1 < leg.maxAttempts) (index : Nat) :
    (leg.retried earlier current failureReasons
      (createAttempt host stamp index (earlier.length + 2) leg.legGoalVersion)).WellFormed := by
  refine (Leg.wellFormed_iff (leg.retried_attempts ..)).mpr
    ⟨?_, ?_, ?_, ?_, createAttempt_wellFormed ..⟩
  · rw [List.length_append, List.length_singleton]
    exact hmore
  · exact numbered_append_singleton.mpr ⟨h.numbered, h.number⟩
  · rw [List.length_append, List.length_singleton]
    rfl
  · intro attempt hattempt
    rcases List.mem_append.mp hattempt with hattempt | hattempt
    · exact h.past attempt hattempt
    · obtain rfl := List.mem_singleton.mp hattempt
      exact ⟨rfl, h.fails hfails⟩

theorem createLeg_wellFormed (index : Nat) {input : LegInit} (h : 0 < input.maxAttempts) :
    (createLeg host stamp index input).WellFormed := by
  have hattempts : (createLeg host stamp index input).attempts =
      [] ++ [createAttempt host stamp (index + 1) 1 1] := rfl
  exact (Leg.wellFormed_iff hattempts).mpr ⟨h, rfl, rfl, by simp, createAttempt_wellFormed ..⟩

/-- The next leg has the next number and as many attempts. -/
theorem nextLegInit_eq {input : LegInit} (h : nextLegInit state leg = some input) :
    input.sequence = leg.sequence + 1 ∧ input.maxAttempts = leg.maxAttempts := by
  unfold nextLegInit at h
  cases hmode : state.ext.pursuit.legGoalMode with
  | dynamic =>
    rw [hmode] at h
    obtain ⟨goal, -, rfl⟩ := Option.map_eq_some_iff.mp h
    exact ⟨rfl, rfl⟩
  | predefined =>
    rw [hmode] at h
    obtain ⟨goal, -, rfl⟩ := Option.map_eq_some_iff.mp h
    exact ⟨rfl, rfl⟩

/-- An open pursuit stands as running. -/
theorem Agrees.running (h : Agrees state) (hdone : state.isWorkflowDone = false) :
    state.workflowStatus = .running ∧ state.ext.pursuit.status = .running := by
  rcases h with h | h | h
  · exact ⟨h.workflow, h.pursuit⟩
  · have := h.done
    rw [hdone] at this
    cases this
  · have := h.done
    rw [hdone] at this
    cases this

theorem agrees_of_open {closed : List Leg} {leg : Leg} {earlier : List Attempt} {current : Attempt}
    (h : Open next closed leg earlier current) (hon : GoesOn state next)
    (hrunning : state.workflowStatus = .running ∧ state.ext.pursuit.status = .running) :
    Agrees next := by
  refine .inl ⟨h.notDone, hon.status.trans hrunning.1, ?_, leg, ?_, h.leg.running⟩
  · rw [hon.pursuit]
    exact hrunning.2
  · rw [h.legs, List.getLast?_append, List.getLast?_singleton, Option.some_or]

/-- A decided attempt leaves a well-formed pursuit whose statuses agree. -/
theorem Reconciled.sound (h : Reconciled host stamp state closed leg earlier current next)
    (hleg : leg.Open earlier current) (hshape : Shape closed leg)
    (hstanding : state.workflowStatus = .running ∧ state.ext.pursuit.status = .running) :
    WellFormed next ∧ Agrees next := by
  have hcurrent := (Leg.wellFormed_iff hleg.attempts).mp hshape.leg
  cases h with
  | retried failureReasons hfails hmore retry hretry hopen hgoes =>
    subst hretry
    refine ⟨(wellFormed_iff hopen.legs).mpr ?_, agrees_of_open hopen hgoes hstanding⟩
    exact ⟨hshape.numbered, hshape.number, hshape.past, hcurrent.retried hfails hmore _⟩
  | failed failureReasons hfails hlast hend =>
    obtain ⟨closedAt, hpursuit⟩ := hend.pursuit
    refine ⟨(wellFormed_iff hend.legs).mpr ?_, .inr (.inr ⟨hend.done, hend.status, ?_, ?_⟩)⟩
    · exact ⟨hshape.numbered, hshape.number, hshape.past, hcurrent.failed hfails⟩
    · rw [hpursuit]
    · exact ⟨leg.failed earlier current failureReasons, by simp [hend.legs], rfl⟩
  | succeeded failureReasons hsucceeds input hinput hopen hgoes =>
    obtain ⟨hsequence, hmax⟩ := nextLegInit_eq hinput
    refine ⟨(wellFormed_iff hopen.legs).mpr ⟨?_, ?_, ?_, createLeg_wellFormed _ ?_⟩,
      agrees_of_open hopen hgoes hstanding⟩
    · exact numbered_append_singleton.mpr ⟨hshape.numbered, hshape.number⟩
    · rw [List.length_append, List.length_singleton, ← hshape.number]
      exact hsequence
    · intro other hother
      rcases List.mem_append.mp hother with hother | hother
      · exact hshape.past other hother
      · obtain rfl := List.mem_singleton.mp hother
        exact ⟨rfl, hcurrent.succeeded hsucceeds⟩
    · rw [hmax]
      exact Nat.lt_of_lt_of_le (Nat.succ_pos _) hcurrent.bounded
  | completed failureReasons hsucceeds hinput hend =>
    obtain ⟨closedAt, hpursuit⟩ := hend.pursuit
    refine ⟨(wellFormed_iff hend.legs).mpr ?_, .inr (.inl ⟨hend.done, hend.status, ?_, ?_⟩)⟩
    · exact ⟨hshape.numbered, hshape.number, hshape.past, hcurrent.succeeded hsucceeds⟩
    · rw [hpursuit]
    · exact ⟨leg.succeeded earlier current failureReasons, by simp [hend.legs], rfl⟩

/-- Blocking items of the open leg and deciding its attempt keep what is terminal. -/
theorem Reconciled.keeps {leg' : Leg} {earlier' : List Attempt} {current' : Attempt}
    (h : Reconciled host stamp state closed leg' earlier' current' next)
    (hlegs : state.ext.legs = closed ++ [leg]) (hadvances : leg.Advances leg')
    (hleg : leg'.Open earlier' current') : Keeps state next := by
  have hsame : List.Forall₂ Attempt.Keeps earlier' earlier' :=
    List.forall₂_same.mpr fun a _ => .refl a
  have hclose := fun status reasons => Attempt.keeps_close hleg.current.running status reasons
  have hlast := fun {l : Leg} (hl : leg'.Keeps l) => hadvances.keeps.trans hl
  cases h with
  | retried failureReasons _ _ retry _ hopen =>
    refine keeps_of_last hlegs (hopen.legs.trans (List.append_nil _).symm) (hlast ?_)
    exact Leg.keeps_of_last hleg.attempts rfl rfl hleg.running hsame (hclose _ failureReasons)
  | failed failureReasons _ _ hend =>
    refine keeps_of_last hlegs (hend.legs.trans (List.append_nil _).symm) (hlast ?_)
    exact Leg.keeps_of_last hleg.attempts (List.append_nil _).symm rfl hleg.running hsame
      (hclose _ failureReasons)
  | succeeded failureReasons _ _ _ hopen =>
    refine keeps_of_last hlegs hopen.legs (hlast ?_)
    exact Leg.keeps_of_last hleg.attempts (List.append_nil _).symm rfl hleg.running hsame
      (hclose _ failureReasons)
  | completed failureReasons _ _ hend =>
    refine keeps_of_last hlegs (hend.legs.trans (List.append_nil _).symm) (hlast ?_)
    exact Leg.keeps_of_last hleg.attempts (List.append_nil _).symm rfl hleg.running hsame
      (hclose _ failureReasons)

end Reconcile

/-! ## Calls -/

/-- What holds of every state of a pursuit. -/
structure Sound (state : PursuitState) : Prop where
  wellFormed : WellFormed state
  agrees : Agrees state
  openOrDone : OpenOrDone state

section Call

variable {host : Host} {state next : PursuitState} {c : Call}

/-- **A call keeps the structure, and everything terminal.** -/
theorem Called.sound (h : Called host state c next) (hwell : WellFormed state)
    (hagrees : Agrees state) : (WellFormed next ∧ Agrees next) ∧ Keeps state next := by
  cases h with
  | settled settlement metadata _ hmetadata hopen hsettled hids hnext hon =>
    have hshape := (wellFormed_iff hopen.legs).mp hwell
    have hcurrent := (Leg.wellFormed_iff hopen.leg.attempts).mp hshape.leg
    have hstays := hsettled.stays
    refine ⟨⟨(wellFormed_iff hnext.legs).mpr ⟨hshape.numbered, ?_, hshape.past, ?_⟩,
      agrees_of_open hnext hon (hagrees.running hopen.notDone)⟩, ?_⟩
    · exact hstays.sequence.trans hshape.number
    · exact (Leg.wellFormed_iff hnext.leg.attempts).mpr (hsettled.shape hopen.leg hcurrent hids)
    · exact keeps_of_last hopen.legs (hnext.legs.trans (List.append_nil _).symm)
        (hsettled.keeps hopen.leg)
  | done stamp runtime hdone => exact ⟨⟨hwell, hagrees⟩, .refl _⟩
  | undecided stamp runtime _ hopen hadvances hnext hon =>
    have hshape := (wellFormed_iff hopen.legs).mp hwell
    refine ⟨⟨(wellFormed_iff hnext.legs).mpr ⟨hshape.numbered, ?_, hshape.past, ?_⟩,
      agrees_of_open hnext hon (hagrees.running hopen.notDone)⟩, ?_⟩
    · rw [hadvances.eq]
      exact hshape.number
    · exact hadvances.wellFormed hshape.leg
    · exact keeps_of_last hopen.legs (hnext.legs.trans (List.append_nil _).symm) hadvances.keeps
  | decided stamp runtime _ hopen hadvances hleg hdecided =>
    have hshape := (wellFormed_iff hopen.legs).mp hwell
    refine ⟨hdecided.sound hleg ⟨hshape.numbered, ?_, hshape.past, ?_⟩
      (hagrees.running hopen.notDone), ?_⟩
    · rw [hadvances.eq]
      exact hshape.number
    · exact hadvances.wellFormed hshape.leg
    · exact hdecided.keeps hopen.legs hadvances hleg

theorem Sound.advance (h : Sound state) (hcall : call host state c = some next) :
    Sound next ∧ Keeps state next := by
  have hcalled := called_of_call h.openOrDone hcall
  obtain ⟨⟨hwell, hagrees⟩, hkeeps⟩ := hcalled.sound h.wellFormed h.agrees
  exact ⟨⟨hwell, hagrees, hcalled.openOrDone⟩, hkeeps⟩

end Call

/-! ## Runs -/

/-- What the schema promises: a leg has an attempt, and a list of goals has a goal. -/
theorem PursuitArgs.parse_spec {object : JsonObject} {args : PursuitArgs}
    (h : PursuitArgs.parse object = some args) :
    0 < args.maxAttempts ∧ args.legGoals ≠ some [] := by
  unfold PursuitArgs.parse at h
  by_cases hkeys : onlyKeys object ["pursuit_goal", "leg_goals", "max_attempts"] = true
  · simp only [hkeys, Bool.not_true, Bool.false_eq_true, if_false] at h
    obtain ⟨pursuitGoal, -, h⟩ := Option.bind_eq_some_iff.mp h
    obtain ⟨legGoals, -, h⟩ := Option.bind_eq_some_iff.mp h
    by_cases hnil : legGoals = some []
    · rw [if_pos hnil] at h
      cases h
    · rw [if_neg hnil] at h
      obtain ⟨maxAttempts, hmax, h⟩ := Option.bind_eq_some_iff.mp h
      obtain rfl := Option.some.inj h
      refine ⟨optionalField_positiveInt Nat.two_pos hmax, fun heq => hnil ?_⟩
      cases legGoals with
      | none => cases heq
      | some goals =>
        rw [Option.map_some, Option.some.injEq, List.map_eq_nil_iff] at heq
        rw [heq]
  · simp [hkeys] at h

theorem sound_createInitialState (host : Host) (stamp : Stamp) {args : PursuitArgs}
    (h : 0 < args.maxAttempts) : Sound (createInitialState host stamp args) := by
  obtain ⟨leg, hopen, input, rfl, hsequence, hmax⟩ := createInitialState_open host stamp args
  refine ⟨(wellFormed_iff hopen.legs).mpr ⟨rfl, hsequence, by simp, createLeg_wellFormed _ ?_⟩,
    .inl ⟨rfl, rfl, rfl, _, ?_, hopen.leg.running⟩, .inr ⟨_, _, _, _, hopen⟩⟩
  · rw [hmax]
    exact h
  · rw [hopen.legs]
    rfl

theorem Sound.run {host : Host} {s t : PursuitState} {cs : List Call} (h : Sound s)
    (run : Run (call host) Free s cs t) : Sound t ∧ Keeps s t := by
  induction run with
  | nil => exact ⟨h, .refl _⟩
  | snoc _ _ hcall ih =>
    obtain ⟨hsound, hkeeps⟩ := ih
    obtain ⟨hnext, hkeeps'⟩ := hsound.advance hcall
    exact ⟨hnext, hkeeps.trans hkeeps'⟩

end EphemeralAgent.Pursuit
