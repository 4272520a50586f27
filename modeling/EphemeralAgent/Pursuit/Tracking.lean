import EphemeralAgent.Pursuit.Runs
import EphemeralAgent.Pursuit.Structure

/-!
# Runs of the workflow runtime as calls

The workflow runtime makes a pursuit by calls of its two callbacks.  It writes the state of a
pursuit itself only to end the run, when the run is interrupted or has deadlocked.

* `ByRuntime` — what the runtime writes itself
* `Follows`, `followed_of_run` — the calls behind the state of a run
* `follows_run` — a run that goes on makes more calls
-/

namespace EphemeralAgent.Pursuit

open EphemeralAgent.Lib EphemeralAgent.Workflow

/-! ## What is followed -/

/-- The runtime has ended the run of this pursuit itself. -/
inductive ByRuntime (state : PursuitState) : PursuitState → Prop
  | interrupted (reason : String) : ByRuntime state (interruptState state reason)
  | deadlocked (report : DeadlockReport) : ByRuntime state (deadlockState state report)

theorem ByRuntime.done {state ended : PursuitState} (h : ByRuntime state ended) :
    ended.isWorkflowDone = true := by
  cases h <;> rfl

theorem ByRuntime.ext {state ended : PursuitState} (h : ByRuntime state ended) :
    ended.ext = state.ext := by
  cases h <;> rfl

/-- The settlement that a call applies. -/
def Call.settlement? : Call → Option WorkflowNodeSettlement
  | .apply settlement => some settlement
  | .evaluate .. => none

/-- The settlement that a recorded call of the runtime applies. -/
def appliedIn : HistoryItem PursuitFields → Option WorkflowNodeSettlement
  | .applyCalled _ settlement _ _ => some settlement
  | _ => none

/-- The run has a pursuit, made by these calls from this first state. -/
structure Follows (host : Host) (args : JsonObject) (first : PursuitState) (cs : List Call)
    (pursuit : PursuitState) (s : WorkflowRunInstance PursuitFields) : Prop where
  created : ∃ stamp parsed, PursuitArgs.parse args = some parsed ∧
    first = createInitialState host stamp parsed
  run : Run (call host) Free first cs pursuit
  state : ∃ state, s.state = some state ∧ (state = pursuit ∨ ByRuntime pursuit state)
  settlements : s.history.filterMap appliedIn = cs.filterMap (·.settlement?)
  success : ∀ value, s.outcome = some (.success value) →
    pursuit.isWorkflowDone = true ∧ pursuit.workflowStatus = .success

section Track

variable {host : Host} {definition : WorkflowDefinition} {args : JsonObject}
  {toJsonObject : PursuitState → Except String Json} {s t u : WorkflowRunInstance PursuitFields}
  {first pursuit : PursuitState} {cs : List Call}

/-- Items of other kinds apply no settlement. -/
theorem appliedIn_of_extends {p : HistoryItem PursuitFields → Bool} (h : Extends p s t)
    (hp : ∀ item, p item = true → appliedIn item = none) :
    t.history.filterMap appliedIn = s.history.filterMap appliedIn := by
  obtain ⟨items, hitems, hall⟩ := h
  have hnil : items.filterMap appliedIn = [] := by
    rw [List.filterMap_eq_nil_iff]
    exact fun item hitem => hp item (hall item hitem)
  rw [hitems, List.filterMap_append, hnil, List.append_nil]

theorem appliedIn_of_bookkeeping (item : HistoryItem PursuitFields)
    (h : item.bookkeeping = true) : appliedIn item = none := by
  cases item <;> first | rfl | cases h

theorem appliedIn_of_concluding (item : HistoryItem PursuitFields) (h : item.concluding = true) :
    appliedIn item = none := by
  cases item <;> first | rfl | cases h

theorem Follows.control {faults : List Fault} (h : Follows host args first cs pursuit s)
    (hc : Control faults s t) : Follows host args first cs pursuit t := by
  refine ⟨h.created, h.run, ?_, ?_, ?_⟩
  · rw [hc.state]
    exact h.state
  · rw [appliedIn_of_extends hc.extends appliedIn_of_bookkeeping]
    exact h.settlements
  · rw [hc.outcome]
    exact h.success

/-- The module says success only of a pursuit that has succeeded. -/
theorem succeeded_of_outcome {state : PursuitState} {stamp : Stamp}
    {answer : Option WorkflowOutcome} (hdone : state.isWorkflowDone = true)
    (hanswer : (pursuitImplementation host).getWorkflowOutcome stamp state = .ok answer)
    {value : Option Json} (h : answer.getD (defaultOutcome state) = .success value) :
    state.workflowStatus = .success := by
  obtain rfl : workflowOutcome state = answer := Except.ok.inj hanswer
  unfold workflowOutcome at h
  rw [if_neg (by simp [hdone])] at h
  simp only at h
  split at h
  · next hsuccess => exact hsuccess
  · cases h

/-- What is left after a snapshot changes no pursuit. -/
theorem follows_of_concluded {r : Except Fault (Option Frame)}
    (hcreated : ∃ stamp parsed, PursuitArgs.parse args = some parsed ∧
      first = createInitialState host stamp parsed)
    (hrun : Run (call host) Free first cs pursuit)
    (h : Concluded (pursuitRequest host definition args toJsonObject) pursuit s r t)
    (hstate : s.state = some pursuit)
    (hsettlements : s.history.filterMap appliedIn = cs.filterMap (·.settlement?))
    (houtcome : ∀ value, s.outcome ≠ some (.success value)) :
    Follows host args first cs pursuit t := by
  have hhistory : t.history.filterMap appliedIn = cs.filterMap (·.settlement?) := by
    rw [appliedIn_of_extends h.extends appliedIn_of_concluding]
    exact hsettlements
  cases h.viewed with
  | kept hkept hout =>
    refine ⟨hcreated, hrun, ⟨pursuit, hkept.trans hstate, .inl rfl⟩, hhistory, fun value hvalue => ?_⟩
    exact absurd (hout ▸ hvalue) (houtcome value)
  | finished hdone hkept stamp answer hanswer hout =>
    refine ⟨hcreated, hrun, ⟨pursuit, hkept.trans hstate, .inl rfl⟩, hhistory, fun value hvalue => ?_⟩
    rw [hout, Option.some.injEq] at hvalue
    exact ⟨hdone, succeeded_of_outcome hdone hanswer hvalue⟩
  | deadlocked hdone report hended hout =>
    refine ⟨hcreated, hrun, ⟨_, hended, .inr (.deadlocked report)⟩, hhistory, fun value hvalue => ?_⟩
    rcases hout with hout | hout
    · exact absurd (hout ▸ hvalue) (houtcome value)
    · rw [hout] at hvalue
      cases hvalue

theorem openOrDone_of_follows (h : Follows host args first cs pursuit s) : OpenOrDone pursuit := by
  obtain ⟨stamp, parsed, -, rfl⟩ := h.created
  exact openOrDone_of_run h.run

theorem appliedIn_of_interrupted {reason : String} {running : List Nat} {state : PursuitState}
    {r : Except Fault Unit} (h : Interrupted reason running state s r t) :
    t.history.filterMap appliedIn = s.history.filterMap appliedIn := by
  cases h with
  | threw =>
    rw [List.filterMap_append]
    exact List.append_nil _
  | done snapshot completedAt clock events _ ht =>
    rw [appliedIn_of_extends ht.extends appliedIn_of_concluding, List.filterMap_append]
    exact List.append_nil _

/-- **What a step of the runtime does to the pursuit**: a few calls, or nothing. -/
theorem Follows.step {l : Label} (hwell : WellStarted s) (hthreads : Threads s)
    (hserved : Served host s) (h : Follows host args first cs pursuit s)
    (hstep : step (pursuitRequest host definition args toJsonObject) s l = some t) :
    ∃ more next, Run (call host) Free pursuit more next ∧
      Follows host args first (cs ++ more) next t := by
  obtain ⟨state, hstate, hpursuit⟩ := h.state
  have hsame : ∀ {u}, Follows host args first cs pursuit u →
      ∃ more next, Run (call host) Free pursuit more next ∧
        Follows host args first (cs ++ more) next u :=
    fun hu => ⟨[], pursuit, .nil _, by rwa [List.append_nil]⟩
  cases stepped_of_step hwell hstep with
  | control faults _ ht => exact hsame (h.control ht)
  | started hidle =>
    -- the run was started before
    have := hthreads.idle hidle
    rw [this] at hstate
    cases hstate
  | launched flow next rest outer _ clock startedAt ht =>
    refine hsame (Follows.control ?_ ht)
    refine ⟨h.created, h.run, h.state, ?_, h.success⟩
    rw [List.filterMap_append, h.settlements]
    exact List.append_nil _
  | interrupted reason running _ state' hstate' r u _ hu ht =>
    obtain ⟨hended, -, houtcome⟩ := hu.view
    rw [hstate, Option.some.injEq] at hstate'
    subst hstate'
    refine hsame (Follows.control ?_ ht)
    refine ⟨h.created, h.run, ⟨_, hended, .inr ?_⟩, ?_, ?_⟩
    · -- what the runtime has written before is written over
      rcases hpursuit with rfl | hbefore
      · exact .interrupted reason
      · cases hbefore <;> exact .interrupted reason
    · rw [appliedIn_of_interrupted hu]
      exact h.settlements
    · intro value hvalue
      rcases houtcome with hout | hout
      · exact h.success value (hout ▸ hvalue)
      · rw [hout] at hvalue
        cases hvalue
  | settled sh hshown state' hstate' hverdict r u _ hu ht =>
    obtain ⟨queue, hin⟩ := shownIn_of_shown hshown
    obtain ⟨clock, events, close, hclosed, -⟩ := hin.closed
    rw [hstate, Option.some.injEq] at hstate'
    subst hstate'
    have hvalid : validateNodeSettlement host state sh.settlement = .ok .ok := hverdict
    have hdone : state.isWorkflowDone = false := by
      by_contra hdone
      unfold validateNodeSettlement at hvalid
      rw [if_pos (by simpa using hdone)] at hvalid
      cases hvalid
    obtain rfl : state = pursuit := by
      rcases hpursuit with heq | hended
      · exact heq
      · rw [hended.done] at hdone
        cases hdone
    obtain ⟨_, _, _, _, hopen⟩ := (openOrDone_of_follows h).resolve_left (by simp [hdone])
    obtain ⟨applied, happlied⟩ := applies_of_shown hserved hshown hopen hvalid
    cases hu with
    | applyThrew message clock happly =>
      have hthrow : applyNodeSettlement host state sh.settlement = .error message := happly
      rw [happlied] at hthrow
      cases hthrow
    | evaluateThrew _ _ _ _ _ _ _ hevaluate => cases hevaluate
    | evaluated applied' happly stamp hstamp runtime hruntime evaluated hevaluate clock events _ _
        hconcluded =>
      obtain rfl : applied = applied' := Except.ok.inj (happlied.symm.trans happly)
      obtain rfl : evaluateWorkflowProgress host stamp applied.state runtime = evaluated :=
        Except.ok.inj hevaluate
      have happlies : call host state (.apply sh.settlement) = some applied.state := by
        simp only [call, hvalid, happlied, Except.toOption, Option.map_some]
      have hmore : Run (call host) Free state [.apply sh.settlement, .evaluate stamp runtime]
          (evaluateWorkflowProgress host stamp applied.state runtime).state :=
        (Run.single trivial happlies).trans (Run.single trivial rfl)
      refine ⟨_, _, hmore, Follows.control ?_ ht⟩
      refine follows_of_concluded h.created (h.run.trans hmore) hconcluded rfl ?_ ?_
      · show (sh.closed.history ++ _ ++ _).filterMap appliedIn = _
        rw [hclosed, List.filterMap_append, List.filterMap_append, List.filterMap_append,
          h.settlements]
        exact List.append_nil _
      · intro value hvalue
        have houtcome : s.outcome = some (.success value) := by
          rw [← hvalue, hclosed]
        have := (h.success value houtcome).1
        rw [hdone] at this
        cases this

/-! ## Runs -/

/-- The run has no pursuit yet. -/
structure NoPursuit (s : WorkflowRunInstance PursuitFields) : Prop where
  state : s.state = none
  outcome : s.outcome = none
  settlements : s.history.filterMap appliedIn = []

theorem NoPursuit.control {faults : List Fault} (h : NoPursuit s) (hc : Control faults s t) :
    NoPursuit t := by
  refine ⟨hc.state.trans h.state, hc.outcome.trans h.outcome, ?_⟩
  rw [appliedIn_of_extends hc.extends appliedIn_of_bookkeeping]
  exact h.settlements

/-- Starting a run creates the first state, if nothing throws. -/
theorem NoPursuit.started {r : Except Fault (Option Frame)} (h : NoPursuit s)
    (hu : Started (pursuitRequest host definition args toJsonObject) s r u) :
    NoPursuit u ∨ ∃ first cs pursuit, Follows host args first cs pursuit u := by
  cases hu with
  | threw message clock => exact .inl ⟨h.state, h.outcome, h.settlements⟩
  | created state hcreate clock events _ _ hconcluded =>
    right
    obtain ⟨parsed, hparsed, rfl⟩ := created_of_ok hcreate
    refine ⟨_, [], _, follows_of_concluded ⟨_, parsed, hparsed, rfl⟩ (.nil _) hconcluded rfl ?_ ?_⟩
    · rw [List.filterMap_append, h.settlements]
      rfl
    · intro value hvalue
      have houtcome : s.outcome = some (.success value) := hvalue
      rw [h.outcome] at houtcome
      cases houtcome

theorem NoPursuit.step {l : Label} (hwell : WellStarted s) (h : NoPursuit s)
    (hstep : step (pursuitRequest host definition args toJsonObject) s l = some t) :
    NoPursuit t ∨ ∃ first cs pursuit, Follows host args first cs pursuit t := by
  have hunstarted := hwell h.state
  cases stepped_of_step hwell hstep with
  | control faults _ ht => exact .inl (h.control ht)
  | started hidle r u _ hu ht =>
    rcases h.started hu with hu | ⟨first, cs, pursuit, hu⟩
    · exact .inl (hu.control ht)
    · exact .inr ⟨first, cs, pursuit, hu.control ht⟩
  | launched flow next rest outer hframes =>
    -- nothing is suspended before the run has a state
    exfalso
    cases flow with
    | queue => simp [WorkflowRunInstance.frames, hunstarted.active] at hframes
    | start =>
      rcases hunstarted.startFlow with hflow | ⟨fault, hflow⟩ <;>
        simp [WorkflowRunInstance.frames, hflow] at hframes
  | settled _ _ state hstate =>
    rw [h.state] at hstate
    cases hstate
  | interrupted _ _ _ state hstate =>
    rw [h.state] at hstate
    cases hstate

variable {ls ms : List Label}

/-- **A run goes on by more calls of its pursuit.** -/
theorem follows_run
    (before : Run (step (pursuitRequest host definition args toJsonObject)) Free initial ls s)
    (h : Follows host args first cs pursuit s)
    (run : Run (step (pursuitRequest host definition args toJsonObject)) Free s ms t) :
    ∃ more next, Run (call host) Free pursuit more next ∧
      Follows host args first (cs ++ more) next t := by
  induction run with
  | nil => exact ⟨[], pursuit, .nil _, by rwa [List.append_nil]⟩
  | snoc run _ hstep ih =>
    obtain ⟨more, next, hmore, hnext⟩ := ih
    have hrun := before.trans run
    obtain ⟨more', next', hmore', hnext'⟩ :=
      hnext.step (wellStarted_of_run hrun) (threads_of_run hrun) (served_of_run hrun) hstep
    exact ⟨more ++ more', next', hmore.trans hmore', List.append_assoc cs more more' ▸ hnext'⟩

/-- **Every run that has a state has made its pursuit by calls.** -/
theorem followed_of_run
    (run : Run (step (pursuitRequest host definition args toJsonObject)) Free initial ls s) :
    NoPursuit s ∨ ∃ first cs pursuit, Follows host args first cs pursuit s := by
  induction run with
  | nil => exact .inl ⟨rfl, rfl, rfl⟩
  | snoc run _ hstep ih =>
    rcases ih with hnone | ⟨first, cs, pursuit, h⟩
    · exact hnone.step (wellStarted_of_run run) hstep
    · obtain ⟨more, next, -, hnext⟩ :=
        h.step (wellStarted_of_run run) (threads_of_run run) (served_of_run run) hstep
      exact .inr ⟨first, _, next, hnext⟩

end Track

end EphemeralAgent.Pursuit
