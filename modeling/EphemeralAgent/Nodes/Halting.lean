import EphemeralAgent.Nodes.WorkflowNode

/-!
# The nested run and its interrupts

The steps of a node that is a workflow run, and the call of its handle that an interrupt of the
workflow run awaits.

* `Moved`, `moved_of_step` — the ways a step can go
* `Carried`, `Later` — what becomes of the nested run
* `Halting`, `halting_step` — **the call is in the queue of the nested run, or has settled**
-/

namespace EphemeralAgent.Nodes

open Lib Workflow

namespace Nested

variable {X Y : Type} {c : WorkflowStartRequest X} {d : WorkflowDelegation Y} {index : Nat}
  {s t : WorkflowNode X Y}

/-! ## The ways a step can go -/

/-- The ways a step can go. -/
inductive Moved (c : WorkflowStartRequest X) (d : WorkflowDelegation Y) (index : Nat)
    (s : WorkflowNode X Y) : WorkflowNodeLabel → WorkflowNode X Y → Prop
  | workflow {label : Label} {u : WorkflowRunInstance X} (hpermits : s.permits index label = true)
      (hstep : Workflow.step c s.workflow label = some u) (hbegun : begun s.workflow label = none) :
      Moved c d index s (.workflow label) { s with workflow := u }
  | interrupted {label : Label} {u : WorkflowRunInstance X} {reason : String}
      (hpermits : s.permits index label = true)
      (hstep : Workflow.step c s.workflow label = some u)
      (hbegun : begun s.workflow label = some reason) :
      Moved c d index s (.workflow label)
        (({ s with workflow := u }.abort d reason).stop d index reason)
  | started (hlaunching : ∃ flow, Awaits s.workflow flow index)
      (hrun : s.delegatedWorkflowRun = none) (hhandle : s.handle = none) :
      Moved c d index s .starts { s with delegatedWorkflowRun := some Workflow.initial }
  | delegated {label : Label} {r r' : WorkflowRunInstance Y}
      (hrun : s.delegatedWorkflowRun = some r)
      (hstep : Workflow.step d.request r label = some r') :
      Moved c d index s (.delegated label)
        { s with delegatedWorkflowRun := some r', stopping := s.stopping.map (·.after r r') }
  | handled {r : WorkflowRunInstance Y} (hlaunching : ∃ flow, Awaits s.workflow flow index)
      (hhandle : s.handle = none) (hrun : s.delegatedWorkflowRun = some r)
      (hreturned : r.startFlow = .returned) :
      Moved c d index s .handles { s with handle := some .outcome, listening := true }
  | handledAborted {r : WorkflowRunInstance Y} {reason : String}
      (hlaunching : ∃ flow, Awaits s.workflow flow index) (hhandle : s.handle = none)
      (hrun : s.delegatedWorkflowRun = some r) (hreturned : r.startFlow = .returned) :
      Moved c d index s .handles ({ s with handle := some .outcome }.tell d reason)
  | recorded {written : Except String Unit} {outcome : WorkflowOutcome}
      (houtcome : s.outcome = some outcome) (hrecorded : s.recorded = none) :
      Moved c d index s (.records written) { s with recorded := some written }
  | ended {outcome : WorkflowOutcome} {result : NodeSettlement}
      (hhandle : s.handle = some .outcome) (houtcome : s.outcome = some outcome)
      (hrecorded : s.recorded = some (.ok ()))
      (hsettle : s.settle c d index outcome = some { s with handle := some (.finishing result) }) :
      Moved c d index s .settles { s with handle := some (.finishing result) }
  | unrecorded {outcome : WorkflowOutcome} {message : String}
      (hhandle : s.handle = some .outcome) (houtcome : s.outcome = some outcome)
      (hrecorded : s.recorded = some (.error message)) :
      Moved c d index s .settles { s with handle := some (.finishing (.failed message)) }
  | submitted {output : Option Json}
      {contract : NodeOutcomeContract} {payload : Json} {u : WorkflowRunInstance X}
      (hhandle : s.handle = some .outcome) (houtcome : s.outcome = some (.success output))
      (hrecorded : s.recorded = some (.ok ())) (hcontract : s.contract index = some contract)
      (hparse : d.parse contract output = .ok payload)
      (hstep : Workflow.step c s.workflow (.submit index payload) = some u) :
      Moved c d index s .settles
        { s with workflow := u, handle := some (.submitting payload) }
  | replied {payload : Json} {result : SubmissionResult}
      (hhandle : s.handle = some (.submitting payload)) (hreply : s.reply index = some result) :
      Moved c d index s .replies
        { s with heard := s.heard + 1, handle := some (.finishing (settleSubmission result)) }
  | stored {result : NodeSettlement} {written : Bool}
      (hhandle : s.handle = some (.finishing result)) :
      Moved c d index s (.stores written)
        { s with handle := some (if written then .stored result else .broken) }
  | released : Moved c d index s .releases { s with listening := false }
  | observed {result : NodeSettlement} {u : WorkflowRunInstance X}
      (hhandle : s.handle = some (.stored result))
      (hstep : Workflow.step c s.workflow (.nodeSettled index result) = some u) :
      Moved c d index s .observes { s with workflow := u }

theorem launching_iff : s.launching index = true ↔ ∃ flow, Awaits s.workflow flow index := by
  unfold WorkflowNode.launching
  rw [Bool.or_eq_true, awaitsLaunch_iff, awaitsLaunch_iff]
  constructor
  · rintro (h | h)
    · exact ⟨_, h⟩
    · exact ⟨_, h⟩
  · rintro ⟨flow, h⟩
    cases flow with
    | start => exact .inl h
    | queue => exact .inr h

theorem moved_of_handles (h : s.step c d index .handles = some t) :
    Moved c d index s .handles t := by
  simp only [WorkflowNode.step] at h
  split at h
  · next hreturned =>
    obtain ⟨r, hrun, hreturned⟩ := Option.map_eq_some_iff.mp hreturned
    obtain ⟨hguard, h⟩ := Option.ite_none_right_eq_some.mp h
    simp only [Bool.and_eq_true, Option.isNone_iff_eq_none] at hguard
    split at h
    · cases h
      exact .handledAborted (launching_iff.mp hguard.1) hguard.2 hrun hreturned
    · cases h
      exact .handled (launching_iff.mp hguard.1) hguard.2 hrun hreturned
  · cases h

/-- A nested run that has succeeded is submitted; the other ends are final. -/
theorem moved_of_settles (h : s.step c d index .settles = some t) :
    Moved c d index s .settles t := by
  simp only [WorkflowNode.step] at h
  split at h
  · next outcome written hhandle houtcome hrecorded =>
    cases outcome with
    | cancelled | failure | deadlocked =>
      cases h
      exact .ended hhandle houtcome hrecorded rfl
    | success output =>
      obtain ⟨contract, hcontract, hsettled⟩ := Option.bind_eq_some_iff.mp h
      split at hsettled
      · cases hsettled
        exact .ended hhandle houtcome hrecorded h
      · next payload hparse =>
        obtain ⟨u, hu, rfl⟩ := Option.map_eq_some_iff.mp hsettled
        exact .submitted hhandle houtcome hrecorded hcontract hparse hu
  · next hhandle houtcome hrecorded =>
    cases h
    exact .unrecorded hhandle houtcome hrecorded
  · cases h

/-- **Every step is one of these.** -/
theorem moved_of_step {l : WorkflowNodeLabel} (h : s.step c d index l = some t) :
    Moved c d index s l t := by
  cases l with
  | workflow label =>
    obtain ⟨hpermits, hstep⟩ := Option.ite_none_right_eq_some.mp h
    obtain ⟨u, hu, rfl⟩ := Option.map_eq_some_iff.mp hstep
    cases hbegun : begun s.workflow label with
    | none => exact .workflow hpermits hu hbegun
    | some reason => exact .interrupted hpermits hu hbegun
  | starts =>
    obtain ⟨hguard, heq⟩ := Option.ite_none_right_eq_some.mp h
    cases heq
    simp only [Bool.and_eq_true, Option.isNone_iff_eq_none] at hguard
    exact .started (launching_iff.mp hguard.1.1) hguard.1.2 hguard.2
  | delegated label =>
    obtain ⟨r, hrun, hstep⟩ := Option.bind_eq_some_iff.mp h
    obtain ⟨r', hr', rfl⟩ := Option.map_eq_some_iff.mp hstep
    exact .delegated hrun hr'
  | handles => exact moved_of_handles h
  | records written =>
    obtain ⟨hguard, heq⟩ := Option.ite_none_right_eq_some.mp h
    cases heq
    simp only [Bool.and_eq_true, Option.isNone_iff_eq_none] at hguard
    obtain ⟨outcome, houtcome⟩ := Option.isSome_iff_exists.mp hguard.1
    exact .recorded houtcome hguard.2
  | settles => exact moved_of_settles h
  | replies =>
    simp only [WorkflowNode.step] at h
    split at h
    · next payload hhandle =>
      obtain ⟨result, hresult, rfl⟩ := Option.map_eq_some_iff.mp h
      exact .replied hhandle hresult
    · cases h
  | stores written =>
    simp only [WorkflowNode.step] at h
    split at h
    · next result hhandle =>
      cases h
      exact .stored hhandle
    · cases h
  | releases =>
    simp only [WorkflowNode.step] at h
    split at h
    · cases h
      exact .released
    · cases h
      exact .released
    · cases h
  | observes =>
    simp only [WorkflowNode.step] at h
    split at h
    · next result hhandle =>
      obtain ⟨u, hu, rfl⟩ := Option.map_eq_some_iff.mp h
      exact .observed hhandle hu
    · cases h

/-! ## The nested run -/

/-- The nested run stays where it is, or takes steps. -/
def Carried (d : WorkflowDelegation Y) (a b : Option (WorkflowRunInstance Y)) : Prop :=
  ∀ r, a = some r → ∃ ls r', b = some r' ∧ Run (Workflow.step d.request) Free r ls r'

theorem Carried.refl (a : Option (WorkflowRunInstance Y)) : Carried d a a :=
  fun r hr => ⟨[], r, hr, .nil r⟩

theorem Carried.trans {a b e : Option (WorkflowRunInstance Y)} (h₁ : Carried d a b)
    (h₂ : Carried d b e) : Carried d a e := by
  intro r hr
  obtain ⟨ls, r', hr', run⟩ := h₁ r hr
  obtain ⟨ms, u, hu, run'⟩ := h₂ r' hr'
  exact ⟨ls ++ ms, u, hu, run.trans run'⟩

theorem carried_tell (reason : String) (s : WorkflowNode X Y) :
    Carried d s.delegatedWorkflowRun (s.tell d reason).delegatedWorkflowRun := by
  intro r hr
  unfold WorkflowNode.tell
  rw [hr]
  cases hstep : Workflow.step d.request r (.interrupt reason) with
  | none => exact ⟨[], r, by simp [hstep], .nil r⟩
  | some r' => exact ⟨[.interrupt reason], r', by simp [hstep], .single trivial hstep⟩

theorem carried_abort (reason : String) (s : WorkflowNode X Y) :
    Carried d s.delegatedWorkflowRun (s.abort d reason).delegatedWorkflowRun := by
  unfold WorkflowNode.abort
  split
  · exact .refl _
  · split
    · exact carried_tell reason { s with signal := some reason, listening := false }
    · exact .refl _

theorem carried_stop (reason : String) (s : WorkflowNode X Y) :
    Carried d s.delegatedWorkflowRun (s.stop d index reason).delegatedWorkflowRun := by
  unfold WorkflowNode.stop
  split
  · exact carried_tell reason { s with stopping := s.delegatedWorkflowRun.map .called }
  · exact .refl _

theorem Moved.carried {l : WorkflowNodeLabel} (h : Moved c d index s l t) :
    Carried d s.delegatedWorkflowRun t.delegatedWorkflowRun := by
  cases h with
  | workflow | handled | recorded | ended | unrecorded | submitted | replied | stored | released
    | observed => exact .refl _
  | @interrupted label u reason =>
    exact (carried_abort reason { s with workflow := u }).trans (carried_stop reason _)
  | started _ hnone =>
    intro r hr
    cases hr.symm.trans hnone
  | delegated hrun hstep =>
    intro r hr
    cases hrun.symm.trans hr
    exact ⟨_, _, rfl, .single trivial hstep⟩
  | @handledAborted _ reason => exact carried_tell reason { s with handle := some .outcome }

/-- What a run keeps. -/
structure Later (r r' : WorkflowRunInstance Y) : Prop where
  sound : Sound r'
  returned : r.startFlow = .returned → r'.startFlow = .returned
  finished : r.finished = true → r'.finished = true
  outcome : ∀ outcome, r.outcome = some outcome → r'.outcome = some outcome

theorem later_of_run {ls : List Label} {r r' : WorkflowRunInstance Y} (h : Sound r)
    (run : Run (Workflow.step d.request) Free r ls r') : Later r r' := by
  refine run.invariant ⟨h, id, id, fun _ => id⟩ ?_
  intro a label b _ ha hstep
  exact
    { sound := ha.sound.step hstep
      returned := fun hr => returned_step ha.sound.wellStarted (ha.returned hr) hstep
      finished := fun hr => finished_rule.step hstep (ha.finished hr)
      outcome := fun o ho => (logged_step hstep).outcome ha.sound.whole o (ha.outcome o ho) }

/-- The workflow run is a run of its own, and the nested one is sound. -/
structure Parts (c : WorkflowStartRequest X) (s : WorkflowNode X Y) : Prop where
  run : ∃ ls, Run (Workflow.step c) Free Workflow.initial ls s.workflow
  nested : ∀ r, s.delegatedWorkflowRun = some r → Sound r

namespace Parts

theorem wellStarted (h : Parts c s) : WellStarted s.workflow :=
  let ⟨_, run⟩ := h.run
  wellStarted_of_run run

theorem threads (h : Parts c s) : Threads s.workflow :=
  let ⟨_, run⟩ := h.run
  threads_of_run run

theorem launching (h : Parts c s) : Launching s.workflow :=
  let ⟨_, run⟩ := h.run
  launching_of_run run

theorem granted (h : Parts c s) (index : Nat) : Granted s.workflow index :=
  let ⟨_, run⟩ := h.run
  granted_of_run index run

/-- No launch is under way while an interrupt waits for its nodes. -/
theorem not_awaits (h : Parts c s) {reason : String} {running : List Nat}
    (hactive : s.workflow.active = some (.interrupting reason running)) (flow : FlowId) :
    ¬ Awaits s.workflow flow index := by
  rintro ⟨remaining, outer, hframes⟩
  have hnone := frames_interrupting hactive (h.threads.interrupting reason running hactive).1 flow
  cases hnone.symm.trans hframes

theorem later (h : Parts c s) (hcarried : Carried d s.delegatedWorkflowRun t.delegatedWorkflowRun)
    {r : WorkflowRunInstance Y} (hr : s.delegatedWorkflowRun = some r) :
    ∃ r', t.delegatedWorkflowRun = some r' ∧ Later r r' :=
  let ⟨_, r', hr', run⟩ := hcarried r hr
  ⟨r', hr', later_of_run (h.nested r hr) run⟩

end Parts

/-- What the nested run has ended with stays. -/
theorem Parts.outcome (h : Parts c s) {l : WorkflowNodeLabel} (hmoved : Moved c d index s l t)
    {outcome : WorkflowOutcome} (hs : s.outcome = some outcome) : t.outcome = some outcome := by
  obtain ⟨r, hr, houtcome⟩ := Option.bind_eq_some_iff.mp hs
  obtain ⟨r', hr', hlater⟩ := h.later hmoved.carried hr
  rw [WorkflowNode.outcome, hr', Option.bind_some]
  exact hlater.outcome outcome houtcome

/-! ## The workflow run -/

theorem abort_fields (d : WorkflowDelegation Y) (reason : String) (s : WorkflowNode X Y) :
    (s.abort d reason).workflow = s.workflow ∧ (s.abort d reason).handle = s.handle ∧
      (s.abort d reason).heard = s.heard ∧ (s.abort d reason).recorded = s.recorded := by
  unfold WorkflowNode.abort
  split
  · exact ⟨rfl, rfl, rfl, rfl⟩
  · split <;> exact ⟨rfl, rfl, rfl, rfl⟩

theorem stop_fields (d : WorkflowDelegation Y) (index : Nat) (reason : String)
    (s : WorkflowNode X Y) :
    (s.stop d index reason).workflow = s.workflow ∧ (s.stop d index reason).handle = s.handle ∧
      (s.stop d index reason).heard = s.heard ∧ (s.stop d index reason).recorded = s.recorded := by
  unfold WorkflowNode.stop
  split <;> exact ⟨rfl, rfl, rfl, rfl⟩

/-- An interrupt starts no nested run. -/
theorem told_none (reason : String) {s : WorkflowNode X Y} (u : WorkflowRunInstance X)
    (h : s.delegatedWorkflowRun = none) :
    (({ s with workflow := u }.abort d reason).stop d index reason).delegatedWorkflowRun = none := by
  have habort : ({ s with workflow := u }.abort d reason).delegatedWorkflowRun = none := by
    unfold WorkflowNode.abort
    split
    · exact h
    · split <;> simp [WorkflowNode.tell, h]
  unfold WorkflowNode.stop
  split
  · simp [WorkflowNode.tell, habort]
  · exact habort

/-- An interrupt of the workflow run leaves the handle alone. -/
theorem told_fields (d : WorkflowDelegation Y) (index : Nat) (reason : String)
    (s : WorkflowNode X Y) (u : WorkflowRunInstance X) :
    (({ s with workflow := u }.abort d reason).stop d index reason).workflow = u ∧
      (({ s with workflow := u }.abort d reason).stop d index reason).handle = s.handle ∧
      (({ s with workflow := u }.abort d reason).stop d index reason).heard = s.heard ∧
      (({ s with workflow := u }.abort d reason).stop d index reason).recorded = s.recorded := by
  obtain ⟨hworkflow, hhandle, hheard, hrecorded⟩ := abort_fields d reason { s with workflow := u }
  obtain ⟨hworkflow', hhandle', hheard', hrecorded'⟩ :=
    stop_fields d index reason ({ s with workflow := u }.abort d reason)
  exact ⟨hworkflow'.trans hworkflow, hhandle'.trans hhandle, hheard'.trans hheard,
    hrecorded'.trans hrecorded⟩

/-- Where the step of the workflow run comes from, and what it does to the handle. -/
inductive WorkflowMove (c : WorkflowStartRequest X) (d : WorkflowDelegation Y) (index : Nat)
    (s t : WorkflowNode X Y) : Prop
  | same (hworkflow : t.workflow = s.workflow)
  | own {label : Label} (hpermits : s.permits index label = true)
      (hstep : Workflow.step c s.workflow label = some t.workflow) (hhandle : t.handle = s.handle)
      (hheard : t.heard = s.heard)
  | submitted {payload : Json} (hhandle : s.handle = some .outcome)
      (hstep : Workflow.step c s.workflow (.submit index payload) = some t.workflow)
      (hwaits : t.handle = some (.submitting payload)) (hheard : t.heard = s.heard)
  | observed {result : NodeSettlement} (hhandle : s.handle = some (.stored result))
      (hstep : Workflow.step c s.workflow (.nodeSettled index result) = some t.workflow)
      (hkept : t.handle = s.handle) (hheard : t.heard = s.heard)

theorem Moved.workflowMove {l : WorkflowNodeLabel} (h : Moved c d index s l t) :
    WorkflowMove c d index s t := by
  cases h with
  | workflow hpermits hstep => exact .own hpermits hstep rfl rfl
  | @interrupted label u reason hpermits hstep =>
    obtain ⟨hworkflow, hhandle, hheard, -⟩ := told_fields d index reason s u
    exact .own hpermits (by rw [hworkflow]; exact hstep) hhandle hheard
  | submitted hhandle _ _ _ _ hstep => exact .submitted hhandle hstep rfl rfl
  | observed hhandle hstep => exact .observed hhandle hstep rfl rfl
  | started | delegated | handled | handledAborted | recorded | ended | unrecorded | replied
    | stored | released => exact .same rfl

/-- The workflow run stays where it is, or takes one step. -/
theorem WorkflowMove.step (h : WorkflowMove c d index s t) :
    t.workflow = s.workflow ∨ ∃ label, Workflow.step c s.workflow label = some t.workflow := by
  cases h with
  | same hworkflow => exact .inl hworkflow
  | own _ hstep | submitted _ hstep | observed _ hstep => exact .inr ⟨_, hstep⟩

theorem Moved.dequeues {l : WorkflowNodeLabel} (h : Moved c d index s l t) :
    t.workflow = s.workflow ∨ ∃ label, Workflow.step c s.workflow label = some t.workflow ∧
      (label = .dequeue → l = .workflow .dequeue) := by
  cases h with
  | workflow _ hstep => exact .inr ⟨_, hstep, fun heq => by rw [heq]⟩
  | @interrupted label u reason _ hstep =>
    refine .inr ⟨label, ?_, fun heq => by rw [heq]⟩
    rw [(told_fields d index reason s u).1]
    exact hstep
  | submitted _ _ _ _ _ hstep => exact .inr ⟨_, hstep, fun heq => by cases heq⟩
  | observed _ hstep => exact .inr ⟨_, hstep, fun heq => by cases heq⟩
  | started | delegated | handled | handledAborted | recorded | ended | unrecorded | replied
    | stored | released => exact .inl rfl

theorem parts_initial : Parts c ({} : WorkflowNode X Y) :=
  ⟨⟨[], .nil _⟩, fun r hr => by cases hr⟩

theorem parts_step {l : WorkflowNodeLabel} (h : Parts c s) (hmoved : Moved c d index s l t) :
    Parts c t := by
  constructor
  · obtain ⟨ls, run⟩ := h.run
    rcases hmoved.workflowMove.step with hsame | ⟨label, hstep⟩
    · exact ⟨ls, hsame ▸ run⟩
    · exact ⟨_, run.snoc trivial hstep⟩
  · intro r' hr'
    cases hs : s.delegatedWorkflowRun with
    | some r =>
      obtain ⟨r'', hr'', hlater⟩ := h.later hmoved.carried hs
      cases hr'.symm.trans hr''
      exact hlater.sound
    | none =>
      -- the nested run starts here
      cases hmoved with
      | started =>
        cases hr'
        exact sound_initial
      | delegated hrun | handled _ _ hrun | handledAborted _ _ hrun => cases hs.symm.trans hrun
      | @interrupted _ u reason => cases (told_none reason u hs).symm.trans hr'
      | workflow | recorded | ended | unrecorded | submitted | replied | stored | released
        | observed => cases hs.symm.trans hr'

/-! ## The call that an interrupt awaits -/

/-- The nested run is finished. -/
def Over (s : WorkflowNode X Y) : Prop :=
  ∃ r, s.delegatedWorkflowRun = some r ∧ r.finished = true

theorem over_of_outcome (h : Parts c s) {outcome : WorkflowOutcome}
    (houtcome : s.outcome = some outcome) : Over s := by
  obtain ⟨r, hr, hended⟩ := Option.bind_eq_some_iff.mp houtcome
  refine ⟨r, hr, ?_⟩
  rw [← (h.nested r hr).whole.finished, hended]
  rfl

theorem over_step {l : WorkflowNodeLabel} (h : Parts c s) (hmoved : Moved c d index s l t)
    (hs : Over s) : Over t := by
  obtain ⟨r, hr, hfinished⟩ := hs
  obtain ⟨r', hr', hlater⟩ := h.later hmoved.carried hr
  exact ⟨r', hr', hlater.finished hfinished⟩

/-- The handle of the entry is stored in the workflow run. -/
def Monitored (s : WorkflowRunInstance X) (index : Nat) : Prop :=
  ∃ settled, s.handles[index]? = some (true, settled)

/-- The call that an interrupt awaits is in the queue of the nested run, or has settled. -/
structure Halting (index : Nat) (s : WorkflowNode X Y) : Prop where
  monitored : Monitored s.workflow index → s.handle.isSome = true
  returned : s.handle.isSome = true →
    ∃ r, s.delegatedWorkflowRun = some r ∧ r.startFlow = .returned
  due : ∀ before, s.stopping = some (.due before) →
    ∃ r, s.delegatedWorkflowRun = some r ∧ r.operations[before]? = some true
  resolved : s.stopping = some .resolved → Over s
  called : ∀ reason running, s.workflow.active = some (.interrupting reason running) →
    index ∈ running → Monitored s.workflow index → s.stopping.isSome = true

/-- The nested run has returned, so the call reaches its queue. -/
theorem tell_run (d : WorkflowDelegation Y) {r : WorkflowRunInstance Y} (reason : String)
    (s : WorkflowNode X Y)
    (hr : s.delegatedWorkflowRun = some r) (hreturned : r.startFlow = .returned) :
    ∃ r', (s.tell d reason).delegatedWorkflowRun = some r' ∧ r'.startFlow = .returned ∧
      r'.operations = r.operations ++ [true] ∧ r'.finished = r.finished := by
  refine ⟨{ r with queue := r.queue ++ [.interrupt reason] }, ?_, hreturned, ?_, rfl⟩
  · unfold WorkflowNode.tell
    rw [hr, Option.map_some, Workflow.step, hreturned]
    rfl
  · unfold WorkflowRunInstance.operations
    rw [List.map_append, List.append_assoc]
    rfl

/-- The call settles when its operation ends, and resolves when the nested run is finished. -/
theorem after_cases {r r' : WorkflowRunInstance Y} {before : Nat}
    (hstep : OperationsStep r r') (hbefore : r.operations[before]? = some true) :
    (∃ before', (Stopping.due before).after r r' = .due before' ∧
        r'.operations[before']? = some true) ∨
      (Stopping.due before).after r r' = .rejected ∨
      (Stopping.due before).after r r' = .resolved ∧ r'.finished = true := by
  have hlt := (List.getElem?_eq_some_iff.mp hbefore).1
  cases hstep with
  | added new h =>
    refine .inl ⟨before, ?_, ?_⟩
    · show (if _ then _ else _) = _
      rw [if_neg (by rw [h, List.length_append]; omega)]
    · rw [h, List.getElem?_append_left hlt]
      exact hbefore
  | ended operation h hover =>
    have hless : r'.operations.length < r.operations.length := by
      rw [h, List.length_cons]
      omega
    unfold Stopping.after
    simp only
    rw [if_pos hless]
    cases before with
    | zero =>
      rw [h] at hbefore
      cases hthrows : throws r r' with
      | true => exact .inr (.inl rfl)
      | false => exact .inr (.inr ⟨rfl, hover (Option.some.inj hbefore) hthrows⟩)
    | succ before =>
      rw [h] at hbefore
      exact .inl ⟨before, rfl, hbefore⟩

theorem monitored_kept {w u : WorkflowRunInstance X} (h : HandlesKept w u)
    (hu : Monitored u index) : Monitored w index :=
  let ⟨settled, hsettled⟩ := hu
  ⟨settled, handlesKept_before h hsettled⟩

/-- The workflow run has the handle of its entry from before, or takes it from this node. -/
theorem monitored_move (h : Parts c s) (hmove : WorkflowMove c d index s t)
    (ht : Monitored t.workflow index) :
    Monitored s.workflow index ∨
      (∃ flow, Awaits s.workflow flow index) ∧ s.handle.isSome = true ∧ t.handle = s.handle := by
  have hbefore : ∀ {label}, Workflow.step c s.workflow label = some t.workflow →
      Monitored s.workflow index ∨ ∃ flow, Awaits s.workflow flow index := fun hstep =>
    let ⟨_, hsettled⟩ := ht
    monitored_before (surroundings_step h.wellStarted hstep) hsettled
  cases hmove with
  | same hworkflow => exact .inl (hworkflow ▸ ht)
  | submitted _ hstep =>
    cases surroundings_step h.wellStarted hstep with
    | kept hl => cases hl
    | submitted _ _ hhandles => exact .inl (monitored_kept hhandles ht)
  | @observed result hhandle hstep hkept =>
    rcases hbefore hstep with hs | hawaits
    · exact .inl hs
    · exact .inr ⟨hawaits, by rw [hhandle]; rfl, hkept⟩
  | own hpermits hstep hhandle =>
    rcases hbefore hstep with hs | hawaits
    · exact .inl hs
    · cases hsur : surroundings_step h.wellStarted hstep with
      | resolved flow index' remaining outer hframes hhandles =>
        by_cases heq : index' = index
        · subst heq
          have hwaits : awaitsLaunch s.workflow index' flow = true :=
            awaitsLaunch_iff.mpr ⟨remaining, outer, hframes⟩
          refine .inr ⟨hawaits, ?_, hhandle⟩
          simpa [WorkflowNode.permits, hwaits] using hpermits
        · obtain ⟨settled, hsettled⟩ := ht
          rw [hhandles, List.getElem?_modify] at hsettled
          exact .inl ⟨settled, by simpa [heq] using hsettled⟩
      | settled index' entry settlement hentry hhandle' hhandles =>
        have hne : index' ≠ index := by simpa [WorkflowNode.permits] using hpermits
        obtain ⟨settled, hsettled⟩ := ht
        rw [hhandles, List.getElem?_modify] at hsettled
        exact .inl ⟨settled, by simpa [hne] using hsettled⟩
      | kept _ hhandles | taken _ hhandles | submitted _ _ hhandles | asked _ hhandles =>
        exact .inl (monitored_kept hhandles ht)

theorem Moved.handle_isSome {l : WorkflowNodeLabel} (h : Moved c d index s l t)
    (hs : s.handle.isSome = true) : t.handle.isSome = true := by
  cases h with
  | @interrupted label u reason =>
    rw [(told_fields d index reason s u).2.1]
    exact hs
  | handledAborted | ended | unrecorded | submitted | replied | stored | handled => rfl
  | workflow | started | delegated | recorded | released | observed => exact hs

theorem mem_interruptedHandles {w : WorkflowRunInstance X} :
    (interruptedHandles w).contains index = true ↔
      index ∈ runningEntries w ∧ Monitored w index := by
  rw [List.contains_iff_mem, interruptedHandles, List.mem_filter]
  refine and_congr_right fun _ => ?_
  unfold Monitored WorkflowRunInstance.handles
  rw [List.getElem?_map]
  cases w.nodes[index]? with
  | none => simp
  | some entry => simp

/-- What the queue does when it begins an interrupt. -/
theorem begun_cases {w u : WorkflowRunInstance X} {label : Label} {reason : String}
    (hbegun : begun w label = some reason) (hstep : Workflow.step c w label = some u) :
    w.active = none ∧ u.nodes = w.nodes ∧
      u.active = some (.interrupting reason (runningEntries w)) := by
  unfold begun at hbegun
  split at hbegun
  · split at hbegun
    · next reason' rest hactive hqueue =>
      split at hbegun
      · cases hbegun
      · next hfinished =>
        cases hbegun
        cases fired_of_step hstep with
        | takesInterrupt reason' rest' _ hqueue' =>
          cases hqueue.symm.trans hqueue'
          refine ⟨hactive, (interrupt_run reason).2, ?_⟩
          unfold stepInterrupt beginInterrupt
          simp only [Sync.bind_run, Sync.get_run, Sync.ite_run]
          rw [if_neg hfinished]
          rfl
        | takesSubmit _ _ _ _ _ hother => cases hqueue.symm.trans hother
        | takesSettle _ _ _ _ _ hother => cases hqueue.symm.trans hother
    · cases hbegun
  · cases hbegun

/-- The nested run after `controller.abort`. -/
theorem abort_run (d : WorkflowDelegation Y) {r : WorkflowRunInstance Y} (reason : String)
    (s : WorkflowNode X Y)
    (hr : s.delegatedWorkflowRun = some r) (hreturned : r.startFlow = .returned) :
    ∃ r', (s.abort d reason).delegatedWorkflowRun = some r' ∧ r'.startFlow = .returned := by
  unfold WorkflowNode.abort
  split
  · exact ⟨r, hr, hreturned⟩
  · split
    · obtain ⟨r', hr', hreturned', -⟩ := tell_run d reason
        { s with signal := some reason, listening := false } hr hreturned
      exact ⟨r', hr', hreturned'⟩
    · exact ⟨r, hr, hreturned⟩

/-- `entry.handle.interrupt(reason)` is the last operation of the nested run. -/
theorem stop_called (d : WorkflowDelegation Y) (index : Nat) {r : WorkflowRunInstance Y}
    (reason : String) {s : WorkflowNode X Y}
    (hcalled : (interruptedHandles s.workflow).contains index = true)
    (hr : s.delegatedWorkflowRun = some r) (hreturned : r.startFlow = .returned) :
    (s.stop d index reason).stopping = some (.due r.operations.length) ∧
      ∃ r', (s.stop d index reason).delegatedWorkflowRun = some r' ∧ r'.startFlow = .returned ∧
        r'.operations[r.operations.length]? = some true := by
  unfold WorkflowNode.stop
  rw [if_pos hcalled]
  refine ⟨?_, ?_⟩
  · show s.delegatedWorkflowRun.map _ = _
    rw [hr]
    rfl
  · obtain ⟨r', hr', hreturned', hoperations, -⟩ := tell_run d reason
      { s with stopping := s.delegatedWorkflowRun.map .called } hr hreturned
    refine ⟨r', hr', hreturned', ?_⟩
    rw [hoperations, List.getElem?_append_right (Nat.le_refl _), Nat.sub_self]
    rfl

theorem stop_skipped (d : WorkflowDelegation Y) (index : Nat) (reason : String)
    {s : WorkflowNode X Y}
    (hskipped : ¬ (interruptedHandles s.workflow).contains index = true) :
    s.stop d index reason = { s with stopping := none } :=
  if_neg hskipped

/-- The interrupt that begins calls the handle of a running entry. -/
theorem halting_interrupted {label : Label} {u : WorkflowRunInstance X} {reason : String}
    (h : Halting index s) (hbegun : begun s.workflow label = some reason)
    (hstep : Workflow.step c s.workflow label = some u)
    (hmonitored : Monitored u index → s.handle.isSome = true) :
    Halting index (({ s with workflow := u }.abort d reason).stop d index reason) := by
  obtain ⟨hworkflow, hhandle, -⟩ := told_fields d index reason s u
  obtain ⟨-, hnodes, hactive⟩ := begun_cases hbegun hstep
  have habort := (abort_fields d reason { s with workflow := u }).1
  have hreturned : s.handle.isSome = true → ∃ r,
      ({ s with workflow := u }.abort d reason).delegatedWorkflowRun = some r ∧
        r.startFlow = .returned := by
    intro hs
    obtain ⟨r, hr, hreturned⟩ := h.returned hs
    exact abort_run d reason { s with workflow := u } hr hreturned
  by_cases hcalled : (interruptedHandles u).contains index = true
  · obtain ⟨r, hr, hreturned'⟩ := hreturned (hmonitored (mem_interruptedHandles.mp hcalled).2)
    obtain ⟨hstopping, r', hr', hret', hlast⟩ :=
      stop_called d index reason (by rw [habort]; exact hcalled) hr hreturned'
    refine ⟨fun hm => ?_, fun _ => ⟨r', hr', hret'⟩, fun before hdue => ?_, fun hover => ?_,
      fun _ _ _ _ _ => by rw [hstopping]; rfl⟩
    · rw [hhandle]
      exact hmonitored (hworkflow ▸ hm)
    · cases hstopping.symm.trans hdue
      exact ⟨r', hr', hlast⟩
    · cases hstopping.symm.trans hover
  · have hskipped := stop_skipped d index reason
      (s := { s with workflow := u }.abort d reason) (by rw [habort]; exact hcalled)
    rw [hskipped] at hworkflow hhandle ⊢
    refine ⟨fun hm => ?_, fun hs => ?_, fun before hdue => (by cases hdue),
      fun hover => (by cases hover), ?_⟩
    · rw [hhandle]
      exact hmonitored (hworkflow ▸ hm)
    · exact hreturned (hhandle ▸ hs)
    · intro reason' running hactive' hmem hm
      rw [hworkflow] at hactive' hm
      cases hactive.symm.trans hactive'
      refine absurd (mem_interruptedHandles.mpr ⟨?_, hm⟩) hcalled
      unfold runningEntries at hmem ⊢
      rw [hnodes]
      exact hmem

/-- What a step does to the call otherwise. -/
inductive Called (s t : WorkflowNode X Y) : Prop
  | same (hstopping : t.stopping = s.stopping)
      (hrun : t.delegatedWorkflowRun = s.delegatedWorkflowRun)
  | told {r r' : WorkflowRunInstance Y} (hstopping : t.stopping = s.stopping)
      (hr : s.delegatedWorkflowRun = some r) (hr' : t.delegatedWorkflowRun = some r')
      (hadded : ∃ new, r'.operations = r.operations ++ new)
  | advanced {r r' : WorkflowRunInstance Y} (hr : s.delegatedWorkflowRun = some r)
      (hr' : t.delegatedWorkflowRun = some r') (hstep : OperationsStep r r')
      (hstopping : t.stopping = s.stopping.map (·.after r r'))
  | fresh (hr : s.delegatedWorkflowRun = none) (hstopping : t.stopping = s.stopping)

theorem Called.isSome (h : Called s t) : t.stopping.isSome = s.stopping.isSome := by
  cases h with
  | same hstopping | told hstopping | fresh _ hstopping => rw [hstopping]
  | advanced _ _ _ hstopping => rw [hstopping, Option.isSome_map]

theorem Called.due (h : Called s t) (hs : Halting index s) :
    (∀ before, t.stopping = some (.due before) →
        ∃ r, t.delegatedWorkflowRun = some r ∧ r.operations[before]? = some true) ∧
      (t.stopping = some .resolved → s.stopping = some .resolved ∨ Over t) := by
  cases h with
  | same hstopping hrun =>
    rw [hstopping, hrun]
    exact ⟨hs.due, .inl⟩
  | told hstopping hr hr' hadded =>
    rw [hstopping]
    refine ⟨fun before hdue => ?_, .inl⟩
    obtain ⟨r, hsame, hbefore⟩ := hs.due before hdue
    obtain ⟨new, hnew⟩ := hadded
    cases hr.symm.trans hsame
    refine ⟨_, hr', ?_⟩
    rw [hnew, List.getElem?_append_left (List.getElem?_eq_some_iff.mp hbefore).1]
    exact hbefore
  | fresh hnone hstopping =>
    rw [hstopping]
    refine ⟨fun before hdue => ?_, .inl⟩
    obtain ⟨r, hr, -⟩ := hs.due before hdue
    cases hnone.symm.trans hr
  | advanced hr hr' hstep hstopping =>
    rw [hstopping]
    constructor
    · intro before hdue
      obtain ⟨stopping, hstopping, hafter⟩ := Option.map_eq_some_iff.mp hdue
      cases stopping with
      | resolved | rejected => cases hafter
      | due first =>
        obtain ⟨r, hsame, hfirst⟩ := hs.due first hstopping
        cases hr.symm.trans hsame
        rcases after_cases hstep hfirst with ⟨next, hnext, hbefore⟩ | hnext | ⟨hnext, -⟩
        · cases hnext.symm.trans hafter
          exact ⟨_, hr', hbefore⟩
        · cases hnext.symm.trans hafter
        · cases hnext.symm.trans hafter
    · intro hover
      obtain ⟨stopping, hstopping, hafter⟩ := Option.map_eq_some_iff.mp hover
      cases stopping with
      | resolved => exact .inl hstopping
      | rejected => cases hafter
      | due first =>
        obtain ⟨r, hsame, hfirst⟩ := hs.due first hstopping
        cases hr.symm.trans hsame
        rcases after_cases hstep hfirst with ⟨next, hnext, -⟩ | hnext | ⟨-, hfinished⟩
        · cases hnext.symm.trans hafter
        · cases hnext.symm.trans hafter
        · exact .inr ⟨_, hr', hfinished⟩

/-- A step that begins no interrupt. -/
theorem Moved.called {l : WorkflowNodeLabel} (h : Moved c d index s l t) (hs : Parts c s)
    (hbegun : ∀ label, l = .workflow label → begun s.workflow label = none) : Called s t := by
  cases h with
  | interrupted _ _ hsome => cases (hbegun _ rfl).symm.trans hsome
  | started _ hnone => exact .fresh hnone rfl
  | delegated hr hstep =>
    have hsound := hs.nested _ hr
    exact .advanced hr rfl (operations_step hsound.wellStarted hsound.threads hstep) rfl
  | @handledAborted r reason _ _ hr hreturned =>
    obtain ⟨r', hr', -, hoperations, -⟩ :=
      tell_run d reason { s with handle := some .outcome } hr hreturned
    exact .told rfl hr hr' ⟨_, hoperations⟩
  | workflow | handled | recorded | ended | unrecorded | submitted | replied | stored | released
    | observed => exact .same rfl rfl

/-- A node that has a handle has a nested run that has been started. -/
theorem returned_move {l : WorkflowNodeLabel} (h : Halting index s) (hs : Parts c s)
    (hmoved : Moved c d index s l t) (ht : t.handle.isSome = true) :
    ∃ r, t.delegatedWorkflowRun = some r ∧ r.startFlow = .returned := by
  have hold : s.handle.isSome = true →
      ∃ r, t.delegatedWorkflowRun = some r ∧ r.startFlow = .returned := by
    intro hsome
    obtain ⟨r, hr, hreturned⟩ := h.returned hsome
    obtain ⟨r', hr', hlater⟩ := hs.later hmoved.carried hr
    exact ⟨r', hr', hlater.returned hreturned⟩
  cases hmoved with
  | handled _ _ hr hreturned => exact ⟨_, hr, hreturned⟩
  | @handledAborted r reason _ _ hr hreturned =>
    obtain ⟨r', hr', hreturned', -⟩ :=
      tell_run d reason { s with handle := some .outcome } hr hreturned
    exact ⟨r', hr', hreturned'⟩
  | @interrupted label u reason =>
    exact hold ((told_fields d index reason s u).2.1 ▸ ht)
  | ended hhandle | unrecorded hhandle | submitted hhandle | replied hhandle | stored hhandle =>
    exact hold (by rw [hhandle]; rfl)
  | workflow | started | delegated | recorded | released | observed => exact hold ht

theorem halting_step {l : WorkflowNodeLabel} (h : Halting index s) (hs : Parts c s)
    (hmoved : Moved c d index s l t) : Halting index t := by
  have hmonitored : Monitored t.workflow index → t.handle.isSome = true := by
    intro hm
    rcases monitored_move hs hmoved.workflowMove hm with hbefore | ⟨-, hsome, -⟩
    · exact hmoved.handle_isSome (h.monitored hbefore)
    · exact hmoved.handle_isSome hsome
  by_cases hbegun : ∀ label, l = .workflow label → begun s.workflow label = none
  · have hcalled := hmoved.called hs hbegun
    refine ⟨hmonitored, returned_move h hs hmoved, (hcalled.due h).1, fun hover => ?_, ?_⟩
    · rcases (hcalled.due h).2 hover with hold | hnew
      · exact over_step hs hmoved (h.resolved hold)
      · exact hnew
    · intro reason running hactive hmem hm
      rw [hcalled.isSome]
      have hbefore : s.workflow.active = some (.interrupting reason running) := by
        rcases hmoved.dequeues with hsame | ⟨label, hstep, hl⟩
        · exact hsame ▸ hactive
        · rcases interrupting_step hs.wellStarted hstep hactive with
            hold | ⟨rest, hlabel, hidle, hqueue, hfinished, -⟩
          · exact hold
          · have hnone := hbegun .dequeue (hl hlabel)
            simp [begun, hidle, hqueue, hfinished] at hnone
      rcases monitored_move hs hmoved.workflowMove hm with hold | ⟨⟨flow, hawaits⟩, -⟩
      · exact h.called reason running hbefore hmem hold
      · exact absurd hawaits (hs.not_awaits hbefore flow)
  · simp only [not_forall] at hbegun
    obtain ⟨label, rfl, hsome⟩ := hbegun
    cases hmoved with
    | workflow _ _ hnone => exact absurd hnone hsome
    | @interrupted _ u reason hpermits hstep hreason =>
      refine halting_interrupted h hreason hstep fun hm => ?_
      obtain ⟨settled, hsettled⟩ := hm
      refine h.monitored ⟨settled, ?_⟩
      obtain ⟨-, hnodes, -⟩ := begun_cases hreason hstep
      unfold WorkflowRunInstance.handles at hsettled ⊢
      rw [← hnodes]
      exact hsettled

end Nested

end EphemeralAgent.Nodes
