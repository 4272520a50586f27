import EphemeralAgent.Nodes.Halting

/-!
# Nested workflow runs

What a workflow run gets from a node that is a workflow run itself, and what becomes of the nested
run when the workflow run is done with its entry.

* `Asked`, `SettledBy` — what the node submits and what it settles with, by the end of the nested
  run
* `Left` — how the entry is closed
* `nested_run` — **an entry that is closed leaves no nested run behind**
-/

namespace EphemeralAgent.Nodes

open Lib Workflow

namespace Nested

variable {X Y : Type} {c : WorkflowStartRequest X} {d : WorkflowDelegation Y} {index : Nat}
  {s t : WorkflowNode X Y}

/-! ## The submission -/

/-- This is what `settle()` submits, once the outcome of the nested run has been written. -/
def Asked (d : WorkflowDelegation Y) (index : Nat) (s : WorkflowNode X Y) (payload : Json) : Prop :=
  ∃ output contract, s.outcome = some (.success output) ∧ s.recorded = some (.ok ()) ∧
    s.contract index = some contract ∧ d.parse contract output = .ok payload

/-- How often the port has been called, and how many answers have been heard. -/
def Made (calls heard : Nat) : Option Settling → Prop
  | none | some .outcome => calls = 0 ∧ heard = 0
  | some (.submitting _) => calls = 1 ∧ heard = 0
  | some _ => calls = heard ∧ heard ≤ 1

/-- The port is called at most once, and for a nested run that has succeeded. -/
structure Calls (d : WorkflowDelegation Y) (index : Nat) (s : WorkflowNode X Y) : Prop where
  made : Made (s.workflow.callsFor index) s.heard s.handle
  waits : ∀ payload, s.handle = some (.submitting payload) → Asked d index s payload
  queued : ∀ payload, .submit index payload ∈ s.workflow.queue → Asked d index s payload
  asked : 0 < s.workflow.callsFor index → ∃ payload, Asked d index s payload

theorem contract_kept {w u : WorkflowRunInstance X} {label : Label} (hwell : WellStarted w)
    (hstep : Workflow.step c w label = some u) {contract : NodeOutcomeContract}
    (h : w.nodes[index]?.map (·.start.outcome) = some contract) :
    u.nodes[index]?.map (·.start.outcome) = some contract := by
  have hlabels : ∀ v : WorkflowRunInstance X, v.nodes[index]?.map (·.start.outcome) =
      v.labels[index]?.map (·.1.outcome) := by
    intro v
    rw [WorkflowRunInstance.labels, List.getElem?_map, Option.map_map]
    rfl
  obtain ⟨more, hmore⟩ := labels_step hwell hstep
  rw [hlabels] at h ⊢
  obtain ⟨label, hlabel, -⟩ := Option.map_eq_some_iff.mp h
  rw [hmore, List.getElem?_append_left (List.getElem?_eq_some_iff.mp hlabel).1]
  exact h

theorem Moved.contract {l : WorkflowNodeLabel} (h : Moved c d index s l t) (hs : Parts c s)
    {contract : NodeOutcomeContract} (hcontract : s.contract index = some contract) :
    t.contract index = some contract := by
  rcases h.workflowMove.step with hsame | ⟨label, hstep⟩
  · rw [WorkflowNode.contract, hsame]
    exact hcontract
  · exact contract_kept hs.wellStarted hstep hcontract

/-- `delegatedWorkflowRun.outcome()` settles once. -/
theorem Moved.recorded_kept {l : WorkflowNodeLabel} (h : Moved c d index s l t)
    {written : Except String Unit} (hs : s.recorded = some written) :
    t.recorded = some written := by
  cases h with
  | recorded _ hnone => cases hnone.symm.trans hs
  | @interrupted label u reason => exact (told_fields d index reason s u).2.2.2.trans hs
  | workflow | started | delegated | handled | handledAborted | ended | unrecorded | submitted
    | replied | stored | released | observed => exact hs

theorem Asked.step {l : WorkflowNodeLabel} {payload : Json} (h : Asked d index s payload)
    (hs : Parts c s) (hmoved : Moved c d index s l t) : Asked d index t payload := by
  obtain ⟨output, contract, houtcome, hrecorded, hcontract, hparse⟩ := h
  exact ⟨output, contract, hs.outcome hmoved houtcome, hmoved.recorded_kept hrecorded,
    hmoved.contract hs hcontract, hparse⟩

theorem not_submit_of_permits {label : Label} (h : s.permits index label = true)
    (payload : Json) : label ≠ .submit index payload := by
  rintro rfl
  simp [WorkflowNode.permits] at h

/-- The port is called by this node only. -/
theorem callsFor_move (hs : Parts c s) (h : WorkflowMove c d index s t) :
    (t.workflow.callsFor index = s.workflow.callsFor index ∨
        ∃ payload, t.handle = some (.submitting payload) ∧
          t.workflow.callsFor index = s.workflow.callsFor index + 1) ∧
      ∃ more, t.workflow.answersFor index = s.workflow.answersFor index ++ more := by
  cases h with
  | same hworkflow => exact ⟨.inl (by rw [hworkflow]), [], by rw [hworkflow, List.append_nil]⟩
  | own hpermits hstep =>
    obtain ⟨hcalls, hmore⟩ := callsFor_step (portStep_of_step index hs.wellStarted hstep)
      (not_submit_of_permits hpermits)
    exact ⟨.inl hcalls, hmore⟩
  | submitted _ hstep hwaits =>
    obtain ⟨hcalls, hanswers, -⟩ := callsFor_submit hs.wellStarted hstep
    exact ⟨.inr ⟨_, hwaits, hcalls⟩, [], by rw [hanswers, List.append_nil]⟩
  | observed _ hstep =>
    obtain ⟨hcalls, hmore⟩ := callsFor_step (portStep_of_step index hs.wellStarted hstep)
      fun payload => (by simp)
    exact ⟨.inl hcalls, hmore⟩

theorem made_step {l : WorkflowNodeLabel} (h : Calls d index s) (hs : Parts c s)
    (hmoved : Moved c d index s l t) : Made (t.workflow.callsFor index) t.heard t.handle := by
  have hmade := h.made
  -- the port is called in one kind of step only
  have hsame : (∀ payload, t.handle ≠ some (.submitting payload)) →
      t.workflow.callsFor index = s.workflow.callsFor index := by
    intro hne
    rcases (callsFor_move hs hmoved.workflowMove).1 with heq | ⟨payload, hwaits, -⟩
    · exact heq
    · exact absurd hwaits (hne payload)
  cases hmoved with
  | workflow hpermits hstep =>
    rw [show WorkflowRunInstance.callsFor _ index = s.workflow.callsFor index from
      (callsFor_step (portStep_of_step index hs.wellStarted hstep)
        (not_submit_of_permits hpermits)).1]
    exact hmade
  | @interrupted label u reason hpermits hstep =>
    obtain ⟨hworkflow, hhandle, hheard, -⟩ := told_fields d index reason s u
    rw [hworkflow, hhandle, hheard, (callsFor_step (portStep_of_step index hs.wellStarted hstep)
        (not_submit_of_permits hpermits)).1]
    exact hmade
  | observed hhandle hstep =>
    rw [show WorkflowRunInstance.callsFor _ index = s.workflow.callsFor index from
      (callsFor_step (portStep_of_step index hs.wellStarted hstep) fun _ => (by simp)).1]
    exact hmade
  | started | delegated | recorded | released => exact hmade
  | handled _ hhandle | handledAborted _ hhandle =>
    rw [hhandle] at hmade
    exact hmade
  | ended hhandle | unrecorded hhandle =>
    rw [hhandle] at hmade
    obtain ⟨hcalls, hheard⟩ := hmade
    refine ⟨hcalls.trans hheard.symm, ?_⟩
    show s.heard ≤ 1
    omega
  | submitted hhandle _ _ _ _ hstep =>
    rw [hhandle] at hmade
    obtain ⟨hcalls, hheard⟩ := hmade
    refine ⟨?_, hheard⟩
    rw [(callsFor_submit hs.wellStarted hstep).1, hcalls]
  | replied hhandle =>
    rw [hhandle] at hmade
    obtain ⟨hcalls, hheard⟩ := hmade
    refine ⟨?_, ?_⟩
    · show s.workflow.callsFor index = s.heard + 1
      omega
    · show s.heard + 1 ≤ 1
      omega
  | @stored result written hhandle =>
    rw [hhandle] at hmade
    cases written <;> exact hmade

theorem queued_step {l : WorkflowNodeLabel} (h : Calls d index s) (hs : Parts c s)
    (hmoved : Moved c d index s l t) (payload : Json)
    (hmem : .submit index payload ∈ t.workflow.queue) : Asked d index t payload := by
  have hold : .submit index payload ∈ s.workflow.queue → Asked d index t payload :=
    fun hs' => (h.queued payload hs').step hs hmoved
  have hstep : ∀ {label}, (∀ payload, label ≠ .submit index payload) →
      Workflow.step c s.workflow label = some t.workflow → Asked d index t payload := by
    intro label hne hstep
    cases surroundings_step hs.wellStarted hstep with
    | kept _ _ hqueue => exact hold (hqueue ▸ hmem)
    | taken operation _ hqueue => exact hold (hqueue ▸ List.mem_cons_of_mem _ hmem)
    | submitted entry payload' _ hqueue =>
      rw [hqueue, List.mem_append, List.mem_singleton] at hmem
      rcases hmem with hmem | heq
      · exact hold hmem
      · cases heq
        exact absurd rfl (hne payload)
    | asked reason _ hqueue => exact hold (by simpa [hqueue] using hmem)
    | resolved _ _ _ _ _ _ hqueue => exact hold (hqueue ▸ hmem)
    | settled _ _ _ _ _ _ hqueue =>
      rcases hqueue with ⟨hqueue, -⟩ | ⟨monitored, -, hqueue⟩
      · exact hold (hqueue ▸ hmem)
      · exact hold (by simpa [hqueue] using hmem)
  cases hmoved with
  | @submitted output contract payload' u hhandle houtcome hrecorded hcontract hparse hsubmit =>
    cases surroundings_step hs.wellStarted hsubmit with
    | kept hl => cases hl
    | submitted _ _ _ hqueue =>
      have hmem' : .submit index payload ∈ u.queue := hmem
      rw [hqueue, List.mem_append, List.mem_singleton] at hmem'
      rcases hmem' with hmem' | heq
      · exact hold hmem'
      · cases heq
        exact ⟨output, contract, houtcome, hrecorded,
          contract_kept hs.wellStarted hsubmit hcontract, hparse⟩
  | workflow hpermits hstep' => exact hstep (not_submit_of_permits hpermits) hstep'
  | @interrupted label u reason hpermits hstep' =>
    refine @hstep label (not_submit_of_permits hpermits) ?_
    rw [(told_fields d index reason s u).1]
    exact hstep'
  | observed _ hstep' => exact hstep (fun _ => by simp) hstep'
  | started | delegated | handled | handledAborted | recorded | ended | unrecorded | replied
    | stored | released => exact hold hmem

theorem calls_step {l : WorkflowNodeLabel} (h : Calls d index s) (hs : Parts c s)
    (hmoved : Moved c d index s l t) : Calls d index t := by
  have hwaits : ∀ payload, t.handle = some (.submitting payload) → Asked d index t payload := by
    intro payload ht
    have hold : s.handle = some (.submitting payload) → Asked d index t payload :=
      fun hs' => (h.waits payload hs').step hs hmoved
    cases hmoved with
    | @submitted output contract payload' u hhandle houtcome hrecorded hcontract hparse hstep =>
      cases ht
      exact ⟨output, contract, houtcome, hrecorded,
        contract_kept hs.wellStarted hstep hcontract, hparse⟩
    | @interrupted label u reason => exact hold ((told_fields d index reason s u).2.1 ▸ ht)
    | @stored result written => cases written <;> cases ht
    | handled | handledAborted | ended | unrecorded | replied => cases ht
    | workflow | started | delegated | recorded | released | observed => exact hold ht
  refine ⟨made_step h hs hmoved, hwaits, queued_step h hs hmoved, fun hpos => ?_⟩
  rcases (callsFor_move hs hmoved.workflowMove).1 with heq | ⟨payload, hhandle, -⟩
  · obtain ⟨payload, hasked⟩ := h.asked (heq ▸ hpos)
    exact ⟨payload, hasked.step hs hmoved⟩
  · exact ⟨payload, hwaits payload hhandle⟩

/-! ## The settlement -/

/-- What the node settles with, by how `delegatedWorkflowRun.outcome()` has settled, the end of the
nested run and the answers of the port. -/
inductive SettledBy (d : WorkflowDelegation Y) (contract : Option NodeOutcomeContract)
    (answers : List SubmissionResult) :
    Except String Unit → WorkflowOutcome → NodeSettlement → Prop
  | cancelled (reason : String) :
      SettledBy d contract answers (.ok ()) (.cancelled reason) (.cancelled (some reason))
  | failed (reason : Option String) (output : Option Json) :
      SettledBy d contract answers (.ok ()) (.failure reason output)
        (.failed (reason.getD "workflow ended with failure"))
  | deadlocked (reason : String) (report : Option JsonObject) :
      SettledBy d contract answers (.ok ()) (.deadlocked reason report) (.failed reason)
  | unfit {output : Option Json} {known : NodeOutcomeContract} {issues : String}
      (hcontract : contract = some known) (hparse : d.parse known output = .error issues) :
      SettledBy d contract answers (.ok ()) (.success output)
        (.rejected ("delegated workflow output did not satisfy " ++ known.name))
  | answered {output : Option Json} {known : NodeOutcomeContract} {payload : Json}
      {result : SubmissionResult} (hcontract : contract = some known)
      (hparse : d.parse known output = .ok payload) (hanswer : result ∈ answers) :
      SettledBy d contract answers (.ok ()) (.success output) (settleSubmission result)
  /-- The store of the nested run has thrown. -/
  | unrecorded (outcome : WorkflowOutcome) (message : String) :
      SettledBy d contract answers (.error message) outcome (.failed message)

/-- The settlement that the handle has come to. -/
def result (s : WorkflowNode X Y) : Option NodeSettlement :=
  match s.handle with
  | some (.finishing result) => some result
  | some (.stored result) => some result
  | _ => none

/-- The settlement comes from the end of the nested run, or from what its store has thrown. -/
def Results (d : WorkflowDelegation Y) (index : Nat) (s : WorkflowNode X Y) : Prop :=
  ∀ settlement, result s = some settlement → ∃ recorded outcome, s.recorded = some recorded ∧
    s.outcome = some outcome ∧
      SettledBy d (s.contract index) (s.workflow.answersFor index) recorded outcome settlement

theorem SettledBy.later {contract contract' : Option NodeOutcomeContract}
    {answers answers' : List SubmissionResult} {recorded : Except String Unit}
    {outcome : WorkflowOutcome} {settlement : NodeSettlement}
    (h : SettledBy d contract answers recorded outcome settlement)
    (hcontract : ∀ known, contract = some known → contract' = some known)
    (hanswers : answers ⊆ answers') : SettledBy d contract' answers' recorded outcome settlement := by
  cases h with
  | cancelled reason => exact .cancelled reason
  | failed reason output => exact .failed reason output
  | deadlocked reason report => exact .deadlocked reason report
  | unfit hknown hparse => exact .unfit (hcontract _ hknown) hparse
  | answered hknown hparse hanswer => exact .answered (hcontract _ hknown) hparse (hanswers hanswer)
  | unrecorded outcome message => exact .unrecorded outcome message

/-- `settle()` without a submission. -/
theorem settledBy_settle {answers : List SubmissionResult} {outcome : WorkflowOutcome}
    {settlement : NodeSettlement}
    (h : s.settle c d index outcome = some { s with handle := some (.finishing settlement) }) :
    SettledBy d (s.contract index) answers (.ok ()) outcome settlement := by
  have hhandle := congrArg (Option.map (·.handle)) h
  cases outcome with
  | cancelled reason =>
    cases hhandle
    exact .cancelled reason
  | failure reason output =>
    cases hhandle
    exact .failed reason output
  | deadlocked reason report =>
    cases hhandle
    exact .deadlocked reason report
  | success output =>
    cases hcontract : s.contract index with
    | none => simp [WorkflowNode.settle, hcontract] at h
    | some known =>
      rw [WorkflowNode.settle, hcontract, Option.bind_some] at hhandle
      cases hparse : d.parse known output with
      | error issues =>
        simp only [hparse] at hhandle
        cases hhandle
        exact .unfit rfl hparse
      | ok payload =>
        -- a submission waits for its answer
        simp only [hparse, WorkflowNode.submit, Option.map_map] at hhandle
        obtain ⟨u, -, hu⟩ := Option.map_eq_some_iff.mp hhandle
        cases hu

theorem results_step {l : WorkflowNodeLabel} (h : Results d index s) (hcalls : Calls d index s)
    (hs : Parts c s) (hmoved : Moved c d index s l t) : Results d index t := by
  obtain ⟨-, more, hmore⟩ := callsFor_move hs hmoved.workflowMove
  have hlater : ∀ {recorded outcome settlement},
      SettledBy d (s.contract index) (s.workflow.answersFor index) recorded outcome settlement →
      SettledBy d (t.contract index) (t.workflow.answersFor index) recorded outcome settlement := by
    intro recorded outcome settlement hsettled
    refine hsettled.later (fun known hknown => hmoved.contract hs hknown) ?_
    rw [hmore]
    exact List.subset_append_left _ _
  have hkept : result t = result s → Results d index t := by
    intro hsame settlement ht
    obtain ⟨recorded, outcome, hrecorded, houtcome, hsettled⟩ := h settlement (hsame.symm.trans ht)
    exact ⟨recorded, outcome, hmoved.recorded_kept hrecorded, hs.outcome hmoved houtcome,
      hlater hsettled⟩
  cases hmoved with
  | @interrupted label u reason =>
    refine hkept ?_
    unfold result
    rw [(told_fields d index reason s u).2.1]
  | workflow | started | delegated | recorded | released | observed => exact hkept rfl
  | handled | handledAborted | submitted =>
    intro settlement ht
    cases ht
  | @ended outcome settlement hhandle houtcome hrecorded hsettle =>
    rintro settlement' ⟨⟩
    exact ⟨.ok (), outcome, hrecorded, houtcome, settledBy_settle hsettle⟩
  | @unrecorded outcome message hhandle houtcome hrecorded =>
    rintro settlement' ⟨⟩
    exact ⟨.error message, outcome, hrecorded, houtcome, .unrecorded outcome message⟩
  | @replied payload reply hhandle hreply =>
    rintro settlement ⟨⟩
    obtain ⟨output, contract, houtcome, hrecorded, hcontract, hparse⟩ := hcalls.waits payload hhandle
    exact ⟨.ok (), .success output, hrecorded, houtcome,
      .answered hcontract hparse (List.mem_of_getElem? hreply)⟩
  | @stored settlement written hhandle =>
    cases written with
    | false =>
      intro settlement' ht
      cases ht
    | true =>
      refine hkept ?_
      unfold result
      rw [hhandle]
      rfl

/-! ## How the entry is closed -/

/-- The queue has the settlement of the entry from this node. -/
def Queued (index : Nat) (s : WorkflowNode X Y) : Prop :=
  ∀ settlement, .settle index settlement ∈ s.workflow.queue →
    ∃ result, s.handle = some (.stored result)

theorem Moved.stored_kept {l : WorkflowNodeLabel} (h : Moved c d index s l t)
    {result : NodeSettlement} (hs : s.handle = some (.stored result)) :
    t.handle = some (.stored result) := by
  cases h with
  | @interrupted label u reason => rw [(told_fields d index reason s u).2.1, hs]
  | workflow | started | delegated | recorded | released | observed => exact hs
  | handled _ hother | handledAborted _ hother | ended hother | unrecorded hother | submitted hother
    | replied hother | stored hother => cases hs.symm.trans hother

theorem settles_step {l : WorkflowNodeLabel} (h : Queued index s) (hs : Parts c s)
    (hmoved : Moved c d index s l t) : Queued index t := by
  intro settlement hmem
  have hold : .settle index settlement ∈ s.workflow.queue →
      ∃ result, t.handle = some (.stored result) := by
    intro hs'
    obtain ⟨result, hresult⟩ := h settlement hs'
    exact ⟨result, hmoved.stored_kept hresult⟩
  cases hmoved.workflowMove with
  | same hworkflow => exact hold (hworkflow ▸ hmem)
  | submitted _ hstep =>
    cases surroundings_step hs.wellStarted hstep with
    | kept hl => cases hl
    | submitted _ _ _ hqueue => exact hold (by simpa [hqueue] using hmem)
  | observed hhandle => exact ⟨_, hmoved.stored_kept hhandle⟩
  | own hpermits hstep =>
    cases surroundings_step hs.wellStarted hstep with
    | kept _ _ hqueue => exact hold (hqueue ▸ hmem)
    | taken operation _ hqueue => exact hold (hqueue ▸ List.mem_cons_of_mem _ hmem)
    | submitted _ _ _ hqueue => exact hold (by simpa [hqueue] using hmem)
    | asked _ _ hqueue => exact hold (by simpa [hqueue] using hmem)
    | resolved _ _ _ _ _ _ hqueue => exact hold (hqueue ▸ hmem)
    | settled index' _ _ _ _ _ hqueue =>
      have hne : index' ≠ index := by simpa [WorkflowNode.permits] using hpermits
      rcases hqueue with ⟨hqueue, -⟩ | ⟨monitored, -, hqueue⟩
      · exact hold (hqueue ▸ hmem)
      · rw [hqueue, List.mem_append, List.mem_singleton] at hmem
        rcases hmem with hmem | heq
        · exact hold hmem
        · cases heq
          exact absurd rfl hne

/-- The launch of the entry has thrown, or it has never had a handle. -/
structure Forsaken (w : WorkflowRunInstance X) (index : Nat) : Prop where
  unmonitored : ¬ Monitored w index
  awaits : ∀ flow, ¬ Awaits w flow index

theorem forsaken_step {w u : WorkflowRunInstance X} {label : Label} (h : Forsaken w index)
    (hwell : WellStarted w) (hlaunching : Launching w) (hindex : index < w.nodes.length)
    (hstep : Workflow.step c w label = some u) : Forsaken u index := by
  have hsur := surroundings_step hwell hstep
  constructor
  · rintro ⟨settled, hu⟩
    rcases monitored_before hsur hu with hw | ⟨flow, hawaits⟩
    · exact h.unmonitored hw
    · exact h.awaits flow hawaits
  · intro flow hawaits
    rcases awaits_before hlaunching hsur (stepped_of_step hwell hstep) hawaits with hbefore | hnew
    · exact h.awaits flow hbefore
    · omega

theorem lt_of_statusOf {w : WorkflowRunInstance X} {status : NodeRunStatus}
    (h : w.statusOf index = some status) : index < w.nodes.length :=
  let ⟨_, hentry, _⟩ := Option.map_eq_some_iff.mp h
  (List.getElem?_eq_some_iff.mp hentry).1

/-- An entry that is closed leaves no nested run behind. -/
def Left (index : Nat) (s : WorkflowNode X Y) : Prop :=
  ∀ status, Closed s.workflow index status → Forsaken s.workflow index ∨ Over s

/-- The step that closes the entry. -/
theorem left_closing {label : Label} {status : NodeRunStatus} (hs : Parts c s)
    (hhalting : Halting index s) (hcalls : Calls d index s) (hresults : Results d index s)
    (hqueued : Queued index s) (hpermits : s.permits index label = true)
    (hstep : Workflow.step c s.workflow label = some t.workflow)
    (hopen : ¬ Closed s.workflow index status) (hclosed : Closed t.workflow index status) :
    Forsaken t.workflow index ∨ Over s := by
  have hsur := surroundings_step hs.wellStarted hstep
  have hstepped := stepped_of_step hs.wellStarted hstep
  cases closing_step hstepped hopen hclosed with
  | submitted payload rest _ hqueue =>
    obtain ⟨output, -, houtcome, -⟩ := hcalls.queued payload (by rw [hqueue]; exact List.mem_cons_self)
    exact .inr (over_of_outcome hs houtcome)
  | settled settlement rest hqueue =>
    obtain ⟨stored, hhandle⟩ := hqueued settlement (by rw [hqueue]; exact List.mem_cons_self)
    obtain ⟨-, outcome, -, houtcome, -⟩ := hresults stored (by rw [result, hhandle])
    exact .inr (over_of_outcome hs houtcome)
  | rejected flow reason hawaits =>
    have hfresh := hs.launching.handle flow index hawaits
    refine .inl ⟨?_, fun flow' => ?_⟩
    · rintro ⟨settled, hmonitored⟩
      cases hsur with
      | kept _ hhandles => cases hfresh.symm.trans (handlesKept_before hhandles hmonitored)
    · refine not_awaits_of_rejected hs.launching hsur hstepped hawaits (fun hsame => hopen ?_) flow'
      exact ⟨hsame.symm.trans hclosed.1, hclosed.2⟩
  | interrupted reason running hactive hmem =>
    by_cases hmonitored : Monitored s.workflow index
    · -- the call of the handle has resolved
      obtain ⟨stopping, hstopping⟩ :=
        Option.isSome_iff_exists.mp (hhalting.called reason running hactive hmem hmonitored)
      have hresolved : stopping = .resolved := by
        simpa [WorkflowNode.permits, hstopping] using hpermits
      exact .inr (hhalting.resolved (hresolved ▸ hstopping))
    · refine .inl (forsaken_step ⟨hmonitored, hs.not_awaits hactive⟩ hs.wellStarted hs.launching ?_
        hstep)
      exact lt_of_statusOf (((hs.threads.interrupting reason running hactive).2.2 index).mp hmem)

theorem left_step {l : WorkflowNodeLabel} (h : Left index s) (hs : Parts c s)
    (hhalting : Halting index s) (hcalls : Calls d index s) (hresults : Results d index s)
    (hqueued : Queued index s) (hmoved : Moved c d index s l t) : Left index t := by
  intro status hclosed
  by_cases hold : Closed s.workflow index status
  · rcases h status hold with hforsaken | hover
    · rcases hmoved.workflowMove.step with hsame | ⟨label, hstep⟩
      · exact .inl (hsame ▸ hforsaken)
      · exact .inl (forsaken_step hforsaken hs.wellStarted hs.launching
          (lt_of_statusOf hold.1) hstep)
    · exact .inr (over_step hs hmoved hover)
  · cases hmoved.workflowMove with
    | same hworkflow => exact absurd (hworkflow ▸ hclosed) hold
    | own hpermits hstep =>
      rcases left_closing hs hhalting hcalls hresults hqueued hpermits hstep hold hclosed with
        hforsaken | hover
      · exact .inl hforsaken
      · exact .inr (over_step hs hmoved hover)
    | submitted _ hstep =>
      cases closing_step (stepped_of_step hs.wellStarted hstep) hold hclosed
    | observed _ hstep =>
      cases closing_step (stepped_of_step hs.wellStarted hstep) hold hclosed

/-! ## The nested run as a whole -/

/-- What has been said of a state. -/
structure Agrees (c : WorkflowStartRequest X) (d : WorkflowDelegation Y) (index : Nat)
    (s : WorkflowNode X Y) : Prop where
  parts : Parts c s
  halting : Halting index s
  calls : Calls d index s
  results : Results d index s
  queued : Queued index s
  left : Left index s

theorem agrees_initial : Agrees c d index ({} : WorkflowNode X Y) where
  parts := parts_initial
  halting := by
    refine ⟨?_, nofun, nofun, nofun, nofun⟩
    rintro ⟨settled, hsettled⟩
    cases hsettled
  calls := ⟨⟨rfl, rfl⟩, nofun, nofun, fun h => absurd h (Nat.lt_irrefl 0)⟩
  results settlement h := by cases h
  queued settlement h := by cases h
  left status h := by cases h.1

theorem agrees_step {l : WorkflowNodeLabel} (h : Agrees c d index s)
    (hstep : s.step c d index l = some t) : Agrees c d index t := by
  have hmoved := moved_of_step hstep
  exact
    { parts := parts_step h.parts hmoved
      halting := halting_step h.halting h.parts hmoved
      calls := calls_step h.calls h.parts hmoved
      results := results_step h.results h.calls h.parts hmoved
      queued := settles_step h.queued h.parts hmoved
      left := left_step h.left h.parts h.halting h.calls h.results h.queued hmoved }

/-- **What is so of a node that is a workflow run.** -/
structure Delegated (d : WorkflowDelegation Y) (index : Nat) (s : WorkflowNode X Y) : Prop where
  /-- The port is called at most once, with the output of a nested run that has succeeded. -/
  once : s.workflow.callsFor index ≤ 1
  asked : 0 < s.workflow.callsFor index → ∃ payload, Asked d index s payload
  payload : ∀ payload, .submit index payload ∈ s.workflow.queue → Asked d index s payload
  /-- The node settles with the end of the nested run, or as failed with what its store has thrown;
  as completed, only when the entry is. -/
  settled : Results d index s
  completed : ∀ outcome, result s = some (.completed outcome) →
    s.workflow.statusOf index = some .completed
  /-- While an interrupt waits for a node, the nested run is bound to be interrupted too: the call
  is in its queue, or the run is finished, or the call has thrown. -/
  interrupted : ∀ reason running, s.workflow.active = some (.interrupting reason running) →
    index ∈ running → Monitored s.workflow index →
      (∃ (r : WorkflowRunInstance Y) (before : Nat), s.delegatedWorkflowRun = some r ∧
          r.operations[before]? = some true) ∨
        Over s ∨ s.stopping = some .rejected
  /-- An entry that has a handle is closed only when the nested run is finished. -/
  left : ∀ status, s.workflow.statusOf index = some status → status ≠ .running →
    Monitored s.workflow index → Over s

theorem Agrees.delegated (h : Agrees c d index s) : Delegated d index s := by
  have hmade := h.calls.made
  refine ⟨?_, h.calls.asked, h.calls.queued, h.results, ?_, ?_, ?_⟩
  · unfold Made at hmade
    split at hmade <;> omega
  · intro outcome hcompleted
    obtain ⟨recorded, ended, -, -, hsettled⟩ := h.results _ hcompleted
    generalize hsettlement : NodeSettlement.completed outcome = settlement at hsettled
    cases hsettled with
    | @answered output known payload reply _ _ hanswer =>
      cases reply with
      | accept accepted => exact (h.parts.granted index).accepted accepted hanswer
      | reject | error => cases hsettlement
    | _ => cases hsettlement
  · intro reason running hactive hmem hmonitored
    obtain ⟨stopping, hstopping⟩ :=
      Option.isSome_iff_exists.mp (h.halting.called reason running hactive hmem hmonitored)
    cases stopping with
    | due before =>
      obtain ⟨r, hr, hbefore⟩ := h.halting.due before hstopping
      exact .inl ⟨r, before, hr, hbefore⟩
    | resolved => exact .inr (.inl (h.halting.resolved hstopping))
    | rejected => exact .inr (.inr hstopping)
  · intro status hstatus hne hmonitored
    rcases h.left status ⟨hstatus, hne⟩ with hforsaken | hover
    · exact absurd hmonitored hforsaken.unmonitored
    · exact hover

/-- **A workflow run and a run nested in it**, in every order of their steps: the node submits and
settles by the end of the nested run, an interrupt of the one is one of the other, and an entry that
is closed leaves no nested run behind. -/
theorem nested_run {ls : List WorkflowNodeLabel}
    (run : Run (WorkflowNode.step c d index) Free ({} : WorkflowNode X Y) ls s) :
    Delegated d index s := by
  have h : Agrees c d index s :=
    run.invariant agrees_initial fun _ _ _ _ h hstep => agrees_step h hstep
  exact h.delegated

/-! ## A concrete run -/

/-- The nested run has one node, which is still running when the interrupt comes. -/
def nestedOnly : WorkflowDelegation Unit where
  request := only
  missing := .error "required"

/-- The interrupt is passed on, and the end that the nested run comes to cannot be recorded. -/
def nestedStopped : List WorkflowNodeLabel :=
  [.workflow .start, .starts, .delegated .start, .delegated (.launchResolved .start),
    .delegated (.resume .start), .handles, .workflow (.launchResolved .start),
    .workflow (.resume .start), .workflow (.interrupt "stop"), .workflow .dequeue,
    .delegated .dequeue, .delegated .interruptsResolved, .delegated .dequeue,
    .workflow .interruptsResolved, .records (.error "disk full"), .settles]

/-- The handle settles as failed, with this message. -/
def failsWith (message : String) : Option Settling → Bool
  | some (.finishing (.failed text)) => text == message
  | _ => false

theorem nested_run_stopped :
    ∃ s : WorkflowNode Unit Unit,
      Run (WorkflowNode.step only nestedOnly 0) Free {} nestedStopped s ∧ Delegated nestedOnly 0 s ∧
      s.workflow.statusOf 0 = some .cancelled ∧ Over s ∧ failsWith "disk full" s.handle = true := by
  obtain ⟨s, run, hs⟩ := exists_run (WorkflowNode.step only nestedOnly 0) Free
    ({} : WorkflowNode Unit Unit) nestedStopped
    (fun s => s.workflow.statusOf 0 == some .cancelled && s.workflow.handles == [(true, false)] &&
      failsWith "disk full" s.handle)
    (by decide +kernel)
  simp only [Bool.and_eq_true, beq_iff_eq] at hs
  obtain ⟨⟨hcancelled, hhandles⟩, hfails⟩ := hs
  have h := nested_run run
  refine ⟨s, run, h, hcancelled, h.left .cancelled hcancelled (by decide) ⟨false, ?_⟩, hfails⟩
  rw [hhandles]
  rfl

end Nested

end EphemeralAgent.Nodes
