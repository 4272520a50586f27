import EphemeralAgent.Nodes.Calls

/-!
# What the node store records

Once a node handle has settled and the queue of the workflow run is drained, the store and the
entry should tell the same end.

* `Sealed` — a port whose entry is completed answers that the node run is finished
* `Results` — the settlement of the handle, from the end of the agent
* `EndsAs`, `Endings` — an entry is closed with the status that the handle has settled with, or is
  bound to settle with
* `records_agree` — **so store and entry agree in every orderly run**
-/

namespace EphemeralAgent.Workflow

open Lib

variable {X : Type} {c : WorkflowStartRequest X} {s t : WorkflowRunInstance X} {index : Nat}

/-- The entry is completed and no submission for it is under way: whatever the port still answers
says so. -/
structure Sealed (s : WorkflowRunInstance X) (index heard : Nat) : Prop where
  status : s.statusOf index = some .completed
  idle : s.submitting ≠ some index
  answers : ∀ result ∈ (s.answersFor index).drop heard, result = finishedRejection

theorem sealed_step {l : Label} {heard : Nat} (hwell : WellStarted s) (hthreads : Threads s)
    (h : Sealed s index heard) (hheard : heard ≤ (s.answersFor index).length)
    (hstep : step c s l = some t) : Sealed t index heard := by
  have hstatus := (closed_step hthreads (stepped_of_step hwell hstep) ⟨h.status, nofun⟩).1
  have hclosed : s.statusOf index ≠ some .running := by simp [h.status]
  cases portStep_of_step index hwell hstep with
  | quiet hsubmitting _ hanswers =>
    exact ⟨hstatus, fun ht => h.idle (hsubmitting.mp ht), by rw [hanswers]; exact h.answers⟩
  | called _ hsubmitting _ hanswers =>
    exact ⟨hstatus, fun ht => h.idle (hsubmitting.mp ht), by rw [hanswers]; exact h.answers⟩
  | entered _ hrunning => exact absurd hrunning hclosed
  | finished _ _ hbefore => exact absurd hbefore h.idle
  | answered result _ hidle _ hanswers _ _ hfinished =>
    refine ⟨hstatus, hidle, ?_⟩
    rw [hanswers, List.drop_append_of_le_length hheard]
    intro other hmem
    rcases List.mem_append.mp hmem with hmem | hmem
    · exact h.answers other hmem
    · rw [List.mem_singleton.mp hmem]
      exact hfinished hclosed

end EphemeralAgent.Workflow

namespace EphemeralAgent.Nodes

open Lib Engine EphemeralAgent.Runtime Workflow

variable {X : Type} {c : WorkflowStartRequest X} {d : Delegation} {index : Nat}
  {s t : AgentNode X}

/-- The workflow run stays where it is, or takes one step. -/
theorem Moved.workflow_step {l : NodeLabel} (h : Moved c d index s l t) :
    t.workflow = s.workflow ∨ ∃ label, Workflow.step c s.workflow label = some t.workflow := by
  cases h with
  | workflow _ hstep | interrupted hstep | submitted _ _ _ _ hstep | resubmitted _ _ _ hstep
    | observed _ hstep => exact .inr ⟨_, hstep⟩
  | started | blocked | answered | handled | handledAborted | ended | replied | stored =>
    exact .inl rfl

/-! ## The second submission -/

/-- The submission of `settle()` meets an entry that is completed. -/
def Resubmitted (index : Nat) (s : AgentNode X) : Prop :=
  ∀ payload, s.handle = some (.submitting payload) → Sealed s.workflow index s.heard

theorem resubmitted_step {l : NodeLabel} (h : Resubmitted index s) (hparts : Parts c d index s)
    (hcalls : Calls index s) (hmoved : Moved c d index s l t) : Resubmitted index t := by
  have hkept : ∀ payload, s.handle = some (.submitting payload) → t.heard = s.heard →
      Sealed t.workflow index t.heard := by
    intro payload hhandle hheard
    rw [hheard]
    rcases hmoved.workflow_step with hsame | ⟨label, hstep⟩
    · rw [hsame]
      exact h payload hhandle
    · exact sealed_step hparts.wellStarted hparts.threads (h payload hhandle) hcalls.heard hstep
  intro payload ht
  cases hmoved with
  | workflow | interrupted | started | blocked | submitted | observed => exact hkept payload ht rfl
  | answered =>
    have hsealed := h payload ht
    refine ⟨hsealed.status, hsealed.idle, fun result hmem => hsealed.answers result ?_⟩
    exact (List.drop_subset_drop_left _ (Nat.le_succ _)) hmem
  | handled | handledAborted | ended | replied => cases ht
  | stored => split at ht <;> cases ht
  | @resubmitted outcome value u hhandle houtcome hstatus hstep =>
    -- the port is idle, and what it has answered has been heard
    obtain ⟨-, hanswers, hsubmitting⟩ := callsFor_submit hparts.wellStarted hstep
    have hquiet : ¬ Waiting s := by
      rintro (⟨run, hs, hsubmitting⟩ | ⟨waits, hs⟩)
      · exact hparts.not_submitting (by rw [houtcome]; rfl) hs hsubmitting
      · cases hhandle.symm.trans hs
    have hnone := hcalls.quiet hquiet
    have hheard := hcalls.heard
    rw [WorkflowRunInstance.callsFor, openFor_eq] at hnone
    have hidle : s.workflow.submitting ≠ some index := by
      intro hbusy
      rw [if_pos hbusy] at hnone
      omega
    obtain ⟨r, hr, hover⟩ := Option.bind_eq_some_iff.mp houtcome
    obtain ⟨accepted, haccepted⟩ := (hcalls.accepts r hr).mp
      ((hparts.completed_iff hr hover).mp ⟨value, hstatus⟩)
    have hcompleted := hparts.granted.accepted accepted (List.mem_of_mem_take haccepted)
    refine ⟨?_, fun hbusy => hidle (hsubmitting.mp hbusy), ?_⟩
    · exact (closed_step hparts.threads (stepped_of_step hparts.wellStarted hstep)
        ⟨hcompleted, nofun⟩).1
    · have hdrained : (s.workflow.answersFor index).length ≤ s.heard := by omega
      rw [hanswers, List.drop_of_length_le hdrained]
      exact nofun

/-! ## The settlement of the handle -/

/-- The settlement that the handle has come to. -/
def AgentNode.result (s : AgentNode X) : Option NodeSettlement :=
  match s.handle with
  | some (.finishing result) => some result
  | some (.stored result) => some result
  | _ => none

/-- The handle settles as completed exactly when the agent has completed, and never as rejected. -/
def Results (s : AgentNode X) : Prop :=
  ∀ result, s.result = some result → ∃ outcome, s.outcome = some outcome ∧
    (result.status = .completed ↔ ∃ completion, outcome.status = .completed completion) ∧
    result.status ≠ .rejected

theorem Moved.outcome_kept {l : NodeLabel} (h : Moved c d index s l t)
    {outcome : AgentOutcome Json} (hs : s.outcome = some outcome) : t.outcome = some outcome := by
  cases h with
  | workflow | handled | ended | resubmitted | replied | stored | observed => exact hs
  | started _ hrun => simp [AgentNode.outcome, hrun] at hs
  | interrupted _ _ _ hblock => exact Nodes.outcome_kept hblock rfl hs
  | blocked hblock => exact Nodes.outcome_kept hblock rfl hs
  | submitted hblock => exact Nodes.outcome_kept hblock rfl hs
  | answered _ hblock => exact Nodes.outcome_kept hblock rfl hs
  | handledAborted _ _ _ hblock => exact Nodes.outcome_kept hblock rfl hs

/-- What has been accepted has completed the entry. -/
theorem Calls.statusOf (h : Calls index s) (hparts : Parts c d index s) {r : SystemHistory Json}
    (hrun : s.delegatedRun = some r) (haccepts : ∃ value, Accepts r.history value) :
    s.workflow.statusOf index = some .completed := by
  obtain ⟨outcome, hmem⟩ := (h.accepts r hrun).mp haccepts
  exact hparts.granted.accepted outcome (List.mem_of_mem_take hmem)

theorem results_step {l : NodeLabel} (h : Results s) (hparts : Parts c d index s)
    (hcalls : Calls index s) (hagain : Resubmitted index s) (hok : Orderly c index s l)
    (hmoved : Moved c d index s l t) : Results t := by
  have hkept : s.result = t.result → Results t := by
    intro hsame result ht
    obtain ⟨outcome, houtcome, hresult⟩ := h result (hsame.trans ht)
    exact ⟨outcome, hmoved.outcome_kept houtcome, hresult⟩
  cases hmoved with
  | workflow | interrupted | started | blocked | submitted | answered | observed => exact hkept rfl
  | handled | handledAborted | resubmitted =>
    intro result ht
    cases ht
  | @ended recorded outcome settlement hhandle houtcome hends =>
    rintro result ⟨⟩
    refine ⟨outcome, houtcome, ?_⟩
    cases hends with
    | cancelled hstatus => simp [NodeSettlement.status, hstatus]
    | failed error hstatus => simp [NodeSettlement.status, hstatus]
    | unrecorded message =>
      simp only [NodeSettlement.status, reduceCtorEq, ne_eq, not_false_eq_true, and_true, false_iff]
      intro hcompleted
      obtain ⟨r, hr, hover⟩ := Option.bind_eq_some_iff.mp houtcome
      have haccepts := (hparts.completed_iff hr hover).mp hcompleted
      cases (hcalls.statusOf hparts hr haccepts).symm.trans (hok.recorded message rfl)
  | @replied payload reply hhandle hreply =>
    rintro result ⟨⟩
    obtain ⟨outcome, houtcome⟩ := Option.isSome_iff_exists.mp (hcalls.ended _ hhandle nofun)
    obtain ⟨r, hr, hover⟩ := Option.bind_eq_some_iff.mp houtcome
    obtain ⟨run, value, hrun, haccepts⟩ := hcalls.again payload hhandle
    cases hr.symm.trans hrun
    obtain ⟨hlt, heq⟩ := List.getElem?_eq_some_iff.mp hreply
    -- a resubmission is answered with the rejection of a settled entry
    have hrejected : reply = finishedRejection := by
      refine (hagain payload hhandle).answers reply ?_
      rw [List.drop_eq_getElem_cons hlt, heq]
      exact List.mem_cons_self
    have hcompleted := (hparts.completed_iff hr hover).mpr ⟨value, haccepts⟩
    subst hrejected
    refine ⟨outcome, houtcome, iff_of_true rfl hcompleted, ?_⟩
    simp [settleReply, finishedRejection, NodeSettlement.status]
  | @stored result written hhandle =>
    intro settlement ht
    have hs : s.result = some settlement := by
      cases written with
      | true =>
        rw [← ht]
        simp [AgentNode.result, hhandle]
      | false => cases ht
    exact h settlement hs

/-! ## What the workflow run knows of the node -/

/-- What the workflow run knows of the node comes from its handle. -/
structure Watched (index : Nat) (s : AgentNode X) : Prop where
  handled : ∀ settled, s.workflow.handles[index]? = some (true, settled) → s.handle.isSome = true
  settled : s.workflow.handles[index]? = some (true, true) →
    ∃ result, s.handle = some (.stored result)
  queued : ∀ settlement, .settle index settlement ∈ s.workflow.queue →
    ∃ result, s.handle = some (.stored result) ∧ settlement.status = result.status

/-- Where the step of the workflow run comes from. -/
theorem Moved.workflow_cases {l : NodeLabel} (h : Moved c d index s l t) :
    t.workflow = s.workflow ∨
      (∃ label, l = .workflow label ∧ s.permits index label = true ∧
        Workflow.step c s.workflow label = some t.workflow) ∨
      (∃ payload, Workflow.step c s.workflow (.submit index payload) = some t.workflow ∧
        ∀ message, l ≠ .settles (.error message)) ∨
      ∃ result, s.handle = some (.stored result) ∧ l = .observes ∧
        Workflow.step c s.workflow (.nodeSettled index result) = some t.workflow := by
  cases h with
  | workflow hpermits hstep => exact .inr (.inl ⟨_, rfl, hpermits, hstep⟩)
  | interrupted hstep hbegins =>
    obtain rfl := beginsInterrupt_dequeue hbegins
    exact .inr (.inl ⟨_, rfl, rfl, hstep⟩)
  | submitted _ _ _ _ hstep => exact .inr (.inr (.inl ⟨_, hstep, nofun⟩))
  | resubmitted _ _ _ hstep => exact .inr (.inr (.inl ⟨_, hstep, nofun⟩))
  | observed hhandle hstep => exact .inr (.inr (.inr ⟨_, hhandle, rfl, hstep⟩))
  | started | blocked | answered | handled | handledAborted | ended | replied | stored =>
    exact .inl rfl

theorem Moved.handle_isSome {l : NodeLabel} (h : Moved c d index s l t)
    (hs : s.handle.isSome = true) : t.handle.isSome = true := by
  cases h <;> first | exact hs | rfl

theorem Moved.stored_kept {l : NodeLabel} (h : Moved c d index s l t) {result : NodeSettlement}
    (hs : s.handle = some (.stored result)) : t.handle = some (.stored result) := by
  cases h with
  | workflow | interrupted | started | blocked | submitted | answered | observed => exact hs
  | handled _ hother | handledAborted _ hother | ended hother | resubmitted hother | replied hother
    | stored hother => cases hs.symm.trans hother

/-- The handles of the entries that were there before. -/
theorem handlesKept_before {w u : WorkflowRunInstance X} (h : HandlesKept w u) {settled : Bool}
    (hu : u.handles[index]? = some (true, settled)) : w.handles[index]? = some (true, settled) := by
  obtain ⟨count, hcount⟩ := h
  rw [hcount, List.getElem?_append] at hu
  split at hu
  · exact hu
  · rw [List.getElem?_replicate] at hu
    split at hu <;> cases hu

/-- A handle that is monitored was monitored before, or its launch has just resolved. -/
theorem monitored_before {w u : WorkflowRunInstance X} {label : Label} (h : Surroundings w label u)
    {settled : Bool} (hu : u.handles[index]? = some (true, settled)) :
    (∃ settled', w.handles[index]? = some (true, settled')) ∨ ∃ flow, Awaits w flow index := by
  cases h with
  | kept _ hhandles | taken _ hhandles | submitted _ _ hhandles | asked _ hhandles =>
    exact .inl ⟨settled, handlesKept_before hhandles hu⟩
  | resolved flow index' remaining outer hframes hhandles =>
    by_cases heq : index' = index
    · subst heq
      exact .inr ⟨flow, remaining, outer, hframes⟩
    · rw [hhandles, List.getElem?_modify] at hu
      exact .inl ⟨settled, by simpa [heq] using hu⟩
  | settled index' entry settlement hentry hhandle hhandles =>
    by_cases heq : index' = index
    · subst heq
      exact .inl ⟨entry.settled, by simp [WorkflowRunInstance.handles, hentry, hhandle]⟩
    · rw [hhandles, List.getElem?_modify] at hu
      exact .inl ⟨settled, by simpa [heq] using hu⟩

/-- The monitor enqueues the settlement that it hears of. -/
theorem monitoredSettlement_status {entry : WorkflowNodeRunEntry} {settlement : NodeSettlement}
    {monitored : WorkflowNodeSettlement}
    (h : monitoredSettlement entry settlement = some monitored) :
    monitored.status = settlement.status := by
  cases settlement <;> cases h <;> rfl

theorem watched_step {l : NodeLabel} (h : Watched index s) (hparts : Parts c d index s)
    (hmoved : Moved c d index s l t) : Watched index t := by
  have hwell := hparts.wellStarted
  have hstored : ∀ {settlement : WorkflowNodeSettlement},
      .settle index settlement ∈ s.workflow.queue →
        ∃ result, t.handle = some (.stored result) ∧ settlement.status = result.status := by
    intro settlement hmem
    obtain ⟨result, hresult, hstatus⟩ := h.queued settlement hmem
    exact ⟨result, hmoved.stored_kept hresult, hstatus⟩
  -- the handles of the entries stay, and no settlement of this one is queued
  have hkept : (∀ settled, t.workflow.handles[index]? = some (true, settled) →
      s.workflow.handles[index]? = some (true, settled)) →
      (∀ settlement, .settle index settlement ∈ t.workflow.queue →
        .settle index settlement ∈ s.workflow.queue) → Watched index t := by
    intro hhandles hqueue
    refine ⟨fun settled ht => hmoved.handle_isSome (h.handled settled (hhandles settled ht)),
      fun ht => ?_, fun settlement ht => hstored (hqueue settlement ht)⟩
    obtain ⟨result, hresult⟩ := h.settled (hhandles true ht)
    exact ⟨result, hmoved.stored_kept hresult⟩
  rcases hmoved.workflow_cases with hsame | ⟨label, -, hpermits, hstep⟩ | ⟨payload, hstep, -⟩ |
    ⟨result, hhandle, -, hstep⟩
  · refine hkept (fun _ ht => ?_) fun _ ht => ?_
    · rwa [hsame] at ht
    · rwa [hsame] at ht
  · cases surroundings_step hwell hstep with
    | kept _ hhandles hqueue =>
      exact hkept (fun _ => handlesKept_before hhandles) fun _ ht => hqueue ▸ ht
    | taken _ hhandles hqueue =>
      exact hkept (fun _ => handlesKept_before hhandles)
        fun _ ht => hqueue ▸ List.mem_cons_of_mem _ ht
    | submitted _ _ hhandles hqueue =>
      refine hkept (fun _ => handlesKept_before hhandles) fun _ ht => ?_
      simpa [hqueue] using ht
    | asked _ hhandles hqueue =>
      refine hkept (fun _ => handlesKept_before hhandles) fun _ ht => ?_
      simpa [hqueue] using ht
    | resolved flow index' remaining outer hframes hhandles hqueue =>
      by_cases heq : index' = index
      · -- the launch of this node resolves with its handle
        subst heq
        have hawaits : awaitsLaunch s.workflow index' flow = true :=
          awaitsLaunch_iff.mpr ⟨remaining, outer, hframes⟩
        have hsome : s.handle.isSome = true := by
          simpa [AgentNode.permits, hawaits] using hpermits
        refine ⟨fun _ _ => hmoved.handle_isSome hsome, fun ht => ?_,
          fun _ ht => hstored (hqueue ▸ ht)⟩
        have hfresh := hparts.launching.handle flow index' ⟨remaining, outer, hframes⟩
        rw [hhandles, List.getElem?_modify, hfresh] at ht
        simp at ht
      · refine hkept (fun settled ht => ?_) fun _ ht => hqueue ▸ ht
        rw [hhandles, List.getElem?_modify] at ht
        simpa [heq] using ht
    | settled index' entry settlement _ _ hhandles hqueue =>
      have hne : index' ≠ index := by simpa [AgentNode.permits] using hpermits
      refine hkept (fun settled ht => ?_) fun other ht => ?_
      · rw [hhandles, List.getElem?_modify] at ht
        simpa [hne] using ht
      · rcases hqueue with ⟨hqueue, -⟩ | ⟨monitored, -, hqueue⟩
        · exact hqueue ▸ ht
        · rw [hqueue, List.mem_append, List.mem_singleton] at ht
          rcases ht with ht | ht
          · exact ht
          · injection ht with hindex
            exact absurd hindex.symm hne
  · cases surroundings_step hwell hstep with
    | kept hl => cases hl
    | submitted _ _ hhandles hqueue =>
      refine hkept (fun _ => handlesKept_before hhandles) fun _ ht => ?_
      simpa [hqueue] using ht
  · cases surroundings_step hwell hstep with
    | kept hl => cases hl
    | settled _ entry _ _ _ hhandles hqueue =>
      have ht := hmoved.stored_kept hhandle
      refine ⟨fun _ _ => by rw [ht]; rfl, fun _ => ⟨result, ht⟩, fun settlement hmem => ?_⟩
      rcases hqueue with ⟨hqueue, -⟩ | ⟨monitored, hmonitored, hqueue⟩
      · exact hstored (hqueue ▸ hmem)
      · rw [hqueue, List.mem_append, List.mem_singleton] at hmem
        rcases hmem with hmem | hmem
        · exact hstored hmem
        · injection hmem with _ heq
          subst heq
          exact ⟨result, ht, monitoredSettlement_status hmonitored⟩

/-- A node that has a handle is followed. -/
theorem followed_moved {l : NodeLabel}
    (h : s.handle.isSome = true → FollowedAt s.workflow index) (hparts : Parts c d index s)
    (hcalls : Calls index s) (hresults : Results s) (hok : Orderly c index s l)
    (hmoved : Moved c d index s l t) (ht : t.handle.isSome = true) :
    FollowedAt t.workflow index := by
  cases hs : s.handle with
  | none =>
    -- the node is still being launched
    have hlaunched : (∃ flow, Awaits s.workflow flow index) ∧ t.workflow = s.workflow := by
      cases hmoved with
      | handled hlaunching | handledAborted hlaunching => exact ⟨hlaunching, rfl⟩
      | workflow | interrupted | started | blocked | submitted | answered | observed =>
        simp [hs] at ht
      | ended hother | resubmitted hother | replied hother | stored hother =>
        cases hs.symm.trans hother
    intro _
    rw [hlaunched.2]
    exact .inl hlaunched.1
  | some settling =>
    have hsome : s.handle.isSome = true := by rw [hs]; rfl
    have hstep : ∀ {label}, HeardOf c index s.workflow label →
        Workflow.step c s.workflow label = some t.workflow → FollowedAt t.workflow index :=
      fun hheard hstep => followedAt_step hparts.wellStarted hparts.launching (h hsome) hheard hstep
    rcases hmoved.workflow_cases with hsame | ⟨label, hl, hpermits, hlabel⟩ |
      ⟨payload, hlabel, -⟩ | ⟨result, hhandle, -, hlabel⟩
    · exact hsame ▸ h hsome
    · refine hstep ⟨fun sh => hok.accepts label sh hl hsome, fun outcome heq => ?_⟩ hlabel
      subst heq
      simp [AgentNode.permits] at hpermits
    · refine hstep ⟨fun sh hshown => ?_, fun outcome heq => ?_⟩ hlabel
      · cases hshown
      · cases heq
    · refine hstep ⟨fun sh hshown => (by cases hshown), fun outcome heq => ?_⟩ hlabel
      -- a handle that settles as completed has an agent that has completed
      cases heq
      have hresult : s.result = some (.completed outcome) := by simp [AgentNode.result, hhandle]
      obtain ⟨ended, hended, hiff, -⟩ := hresults _ hresult
      obtain ⟨r, hr, hover⟩ := Option.bind_eq_some_iff.mp hended
      have hcompleted := hcalls.statusOf hparts hr ((hparts.completed_iff hr hover).mp (hiff.mp rfl))
      rw [hcompleted]
      simp

/-! ## How the entry is closed -/

/-- The handle has settled with this status, or is bound to settle with it. -/
inductive EndsAs (s : AgentNode X) (status : NodeRunStatus) : Prop
  | doomed (r : SystemHistory Json) (hhandle : s.handle = some .outcome)
      (hrun : s.delegatedRun = some r) (hdoomed : Doomed r) (hstatus : status = .cancelled)
  | settled (result : NodeSettlement) (hresult : s.result = some result)
      (hstatus : result.status = status)
  /-- The promise of the handle rejects. -/
  | broken (hhandle : s.handle = some .broken)

/-- The launch has thrown. -/
structure Abandoned (index : Nat) (s : AgentNode X) : Prop where
  unmonitored : ∀ settled, s.workflow.handles[index]? ≠ some (true, settled)
  awaits : ∀ flow, ¬ Awaits s.workflow flow index

/-- The entry is closed with the status of the handle. -/
structure Endings (index : Nat) (s : AgentNode X) : Prop where
  closed : ∀ status, Closed s.workflow index status → status ≠ .completed →
    Abandoned index s ∨ EndsAs s status
  interrupting : s.Interrupting index → s.handle = none ∨ EndsAs s .cancelled ∨ s.Failing

/-- Nothing has been accepted from a node whose entry is not completed. -/
theorem Parts.denied (h : Parts c d index s) (hstatus : s.workflow.statusOf index ≠ some .completed)
    (outcome : NodeOutcome) : .accept outcome ∉ s.workflow.answersFor index :=
  fun hmem => hstatus (h.granted.accepted outcome hmem)

theorem Block.doomed {label : SystemLabel Json} {r r' : SystemHistory Json}
    {items : List (SystemItem Json)} (hblock : Block d s label r r' items)
    (hparts : Parts c d index s) (h : Doomed r) (hitems : ∀ item ∈ items, item.isAccepted = false) :
    Doomed r' := by
  have hnext := doomed_step (hparts.known hblock.run).wired (hparts.backed hblock.run) d.terminal h
    hitems hblock.acted
  rw [← hblock.history] at hnext
  exact hnext

/-- What the handle is bound to settle with does not change while nothing is accepted. -/
theorem endsAs_step {l : NodeLabel} {status : NodeRunStatus} (h : EndsAs s status)
    (hparts : Parts c d index s) (hdenied : s.workflow.statusOf index ≠ some .completed)
    (hrecorded : ∀ message, l ≠ .settles (.error message)) (hmoved : Moved c d index s l t) :
    EndsAs t status := by
  cases h with
  -- the run cannot accept any more: it can only end as cancelled
  | doomed r hhandle hrun hdoomed hstatus =>
    have hgoes : ∀ {label r₀ r' items}, Block d s label r₀ r' items →
        (∀ item ∈ items, item.isAccepted = false) → t.handle = s.handle →
        t.delegatedRun = some r' → EndsAs t status := by
      intro label r₀ r' items hblock hitems hthandle ht
      cases hrun.symm.trans hblock.run
      exact .doomed r' (hthandle.trans hhandle) ht (hblock.doomed hparts hdoomed hitems) hstatus
    cases hmoved with
    | workflow | observed => exact .doomed r hhandle hrun hdoomed hstatus
    | interrupted _ _ _ hblock hquiet => exact hgoes hblock hquiet.items rfl rfl
    | started _ hnone => cases hrun.symm.trans hnone
    | blocked hblock hquiet => exact hgoes hblock hquiet.items rfl rfl
    | submitted hblock hitems => exact hgoes hblock hitems rfl rfl
    | @answered call instant result _ _ items hreply hblock hitems =>
      refine hgoes hblock (fun item hitem => ?_) rfl rfl
      rw [hitems] at hitem
      cases result with
      | accept outcome =>
        exact absurd (List.mem_of_getElem? hreply) (hparts.denied hdenied outcome)
      | _ => cases hitem
    | handled _ hnone => cases hhandle.symm.trans hnone
    | handledAborted _ hnone => cases hhandle.symm.trans hnone
    | @ended recorded outcome result _ houtcome hends =>
      obtain ⟨r', hr', hover⟩ := Option.bind_eq_some_iff.mp houtcome
      cases hrun.symm.trans hr'
      have hcancelled : outcome.status = .cancelled := by
        -- a doomed run that is over is cancelled
        rcases hdoomed.ends with ⟨hnone, -⟩ | ⟨other, hother, hcancelled⟩
        · cases hnone.symm.trans hover
        · cases hother.symm.trans hover
          exact hcancelled
      cases hends with
      | cancelled => exact .settled _ rfl hstatus.symm
      | failed error hfailed => cases hcancelled.symm.trans hfailed
      | unrecorded message => exact absurd rfl (hrecorded message)
    | @resubmitted outcome value _ _ houtcome hcompleted =>
      obtain ⟨r', hr', hover⟩ := Option.bind_eq_some_iff.mp houtcome
      cases hrun.symm.trans hr'
      obtain ⟨value, haccepts⟩ := (hparts.completed_iff hrun hover).mp ⟨value, hcompleted⟩
      exact absurd haccepts (hdoomed.nothing value)
    | replied hwaits => cases hhandle.symm.trans hwaits
    | stored hwaits => cases hhandle.symm.trans hwaits
  -- the handle is settled: only its record is still to be written
  | settled result hresult hstatus =>
    have hsome : ∀ settling, s.handle = some settling → settling ≠ .outcome ∧
        ∀ payload, settling ≠ .submitting payload := by
      rintro settling hsettling
      rw [AgentNode.result, hsettling] at hresult
      constructor
      · rintro rfl
        cases hresult
      · rintro payload rfl
        cases hresult
    cases hmoved with
    | workflow | interrupted | started | blocked | submitted | answered | observed =>
      exact .settled result hresult hstatus
    | handled _ hnone | handledAborted _ hnone => simp [AgentNode.result, hnone] at hresult
    | ended hhandle => exact absurd rfl (hsome _ hhandle).1
    | resubmitted hhandle => exact absurd rfl (hsome _ hhandle).1
    | replied hhandle => exact absurd rfl ((hsome _ hhandle).2 _)
    | @stored other written hhandle =>
      cases written with
      | false => exact .broken rfl
      | true =>
        refine .settled result ?_ hstatus
        rw [← hresult]
        simp [AgentNode.result, hhandle]
  | broken hhandle =>
    cases hmoved with
    | workflow | interrupted | started | blocked | submitted | answered => exact .broken hhandle
    | handled _ hother | handledAborted _ hother | ended hother | resubmitted hother | replied hother
      | stored hother | observed hother => cases hhandle.symm.trans hother

theorem abandoned_step {l : NodeLabel} (h : Abandoned index s) (hparts : Parts c d index s)
    (hindex : index < s.workflow.nodes.length) (hmoved : Moved c d index s l t) :
    Abandoned index t := by
  rcases hmoved.workflow_step with hsame | ⟨label, hstep⟩
  · exact ⟨hsame ▸ h.unmonitored, hsame ▸ h.awaits⟩
  have hsur := surroundings_step hparts.wellStarted hstep
  constructor
  · intro settled ht
    rcases monitored_before hsur ht with ⟨settled', hs⟩ | ⟨flow, hawaits⟩
    · exact h.unmonitored settled' hs
    · exact h.awaits flow hawaits
  · intro flow hawaits
    rcases awaits_before hparts.launching hsur (stepped_of_step hparts.wellStarted hstep) hawaits with
      hbefore | hnew
    · exact h.awaits flow hbefore
    · omega

/-- An interrupt ends no run by itself. -/
theorem Block.interrupt_unfinished {r r' : SystemHistory Json} {items : List (SystemItem Json)}
    (hblock : Block d s (.run .interrupt) r r' items) : outcomeOf items = none := by
  have hitems : r.state.run.interrupt.2.map .run = items :=
    (Prod.mk.inj (Option.some.inj hblock.step)).2
  cases hended : outcomeOf items with
  | none => rfl
  | some outcome =>
    obtain ⟨gate, hmem⟩ := finished_of_outcomeOf hended
    rw [← hitems] at hmem
    obtain ⟨item, hitem, heq⟩ := List.mem_map.mp hmem
    cases heq
    exact absurd ((outside_interrupt r.state.run).2 _ hitem) nofun

/-- A handle that is bound to settle as failed does so, unless its store throws. -/
theorem failing_step {l : NodeLabel} (h : s.Failing) (hmoved : Moved c d index s l t) :
    t.Failing ∨ t.handle = some .broken := by
  cases h with
  | outcome outcome error hhandle houtcome hstatus =>
    have hkept : t.handle = s.handle → t.Failing := fun hsame =>
      .outcome outcome error (hsame.trans hhandle) (hmoved.outcome_kept houtcome) hstatus
    cases hmoved with
    | workflow | interrupted | started | blocked | submitted | answered | observed =>
      exact .inl (hkept rfl)
    | handled _ hother | handledAborted _ hother | replied hother | stored hother =>
      cases hhandle.symm.trans hother
    | ended _ hother hends =>
      cases houtcome.symm.trans hother
      cases hends with
      | cancelled hcancelled => cases hstatus.symm.trans hcancelled
      | failed | unrecorded => exact .inl (.finishing _ rfl)
    | resubmitted _ hother hcompleted =>
      cases houtcome.symm.trans hother
      cases hstatus.symm.trans hcompleted
  | finishing reason hhandle =>
    cases hmoved with
    | workflow | interrupted | started | blocked | submitted | answered =>
      exact .inl (.finishing reason hhandle)
    | handled _ hother | handledAborted _ hother | ended hother | resubmitted hother | replied hother
      | observed hother => cases hhandle.symm.trans hother
    | @stored result written hother =>
      cases hhandle.symm.trans hother
      cases written with
      | true => exact .inl (.stored reason rfl)
      | false => exact .inr rfl
  | stored reason hhandle => exact .inl (.stored reason (hmoved.stored_kept hhandle))

/-- Once an interrupt has begun, the node of a running entry is bound to end as cancelled, or has
failed before. -/
theorem endsAs_interrupted {r r' : SystemHistory Json} {items : List (SystemItem Json)}
    (hparts : Parts c d index s) (hcalls : Calls index s) (hagain : Resubmitted index s)
    (hresults : Results s) (hrunning : s.workflow.statusOf index = some .running)
    (hblock : Block d s (.run .interrupt) r r' items) (hquiet : Quiet r r' items)
    (hsome : s.handle.isSome = true) (hhandle : t.handle = s.handle)
    (hrun : t.delegatedRun = some r') : EndsAs t .cancelled ∨ t.Failing := by
  -- an accepted value would have closed the entry
  have hnot : ¬ ∃ value, Accepts r.history value := by
    intro haccepts
    cases (hcalls.statusOf hparts hblock.run haccepts).symm.trans hrunning
  have hcompleted : ∀ {outcome completion}, s.outcome = some outcome →
      outcome.status ≠ .completed completion := by
    intro outcome completion houtcome hstatus
    obtain ⟨r₀, hr₀, hended⟩ := Option.bind_eq_some_iff.mp houtcome
    cases hblock.run.symm.trans hr₀
    exact hnot ((hparts.completed_iff hr₀ hended).mp ⟨completion, hstatus⟩)
  -- a result on its way that is no failure can only be a cancellation
  have hresult : ∀ result, s.result = some result → (∀ reason, result ≠ .failed reason) →
      EndsAs t .cancelled := by
    intro result hresult hfailed
    refine .settled result ?_ ?_
    · rw [← hresult, AgentNode.result, AgentNode.result, hhandle]
    · obtain ⟨outcome, houtcome, hiff, hrejected⟩ := hresults result hresult
      cases result with
      | cancelled reason => rfl
      | rejected reason => exact absurd rfl hrejected
      | completed payload =>
        obtain ⟨completion, hstatus⟩ := hiff.mp rfl
        exact absurd hstatus (hcompleted houtcome)
      | failed reason => exact absurd rfl (hfailed reason)
  obtain ⟨settling, hsettling⟩ := Option.isSome_iff_exists.mp hsome
  have ht := hhandle.trans hsettling
  cases settling with
  | outcome =>
    cases hended : outcomeOf r.history with
    | none =>
      refine .inl (.doomed r' ht hrun ⟨fun value haccepts => hnot ?_, .inl ⟨?_, ?_⟩⟩ rfl)
      · exact (hblock.accepts_iff hquiet.items).mp ⟨value, haccepts⟩
      · rw [hblock.history, outcomeOf_append, hended, Option.none_or, hblock.interrupt_unfinished]
      · exact aborted_of_interrupt (hparts.live hblock.run hended) rfl hblock.acted
    | some outcome =>
      have houtcome : s.outcome = some outcome := by
        rw [AgentNode.outcome, hblock.run, Option.bind_some, hended]
      have hkept : outcomeOf r'.history = some outcome := by
        rw [hblock.history, outcomeOf_kept hended]
      cases hstatus : outcome.status with
      | cancelled =>
        refine .inl (.doomed r' ht hrun ⟨fun value haccepts => hnot ?_, .inr ⟨outcome, hkept, hstatus⟩⟩ rfl)
        exact (hblock.accepts_iff hquiet.items).mp ⟨value, haccepts⟩
      | failed error => exact .inr (.outcome outcome error ht (outcome_kept hblock hrun houtcome) hstatus)
      | completed completion => exact absurd hstatus (hcompleted houtcome)
  -- the payload is submitted again only for an entry that is closed
  | submitting payload =>
    cases (hagain payload hsettling).status.symm.trans hrunning
  | finishing result =>
    cases result with
    | failed reason => exact .inr (.finishing reason ht)
    | completed | rejected | cancelled =>
      exact .inl (hresult _ (by rw [AgentNode.result, hsettling]) fun _ h => by cases h)
  | stored result =>
    cases result with
    | failed reason => exact .inr (.stored reason ht)
    | completed | rejected | cancelled =>
      exact .inl (hresult _ (by rw [AgentNode.result, hsettling]) fun _ h => by cases h)
  | broken => exact .inl (.broken ht)

/-- What has been said of a state in an orderly run. -/
structure Agrees (c : WorkflowStartRequest X) (d : Delegation) (index : Nat) (s : AgentNode X) :
    Prop where
  parts : Parts c d index s
  calls : Calls index s
  again : Resubmitted index s
  results : Results s
  watched : Watched index s
  followed : s.handle.isSome = true → FollowedAt s.workflow index
  endings : Endings index s

/-- No launch is under way while an interrupt waits for its nodes. -/
theorem Parts.not_awaits (h : Parts c d index s) (hinterrupting : s.Interrupting index)
    (flow : FlowId) : ¬ Awaits s.workflow flow index := by
  obtain ⟨reason, running, hactive, -⟩ := hinterrupting
  rintro ⟨remaining, outer, hframes⟩
  have hreturned := (h.threads.interrupting reason running hactive).1
  cases flow <;> simp [WorkflowRunInstance.frames, hactive, hreturned] at hframes

theorem Parts.running (h : Parts c d index s) (hinterrupting : s.Interrupting index) :
    s.workflow.statusOf index = some .running :=
  let ⟨reason, running, hactive, hmem⟩ := hinterrupting
  ((h.threads.interrupting reason running hactive).2.2 index).mp hmem

theorem lt_length_of_statusOf {status : NodeRunStatus}
    (h : s.workflow.statusOf index = some status) : index < s.workflow.nodes.length :=
  let ⟨_, hentry, _⟩ := Option.map_eq_some_iff.mp h
  (List.getElem?_eq_some_iff.mp hentry).1

/-- The interrupt goes on. -/
theorem Agrees.interrupting (h : Agrees c d index s) {l : NodeLabel}
    (hmoved : Moved c d index s l t) (hs : s.Interrupting index) :
    t.handle = none ∨ EndsAs t .cancelled ∨ t.Failing := by
  have hrunning := h.parts.running hs
  rcases h.endings.interrupting hs with hnone | hends | hfailing
  · refine .inl ?_
    cases hmoved with
    | workflow | interrupted | started | blocked | submitted | answered | observed => exact hnone
    | handled hlaunching | handledAborted hlaunching =>
      obtain ⟨flow, hawaits⟩ := hlaunching
      exact absurd hawaits (h.parts.not_awaits hs flow)
    | ended hother | resubmitted hother | replied hother | stored hother =>
      cases hnone.symm.trans hother
  · by_cases hl : ∃ message, l = .settles (.error message)
    · obtain ⟨message, rfl⟩ := hl
      cases hmoved with
      | ended _ _ hresult =>
        cases hresult
        exact .inr (.inr (.finishing message rfl))
    · refine .inr (.inl (endsAs_step hends h.parts (by simp [hrunning]) (fun message heq => ?_) hmoved))
      exact hl ⟨message, heq⟩
  · rcases failing_step hfailing hmoved with hfailing | hbroken
    · exact .inr (.inr hfailing)
    · exact .inr (.inl (.broken hbroken))

/-- A step of the workflow run that closes the entry, otherwise than as completed. -/
theorem Agrees.closing {label : Label} {status : NodeRunStatus} (h : Agrees c d index s)
    (hok : Orderly c index s (.workflow label)) (hmoved : Moved c d index s (.workflow label) t)
    (hstep : Workflow.step c s.workflow label = some t.workflow)
    (hs : ¬ Closed s.workflow index status) (ht : Closed t.workflow index status)
    (hne : status ≠ .completed) (hdenied : s.workflow.statusOf index ≠ some .completed) :
    Abandoned index t ∨ EndsAs t status := by
  have hkept : ∀ {status}, EndsAs s status → EndsAs t status :=
    fun hends => endsAs_step hends h.parts hdenied (fun _ h => by cases h) hmoved
  have hsur := surroundings_step h.parts.wellStarted hstep
  have hstepped := stepped_of_step h.parts.wellStarted hstep
  cases closing_step hstepped hs ht with
  | submitted _ _ _ _ hstatus => exact absurd hstatus hne
  | settled settlement rest hqueue hstatus =>
    obtain ⟨result, hresult, heq⟩ := h.watched.queued settlement (hqueue ▸ List.mem_cons_self)
    refine .inr (hkept (.settled result ?_ (heq.symm.trans hstatus.symm)))
    simp [AgentNode.result, hresult]
  | rejected flow reason hawaits hstatus =>
    refine .inl ⟨fun settled hmonitored => ?_, fun flow' => ?_⟩
    · have hfresh := h.parts.launching.handle flow index hawaits
      cases hsur with
      | kept _ hhandles => cases hfresh.symm.trans (handlesKept_before hhandles hmonitored)
    · refine not_awaits_of_rejected h.parts.launching hsur hstepped hawaits
        (fun hsame => hs ?_) flow'
      exact ⟨hsame.symm.trans ht.1, ht.2⟩
  | interrupted reason running hactive hmem hstatus =>
    subst hstatus
    have hinterrupting : s.Interrupting index := ⟨reason, running, hactive, hmem⟩
    rcases h.endings.interrupting hinterrupting with hnone | hends | hfailing
    · have habandoned : Abandoned index s := by
        refine ⟨fun settled hmonitored => ?_, h.parts.not_awaits hinterrupting⟩
        simpa [hnone] using h.watched.handled settled hmonitored
      exact .inl (abandoned_step habandoned h.parts
        (lt_length_of_statusOf (h.parts.running hinterrupting)) hmoved)
    · exact .inr (hkept hends)
    · exact absurd hfailing (hok.inTime rfl hinterrupting)

theorem endings_step {l : NodeLabel} (h : Agrees c d index s) (hok : Orderly c index s l)
    (hmoved : Moved c d index s l t) : Endings index t := by
  have hwell := h.parts.wellStarted
  constructor
  · intro status hclosed hne
    -- an entry that is closed otherwise was never completed
    have hdenied : s.workflow.statusOf index ≠ some .completed := by
      intro hcompleted
      rcases hmoved.workflow_step with hsame | ⟨label, hstep⟩
      · rw [Closed, hsame, hcompleted] at hclosed
        exact hne (Option.some.inj hclosed.1).symm
      · have hstays := closed_step h.parts.threads (stepped_of_step hwell hstep)
          ⟨hcompleted, (by simp)⟩
        exact hne (Option.some.inj (hclosed.1.symm.trans hstays.1))
    by_cases hs : Closed s.workflow index status
    · rcases h.endings.closed status hs hne with habandoned | hends
      · exact .inl (abandoned_step habandoned h.parts (lt_length_of_statusOf hs.1) hmoved)
      · refine .inr (endsAs_step hends h.parts hdenied (fun message hl => ?_) hmoved)
        exact hs.2 (Option.some.inj (hs.1.symm.trans (hok.recorded message hl)))
    · rcases hmoved.workflow_cases with hsame | ⟨label, rfl, -, hstep⟩ | ⟨payload, hstep, -⟩ |
        ⟨result, -, -, hstep⟩
      · exact absurd (hsame ▸ hclosed) hs
      · exact h.closing hok hmoved hstep hs hclosed hne hdenied
      · cases closing_step (stepped_of_step hwell hstep) hs hclosed
      · cases closing_step (stepped_of_step hwell hstep) hs hclosed
  · rintro ⟨reason, running, hactive, hmem⟩
    rcases hmoved.workflow_cases with hsame | ⟨label, hl, -, hstep⟩ | ⟨payload, hstep, -⟩ |
      ⟨result, -, -, hstep⟩
    · exact h.interrupting hmoved ⟨reason, running, hsame ▸ hactive, hmem⟩
    · rcases interrupting_step hwell hstep hactive with
        hbefore | ⟨rest, rfl, hidle, hqueue, hfinished, hrunning⟩
      · exact h.interrupting hmoved ⟨reason, running, hbefore, hmem⟩
      · -- the interrupt begins in this step
        subst hrunning hl
        have hbegins : beginsInterrupt s.workflow .dequeue = true := by
          simp [beginsInterrupt, hidle, hqueue, hfinished]
        cases hmoved with
        | workflow _ _ hquiet =>
          rcases hquiet hbegins with hnone | hnone
          · exact .inl hnone
          · exact .inl (h.calls.unstarted hnone).1
        | interrupted _ _ hsome hblock hquiet =>
          exact .inr (endsAs_interrupted h.parts h.calls h.again h.results (mem_runningEntries.mp hmem)
            hblock hquiet hsome rfl rfl)
    · rcases interrupting_step hwell hstep hactive with hbefore | ⟨rest, hl, -⟩
      · exact h.interrupting hmoved ⟨reason, running, hbefore, hmem⟩
      · cases hl
    · rcases interrupting_step hwell hstep hactive with hbefore | ⟨rest, hl, -⟩
      · exact h.interrupting hmoved ⟨reason, running, hbefore, hmem⟩
      · cases hl

theorem agrees_initial : Agrees c d index ({} : AgentNode X) where
  parts := Parts.initial
  calls := calls_initial
  again payload hhandle := by cases hhandle
  results result hresult := by cases hresult
  watched := ⟨fun _ h => (by cases h), fun h => (by cases h), fun _ h => (by cases h)⟩
  followed hsome := by cases hsome
  endings := by
    refine ⟨fun status hclosed => ?_, ?_⟩
    · cases hclosed.1
    · rintro ⟨reason, running, hactive, -⟩
      cases hactive

theorem agrees_step {l : NodeLabel} (h : Agrees c d index s) (hok : Orderly c index s l)
    (hstep : s.step c d index l = some t) : Agrees c d index t := by
  have hmoved := moved_of_step (fun r hrun => (h.parts.known hrun).wired) hstep
  have hparts := parts_step h.parts hok hmoved
  exact
    { parts := hparts
      calls := calls_step h.calls h.parts hparts hmoved
      again := resubmitted_step h.again h.parts h.calls hmoved
      results := results_step h.results h.parts h.calls h.again hok hmoved
      watched := watched_step h.watched h.parts hmoved
      followed := followed_moved h.followed h.parts h.calls h.results hok hmoved
      endings := endings_step h hok hmoved }

theorem agrees_of_run {ls : List NodeLabel}
    (run : Run (AgentNode.step c d index) (Orderly c index) ({} : AgentNode X) ls s) :
    Agrees c d index s :=
  run.invariant agrees_initial fun _ _ _ hok h hstep => agrees_step h hok hstep

/-! ## The record and the entry -/

/-- The promise of the handle has resolved, its monitor has heard of it, and the queue of the
workflow run is drained. -/
structure Through (index : Nat) (s : AgentNode X) (result : NodeSettlement) : Prop where
  stored : s.handle = some (.stored result)
  monitored : s.workflow.handles[index]? = some (true, true)
  idle : s.workflow.active = none
  drained : s.workflow.queue = []

/-- **The node store and the workflow run agree** at the end of every orderly run: the settlement
that was stored has the status of the entry, which is completed exactly when the port has accepted a
submission. -/
theorem records_agree {ls : List NodeLabel} {result : NodeSettlement}
    (run : Run (AgentNode.step c d index) (Orderly c index) ({} : AgentNode X) ls s)
    (h : Through index s result) :
    s.workflow.statusOf index = some result.status ∧
      (result.status = .completed ↔ ∃ outcome, .accept outcome ∈ s.workflow.answersFor index) := by
  have hagrees := agrees_of_run run
  have hparts := hagrees.parts
  obtain ⟨entry, hentry, -⟩ : ∃ entry, s.workflow.nodes[index]? = some entry ∧ True := by
    obtain ⟨entry, hentry, -⟩ := Option.map_eq_some_iff.mp
      ((List.getElem?_map ..).symm.trans h.monitored)
    exact ⟨entry, hentry, trivial⟩
  have hstatus : s.workflow.statusOf index = some entry.status := by
    rw [WorkflowRunInstance.statusOf, hentry, Option.map_some]
  -- the entry is closed
  have hclosed : entry.status ≠ .running := by
    intro hrunning
    rcases hagrees.followed (by rw [h.stored]; rfl) (hrunning ▸ hstatus) with ⟨flow, hawaits⟩ | hhandle | ⟨_, hmem, -⟩
    · cases h.monitored.symm.trans (hparts.launching.handle flow index hawaits)
    · cases h.monitored.symm.trans hhandle
    · rw [h.drained] at hmem
      cases hmem
  have hresult : s.result = some result := by simp [AgentNode.result, h.stored]
  obtain ⟨outcome, houtcome, hiff, -⟩ := hagrees.results result hresult
  obtain ⟨r, hr, hover⟩ := Option.bind_eq_some_iff.mp houtcome
  -- every answer of the port has been heard
  have hquiet : ¬ Waiting s := by
    rintro (⟨run, hs, hsubmitting⟩ | ⟨payload, hs⟩)
    · exact hparts.not_submitting (by rw [houtcome]; rfl) hs hsubmitting
    · cases h.stored.symm.trans hs
  have hall : (s.workflow.answersFor index).take s.heard = s.workflow.answersFor index := by
    have hcalls := hagrees.calls.quiet hquiet
    rw [WorkflowRunInstance.callsFor] at hcalls
    exact List.take_of_length_le (by omega)
  have haccepts : result.status = .completed ↔
      ∃ outcome, .accept outcome ∈ s.workflow.answersFor index := by
    rw [hiff, hparts.completed_iff hr hover, hagrees.calls.accepts r hr, hall]
  refine ⟨?_, haccepts⟩
  by_cases hcompleted : entry.status = .completed
  · have hwarranted : ∃ outcome, .accept outcome ∈ s.workflow.answersFor index := by
      rcases hparts.warranted (hcompleted ▸ hstatus) with hsubmitting | hmem
      · rw [submitting_of_idle h.idle] at hsubmitting
        cases hsubmitting
      · exact hmem
    rw [hstatus, hcompleted, haccepts.mpr hwarranted]
  · rcases hagrees.endings.closed entry.status ⟨hstatus, hclosed⟩ hcompleted with
      habandoned | hends
    · exact absurd h.monitored (habandoned.unmonitored true)
    · cases hends with
      | doomed _ hhandle => cases hhandle.symm.trans h.stored
      | settled other hother heq =>
        cases hother.symm.trans hresult
        rw [hstatus, heq]
      | broken hhandle => cases hhandle.symm.trans h.stored

/-! ## Concrete runs -/

/-- A check that is enough for a step to be orderly. -/
def AgentNode.checked (c : WorkflowStartRequest X) (index : Nat) (s : AgentNode X)
    (l : NodeLabel) : Bool :=
  (s.delegatedRun.all fun r => (s.block index l).all fun label => CommitsCleanly r label) &&
    match l with
    | .workflow label =>
      ((Workflow.step c s.workflow label).all fun t => t.statusOf index != some .completed ||
          (t.answersFor index).getLast?.all fun result => !(result matches .error _)) &&
        ((shown s.workflow label).all fun sh => sh.entry != index ||
          sh.settlement.status == .completed || accepts c s.workflow label) &&
        !(label matches .interruptsResolved)
    | .settles (.error _) => false
    | _ => true

theorem orderly_of_checked {l : NodeLabel} (h : s.checked c index l = true) :
    Orderly c index s l := by
  unfold AgentNode.checked at h
  rw [Bool.and_eq_true] at h
  obtain ⟨hcommits, h⟩ := h
  refine ⟨fun r label hrun hlabel => ?_, ?_, ?_, ?_, ?_⟩
  · simpa [hrun, hlabel] using hcommits
  · rintro label rfl t fault hstep hanswers hstatus
    simp [hstep, hstatus, hanswers] at h
  · rintro label sh rfl - hshown hentry hstatus
    simp only [Bool.and_eq_true] at h
    simpa [hshown, hentry, hstatus] using h.1.2
  · rintro rfl
    simp at h
  · rintro message rfl
    cases h

def soleNode : Delegation where
  spec := sampleSpec
  messages := [⟨userText "go", userText_role "go"⟩]
  terminal := rfl

/-- The node is started, and the agent calls its terminal tool: the submission waits in the
queue. -/
def nodeSubmits : List NodeLabel :=
  [.workflow .start, .starts, .handles, .workflow (.launchResolved .start),
    .workflow (.resume .start),
    .agent (.run (.complete ⟨{ role := .assistant, content := [.toolUse "a" "submit" []] }, rfl⟩
      ⟨1, 1, none, none⟩ none)),
    .agent (.run .turnReturns), .agent (.run .boundaryReturns), .agent (.block .proceed 1),
    .agent (.preHookReturns 0 .passthrough 2), .agent (.postHookReturns 0 .passthrough 3)]

/-- The port answers, and the agent's run ends. -/
def nodeEnds : List NodeLabel :=
  [.answers 0 4, .agent (.block .resolveTerminal 5), .agent (.block .resumeTerminal 6),
    .agent (.batchReturns 7)]

/-- The settlement is stored, and the monitor and the queue go on. -/
def nodeSettles : List NodeLabel := [.stores true, .observes]

def nodeCompletes : List NodeLabel :=
  nodeSubmits ++ .workflow .dequeue :: nodeEnds ++
    [.settles (.ok ()), .workflow .dequeue, .replies] ++ nodeSettles

def nodeStopped : List NodeLabel :=
  nodeSubmits ++ [.workflow .dequeue, .workflow (.interrupt "stop"), .workflow .dequeue,
    .workflow .interruptsResolved] ++ nodeEnds ++ .settles (.ok ()) :: nodeSettles

/-- The handle has settled with this status, its monitor has heard of it, and the queue of the
workflow run is drained. -/
def isThrough (status : NodeRunStatus) (s : AgentNode Unit) : Bool :=
  (match s.handle with
    | some (.stored result) => result.status == status
    | _ => false) &&
    s.workflow.handles == [(true, true)] && s.workflow.active.isNone && s.workflow.queue.isEmpty

theorem through_of_isThrough {status : NodeRunStatus} {s : AgentNode Unit}
    (h : isThrough status s = true) : ∃ result, Through 0 s result ∧ result.status = status := by
  simp only [isThrough, Bool.and_eq_true, beq_iff_eq, Option.isNone_iff_eq_none,
    List.isEmpty_iff] at h
  obtain ⟨⟨⟨hstored, hhandles⟩, hidle⟩, hdrained⟩ := h
  split at hstored
  · next result hhandle =>
    exact ⟨result, ⟨hhandle, by rw [hhandles]; rfl, hidle, hdrained⟩, beq_iff_eq.mp hstored⟩
  · cases hstored

/-- The agent submits, the port accepts, and `settle()` hears that the node run is finished. -/
theorem records_agree_completed :
    ∃ (s : AgentNode Unit) (result : NodeSettlement), Through 0 s result ∧
      result.status = .completed ∧ s.workflow.statusOf 0 = some .completed ∧
      ∃ outcome, .accept outcome ∈ s.workflow.answersFor 0 := by
  obtain ⟨s, hs, hp⟩ := exists_run (AgentNode.step only soleNode 0)
    (fun s l => s.checked only 0 l = true) ({} : AgentNode Unit) nodeCompletes
    (isThrough .completed) (by decide +kernel)
  obtain ⟨result, hthrough, hstatus⟩ := through_of_isThrough hp
  obtain ⟨hsame, hiff⟩ := records_agree (hs.mono fun _ _ => orderly_of_checked) hthrough
  exact ⟨s, result, hthrough, hstatus, hstatus ▸ hsame, hiff.mp hstatus⟩

/-- **The record and the entry can part**: the port accepts the submission, and an interrupt of the
workflow run aborts the agent before its executor has seen the answer.  The store has the node as
cancelled, and the workflow run has it as completed. -/
theorem accepted_but_cancelled :
    ∃ (s : AgentNode Unit) (result : NodeSettlement),
      Run (AgentNode.step only soleNode 0) Free ({} : AgentNode Unit) nodeStopped s ∧
      Through 0 s result ∧ result.status = .cancelled ∧
      s.workflow.statusOf 0 = some .completed ∧
      s.workflow.statusOf 0 ≠ some result.status := by
  obtain ⟨s, hs, hp⟩ := exists_run (AgentNode.step only soleNode 0) Free ({} : AgentNode Unit)
    nodeStopped (fun s => isThrough .cancelled s && s.workflow.statusOf 0 == some .completed)
    (by decide +kernel)
  rw [Bool.and_eq_true, beq_iff_eq] at hp
  obtain ⟨result, hthrough, hstatus⟩ := through_of_isThrough hp.1
  exact ⟨s, result, hs, hthrough, hstatus, hp.2, by rw [hp.2, hstatus]; nofun⟩

end EphemeralAgent.Nodes
