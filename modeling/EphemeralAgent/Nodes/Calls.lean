import EphemeralAgent.Nodes.Runner
import EphemeralAgent.Workflow.FailedStart

/-!
# The calls of the completion port

Two callers share the port of an entry: `onSubmit` of the agent, and `settle()` of the node handle
once the agent has completed.

* `Orderly` — the condition on the steps under which the records agree
* `Parts`, `parts_step` — the workflow run and the agent's run are runs of their own
* `Calls`, `calls_step` — at most one call waits; the answers that have been heard say what the
  agent has accepted
-/

namespace EphemeralAgent.Workflow

open Lib

variable {X : Type} {c : WorkflowStartRequest X} {s t : WorkflowRunInstance X} {index : Nat}

/-- How often the port of an entry has been called. -/
def WorkflowRunInstance.callsFor (s : WorkflowRunInstance X) (index : Nat) : Nat :=
  s.openFor index + (s.answersFor index).length

theorem callsFor_step {l : Label} (h : PortStep index s l t)
    (hl : ∀ payload, l ≠ .submit index payload) :
    t.callsFor index = s.callsFor index ∧
      ∃ more, t.answersFor index = s.answersFor index ++ more := by
  unfold WorkflowRunInstance.callsFor
  cases h with
  | quiet _ hopen hanswers => exact ⟨by rw [hopen, hanswers], [], by simp [hanswers]⟩
  | called payload => exact absurd rfl (hl payload)
  | entered _ _ _ _ hopen hanswers => exact ⟨by rw [hopen, hanswers], [], by simp [hanswers]⟩
  | finished result _ _ _ hopen hanswers =>
    refine ⟨?_, [result], hanswers⟩
    rw [hopen, hanswers, List.length_append, List.length_singleton]
    omega
  | answered result _ _ hopen hanswers =>
    refine ⟨?_, [result], hanswers⟩
    rw [hopen, hanswers, List.length_append, List.length_singleton]
    omega

theorem callsFor_submit {payload : Json} (hwell : WellStarted s)
    (hstep : step c s (.submit index payload) = some t) :
    t.callsFor index = s.callsFor index + 1 ∧ t.answersFor index = s.answersFor index ∧
      (t.submitting = some index ↔ s.submitting = some index) := by
  unfold WorkflowRunInstance.callsFor
  cases portStep_of_step index hwell hstep with
  | quiet _ _ _ _ hl => exact absurd rfl (hl payload)
  | called _ hsubmitting hopen hanswers =>
    refine ⟨?_, hanswers, hsubmitting⟩
    rw [hopen, hanswers]
    omega
  | finished _ _ _ _ _ _ hl => exact absurd rfl (hl payload)

/-- A step that answers nobody breaks no word. -/
theorem keepsWord_of_same {l : Label}
    (h : ∀ t, step c s l = some t → t.answersFor index = s.answersFor index) :
    KeepsWord c index s l := by
  intro t fault hstep hanswers
  have hlength := congrArg List.length (hanswers.symm.trans (h t hstep))
  simp at hlength

theorem keepsWord_submit (hwell : WellStarted s) (payload : Json) :
    KeepsWord c index s (.submit index payload) :=
  keepsWord_of_same fun _ hstep => (callsFor_submit hwell hstep).2.1

theorem answersFor_nodeSettled {settlement : NodeSettlement}
    (hstep : step c s (.nodeSettled index settlement) = some t) :
    t.answersFor index = s.answersFor index := by
  cases fired_of_step hstep with
  | nodeSettled index entry settlement hentry hhandle hopen =>
    unfold stepNodeSettled
    simp only
    split
    · rfl
    · split <;> rfl

end EphemeralAgent.Workflow

namespace EphemeralAgent.Nodes

open Lib Engine EphemeralAgent.Runtime Workflow

variable {X : Type} {c : WorkflowStartRequest X} {d : Delegation} {index : Nat}

/-! ## The condition -/

namespace AgentNode

/-- The block of the agent's run that a step consists of. -/
def block (index : Nat) (s : AgentNode X) : NodeLabel → Option (SystemLabel Json)
  | .workflow label =>
    if beginsInterrupt s.workflow label && s.handle.isSome then some (.run .interrupt) else none
  | .agent label => some label
  | .answers call instant =>
    (s.reply index).map fun result => .submitReturns call (onSubmit result) instant
  | .handles => if s.workflow.aborted.isSome then some (.run .interrupt) else none
  | _ => none

/-- The handle has settled as failed, or is bound to. -/
inductive Failing (s : AgentNode X) : Prop
  | outcome (outcome : AgentOutcome Json) (error : AgentRunError)
      (hhandle : s.handle = some .outcome) (houtcome : s.outcome = some outcome)
      (hstatus : outcome.status = .failed error)
  | finishing (reason : String) (hhandle : s.handle = some (.finishing (.failed reason)))
  | stored (reason : String) (hhandle : s.handle = some (.stored (.failed reason)))

/-- The interrupt that the queue runs is going to cancel the entry. -/
def Interrupting (index : Nat) (s : AgentNode X) : Prop :=
  ∃ reason running, s.workflow.active = some (.interrupting reason running) ∧ index ∈ running

end AgentNode

/-- **The condition**, on a state and the step that is taken from it.

* The agent's run commits cleanly: it is not aborted between the acceptance of its submission and
  the check of the executor.
* The workflow run does not answer a submission with an exception after it has closed the entry.
* It does not refuse the end of a node that has a handle.
* No interrupt cancels the entry of a node that settles as failed.
* The store of the agent's run throws only while the entry is running. -/
structure Orderly (c : WorkflowStartRequest X) (index : Nat) (s : AgentNode X) (l : NodeLabel) :
    Prop where
  commits : ∀ r label, s.delegatedRun = some r → s.block index l = some label →
    CommitsCleanly r label
  keepsWord : ∀ label, l = .workflow label → KeepsWord c index s.workflow label
  accepts : ∀ label sh, l = .workflow label → s.handle.isSome = true →
    shown s.workflow label = some sh → sh.entry = index → sh.settlement.status ≠ .completed →
      accepts c s.workflow label = true
  inTime : l = .workflow .interruptsResolved → s.Interrupting index → ¬ s.Failing
  recorded : ∀ message, l = .settles (.error message) →
    s.workflow.statusOf index = some .running

/-! ## The parts -/

/-- The workflow run and the agent's run are runs of their own. -/
structure Parts (c : WorkflowStartRequest X) (d : Delegation) (index : Nat) (s : AgentNode X) :
    Prop where
  workflow : ∃ ls, Run (Workflow.step c) (KeepsWord c index) Workflow.initial ls s.workflow
  agent : ∀ r, s.delegatedRun = some r → ∃ labels,
    Run (Recorded.step (AgentSystem.step d.spec)) CommitsCleanly
      (AgentSystem.start d.spec d.messages) labels r

namespace Parts

variable {s t : AgentNode X}

theorem wellStarted (h : Parts c d index s) : WellStarted s.workflow :=
  let ⟨_, run⟩ := h.workflow
  wellStarted_of_run run

theorem threads (h : Parts c d index s) : Threads s.workflow :=
  let ⟨_, run⟩ := h.workflow
  threads_of_run run

theorem launching (h : Parts c d index s) : Launching s.workflow :=
  let ⟨_, run⟩ := h.workflow
  launching_of_run run.free

theorem granted (h : Parts c d index s) : Granted s.workflow index :=
  let ⟨_, run⟩ := h.workflow
  granted_of_run index run

theorem warranted (h : Parts c d index s) : Warranted s.workflow index :=
  let ⟨_, run⟩ := h.workflow
  warranted_of_run (fun _ _ => id) run

theorem known (h : Parts c d index s) {r : SystemHistory Json} (hrun : s.delegatedRun = some r) :
    Known d.spec r :=
  let ⟨_, run⟩ := h.agent r hrun
  known_of_run run

theorem backed (h : Parts c d index s) {r : SystemHistory Json} (hrun : s.delegatedRun = some r) :
    Backed r.state r.history :=
  let ⟨_, run⟩ := h.agent r hrun
  backed_of_run run

theorem live (h : Parts c d index s) {r : SystemHistory Json} (hrun : s.delegatedRun = some r)
    (hnone : outcomeOf r.history = none) : r.state.run.handle.finished = false :=
  let ⟨_, run⟩ := h.agent r hrun
  live_of_outcomeOf_none run hnone

/-- An agent completes exactly with what has been accepted. -/
theorem completed_iff (h : Parts c d index s) {r : SystemHistory Json}
    (hrun : s.delegatedRun = some r) {outcome : AgentOutcome Json}
    (houtcome : outcomeOf r.history = some outcome) :
    (∃ completion, outcome.status = .completed completion) ↔ ∃ value, Accepts r.history value := by
  obtain ⟨labels, run⟩ := h.agent r hrun
  constructor
  · rintro ⟨completion, hstatus⟩
    obtain ⟨value, -, haccepts⟩ := accepts_of_completed d.terminal run houtcome hstatus
    exact ⟨value, haccepts⟩
  · rintro ⟨value, haccepts⟩
    exact ⟨_, (completed_iff_accepts run houtcome value).mpr haccepts⟩

theorem initial : Parts c d index ({} : AgentNode X) where
  workflow := ⟨[], .nil Workflow.initial⟩
  agent r hrun := by cases hrun

/-- The workflow run goes on. -/
theorem goOn (h : Parts c d index s) {label : Label} {u : WorkflowRunInstance X}
    (hword : KeepsWord c index s.workflow label) (hstep : Workflow.step c s.workflow label = some u) :
    ∃ ls, Run (Workflow.step c) (KeepsWord c index) Workflow.initial ls u :=
  let ⟨_, run⟩ := h.workflow
  ⟨_, run.snoc hword hstep⟩

/-- The agent's run goes on. -/
theorem block (h : Parts c d index s) {label : SystemLabel Json} {r r' : SystemHistory Json}
    {items : List (SystemItem Json)} (hblock : Block d s label r r' items)
    (hclean : CommitsCleanly r label) : ∀ run, some r' = some run → ∃ labels,
      Run (Recorded.step (AgentSystem.step d.spec)) CommitsCleanly
        (AgentSystem.start d.spec d.messages) labels run := by
  rintro run ⟨⟩
  obtain ⟨labels, hrun⟩ := h.agent r hblock.run
  exact ⟨_, hrun.snoc hclean hblock.recorded⟩

end Parts

theorem parts_step {s t : AgentNode X} {l : NodeLabel} (h : Parts c d index s)
    (hok : Orderly c index s l) (hmoved : Moved c d index s l t) : Parts c d index t := by
  cases hmoved with
  | workflow _ hstep => exact ⟨h.goOn (hok.keepsWord _ rfl) hstep, h.agent⟩
  | interrupted hstep hbegins hhandle hblock =>
    refine ⟨h.goOn (hok.keepsWord _ rfl) hstep, h.block hblock (hok.commits _ _ hblock.run ?_)⟩
    simp [AgentNode.block, hbegins, hhandle]
  | started =>
    refine ⟨h.workflow, ?_⟩
    rintro r ⟨⟩
    exact ⟨[], .nil _⟩
  | blocked hblock => exact ⟨h.workflow, h.block hblock (hok.commits _ _ hblock.run rfl)⟩
  | submitted hblock _ _ _ hstep =>
    exact ⟨h.goOn (keepsWord_submit h.wellStarted _) hstep,
      h.block hblock (hok.commits _ _ hblock.run rfl)⟩
  | answered hreply hblock =>
    refine ⟨h.workflow, h.block hblock (hok.commits _ _ hblock.run ?_)⟩
    simp [AgentNode.block, hreply]
  | handledAborted _ _ haborted hblock =>
    refine ⟨h.workflow, h.block hblock (hok.commits _ _ hblock.run ?_)⟩
    simp [AgentNode.block, haborted]
  | resubmitted _ _ _ hstep =>
    exact ⟨h.goOn (keepsWord_submit h.wellStarted _) hstep, h.agent⟩
  | observed _ hstep =>
    exact ⟨h.goOn (keepsWord_of_same fun _ => answersFor_nodeSettled) hstep, h.agent⟩
  | handled | ended | replied | stored => exact ⟨h.workflow, h.agent⟩

/-! ## One call at a time -/

/-- A call of the port waits for its answer. -/
inductive Waiting (s : AgentNode X) : Prop
  | onSubmit (r : SystemHistory Json) (hrun : s.delegatedRun = some r)
      (hsubmitting : Submitting r.state)
  | settle (payload : Json) (hhandle : s.handle = some (.submitting payload))

/-- At most one call waits, and what has been heard is what the agent knows. -/
structure Calls (index : Nat) (s : AgentNode X) : Prop where
  heard : s.heard ≤ (s.workflow.answersFor index).length
  waiting : Waiting s → s.workflow.callsFor index = s.heard + 1
  quiet : ¬ Waiting s → s.workflow.callsFor index = s.heard
  accepts : ∀ r, s.delegatedRun = some r → ((∃ value, Accepts r.history value) ↔
    ∃ outcome, .accept outcome ∈ (s.workflow.answersFor index).take s.heard)
  unstarted : s.delegatedRun = none → s.handle = none ∧ s.heard = 0
  /-- The handle goes on when the agent is over. -/
  ended : ∀ settling, s.handle = some settling → settling ≠ .outcome → s.outcome.isSome = true
  /-- It submits again what has been accepted. -/
  again : ∀ payload, s.handle = some (.submitting payload) →
    ∃ r value, s.delegatedRun = some r ∧ Accepts r.history value

section Calls

variable {s t : AgentNode X}

/-- Once the agent is over, `onSubmit` is not executing. -/
theorem Parts.not_submitting (h : Parts c d index s) (hover : s.outcome.isSome = true)
    {r : SystemHistory Json} (hrun : s.delegatedRun = some r) : ¬ Submitting r.state := by
  intro hsubmitting
  have hnone := (h.known hrun).unfinished_of_submitting hsubmitting
  simp [AgentNode.outcome, hrun, hnone] at hover

/-- What the agent has ended with stays. -/
theorem outcome_kept {r r' : SystemHistory Json} {items : List (SystemItem Json)}
    {label : SystemLabel Json} (hblock : Block d s label r r' items)
    (hrun : t.delegatedRun = some r') {outcome : AgentOutcome Json}
    (houtcome : s.outcome = some outcome) : t.outcome = some outcome := by
  simp only [AgentNode.outcome, hblock.run, Option.bind_some] at houtcome
  rw [AgentNode.outcome, hrun, Option.bind_some, hblock.history]
  exact outcomeOf_kept houtcome

theorem Block.accepts_iff {r r' : SystemHistory Json} {items : List (SystemItem Json)}
    {label : SystemLabel Json} (hblock : Block d s label r r' items)
    (hitems : ∀ item ∈ items, item.isAccepted = false) :
    (∃ value, Accepts r'.history value) ↔ ∃ value, Accepts r.history value := by
  rw [hblock.history]
  exact Runtime.accepts_iff hitems

/-- The agent's run stays as it is, or goes on without moving a submission. -/
inductive RunKept (d : Delegation) (s t : AgentNode X) : Prop
  | same (hrun : t.delegatedRun = s.delegatedRun)
  | block {label : SystemLabel Json} {r r' : SystemHistory Json} {items : List (SystemItem Json)}
      (hblock : Block d s label r r' items) (hquiet : Quiet r r' items)
      (hrun : t.delegatedRun = some r')

theorem RunKept.outcome (h : RunKept d s t) {outcome : AgentOutcome Json}
    (houtcome : s.outcome = some outcome) : t.outcome = some outcome := by
  cases h with
  | same hrun => rwa [AgentNode.outcome, hrun]
  | block hblock _ hrun => exact outcome_kept hblock hrun houtcome

theorem RunKept.exists_run (h : RunKept d s t) {r' : SystemHistory Json}
    (ht : t.delegatedRun = some r') : ∃ r, s.delegatedRun = some r ∧
      (Submitting r'.state ↔ Submitting r.state) ∧
      ((∃ value, Accepts r'.history value) ↔ ∃ value, Accepts r.history value) := by
  cases h with
  | same hrun => exact ⟨r', hrun ▸ ht, Iff.rfl, Iff.rfl⟩
  | block hblock hquiet hrun =>
    cases hrun.symm.trans ht
    exact ⟨_, hblock.run, hquiet.stages, hblock.accepts_iff hquiet.items⟩

theorem RunKept.exists_kept (h : RunKept d s t) {r : SystemHistory Json}
    (hs : s.delegatedRun = some r) : ∃ r', t.delegatedRun = some r' ∧
      (Submitting r'.state ↔ Submitting r.state) ∧
      ((∃ value, Accepts r'.history value) ↔ ∃ value, Accepts r.history value) := by
  cases h with
  | same hrun => exact ⟨r, hrun.trans hs, Iff.rfl, Iff.rfl⟩
  | block hblock hquiet hrun =>
    cases hblock.run.symm.trans hs
    exact ⟨_, hrun, hquiet.stages, hblock.accepts_iff hquiet.items⟩

/-- How the handle may go on without a call. -/
structure HandleKept (s t : AgentNode X) : Prop where
  next : ∀ settling, t.handle = some settling → s.handle = some settling ∨
    s.handle = none ∧ s.delegatedRun.isSome = true ∧ settling = .outcome ∨
    s.outcome.isSome = true ∧ ∀ payload, settling ≠ .submitting payload
  waits : ∀ payload, s.handle = some (.submitting payload) → t.handle = some (.submitting payload)

theorem HandleKept.same (h : t.handle = s.handle) : HandleKept s t :=
  ⟨fun _ ht => .inl (h ▸ ht), fun _ hs => h.trans hs⟩

theorem HandleKept.waiting_iff (h : HandleKept s t) (hrun : RunKept d s t) :
    Waiting t ↔ Waiting s := by
  constructor
  · rintro (⟨r', hr', hsubmitting⟩ | ⟨payload, ht⟩)
    · obtain ⟨r, hr, hiff, -⟩ := hrun.exists_run hr'
      exact .onSubmit r hr (hiff.mp hsubmitting)
    · rcases h.next _ ht with hs | ⟨-, -, heq⟩ | ⟨-, hne⟩
      · exact .settle payload hs
      · cases heq
      · exact absurd rfl (hne payload)
  · rintro (⟨r, hr, hsubmitting⟩ | ⟨payload, hs⟩)
    · obtain ⟨r', hr', hiff, -⟩ := hrun.exists_kept hr
      exact .onSubmit r' hr' (hiff.mpr hsubmitting)
    · exact .settle payload (h.waits payload hs)

/-- What has been heard stays. -/
theorem take_answers {more : List SubmissionResult} (h : Calls index s)
    (hanswers : t.workflow.answersFor index = s.workflow.answersFor index ++ more)
    (hheard : t.heard = s.heard) :
    t.heard ≤ (t.workflow.answersFor index).length ∧
      (t.workflow.answersFor index).take t.heard =
        (s.workflow.answersFor index).take s.heard := by
  rw [hheard, hanswers]
  exact ⟨h.heard.trans (by simp), List.take_append_of_le_length h.heard⟩

/-- A step that neither calls the port nor hears an answer. -/
theorem Calls.frame (h : Calls index s) (hrun : RunKept d s t) (hhandle : HandleKept s t)
    (hheard : t.heard = s.heard)
    (hcalls : t.workflow.callsFor index = s.workflow.callsFor index ∧ ∃ more,
      t.workflow.answersFor index = s.workflow.answersFor index ++ more) : Calls index t := by
  obtain ⟨hcalls, more, hanswers⟩ := hcalls
  obtain ⟨hle, htake⟩ := take_answers h hanswers hheard
  have hwaiting := hhandle.waiting_iff hrun
  refine ⟨hle, fun ht => ?_, fun ht => ?_, fun r' hr' => ?_, fun hnone => ?_,
    fun settling ht hne => ?_, fun payload ht => ?_⟩
  · rw [hcalls, hheard]
    exact h.waiting (hwaiting.mp ht)
  · rw [hcalls, hheard]
    exact h.quiet fun hs => ht (hwaiting.mpr hs)
  · obtain ⟨r, hr, -, haccepts⟩ := hrun.exists_run hr'
    rw [haccepts, htake]
    exact h.accepts r hr
  · have hs : s.delegatedRun = none := by
      cases hrun with
      | same heq => exact heq.symm.trans hnone
      | block _ _ heq => cases heq.symm.trans hnone
    obtain ⟨hsnone, hzero⟩ := h.unstarted hs
    refine ⟨?_, hheard.trans hzero⟩
    cases ht : t.handle with
    | none => rfl
    | some settling =>
      rcases hhandle.next _ ht with heq | ⟨-, hsome, -⟩ | ⟨hover, -⟩
      · cases hsnone.symm.trans heq
      · simp [hs] at hsome
      · simp [AgentNode.outcome, hs] at hover
  · have hover : s.outcome.isSome = true := by
      rcases hhandle.next _ ht with heq | ⟨-, -, heq⟩ | ⟨hover, -⟩
      · exact h.ended settling heq hne
      · exact absurd heq hne
      · exact hover
    obtain ⟨outcome, houtcome⟩ := Option.isSome_iff_exists.mp hover
    rw [hrun.outcome houtcome]
    rfl
  · rcases hhandle.next _ ht with heq | ⟨-, -, heq⟩ | ⟨-, hne⟩
    · obtain ⟨r, value, hr, hvalue⟩ := h.again payload heq
      obtain ⟨r', hr', -, haccepts⟩ := hrun.exists_kept hr
      obtain ⟨value', hvalue'⟩ := haccepts.mpr ⟨value, hvalue⟩
      exact ⟨r', value', hr', hvalue'⟩
    · cases heq
    · exact absurd rfl (hne payload)

theorem beginsInterrupt_dequeue {s : WorkflowRunInstance X} {label : Label}
    (h : beginsInterrupt s label = true) : label = .dequeue := by
  cases label <;> first | rfl | cases h

theorem not_submit_of_permits {label : Label} (h : s.permits index label = true)
    (payload : Json) : label ≠ .submit index payload := by
  rintro rfl
  simp [AgentNode.permits] at h

/-- What the reply is. -/
theorem reply_cases {result : SubmissionResult} (h : s.reply index = some result) :
    s.heard < (s.workflow.answersFor index).length ∧
      (s.workflow.answersFor index).take (s.heard + 1) =
        (s.workflow.answersFor index).take s.heard ++ [result] := by
  obtain ⟨hlt, heq⟩ := List.getElem?_eq_some_iff.mp h
  exact ⟨hlt, by rw [List.take_succ_eq_append_getElem hlt, heq]⟩

theorem calls_initial : Calls index ({} : AgentNode X) := by
  refine ⟨Nat.zero_le _, ?_, fun _ => rfl, ?_, fun _ => ⟨rfl, rfl⟩, ?_, ?_⟩
  · rintro (⟨r, hrun, -⟩ | ⟨payload, hhandle⟩)
    · cases hrun
    · cases hhandle
  · intro r hrun
    cases hrun
  · intro settling hhandle
    cases hhandle
  · intro payload hhandle
    cases hhandle

/-- The agent's run calls the port, and nothing else waits. -/
theorem Calls.submitted {label : SystemLabel Json} {r r' : SystemHistory Json}
    {items : List (SystemItem Json)} {payload : Json} (h : Calls index s) (hparts : Parts c d index s)
    (ht : Parts c d index t) (hblock : Block d s label r r' items)
    (hitems : ∀ item ∈ items, item.isAccepted = false) (hbefore : ¬ Submitting r.state)
    (hafter : Submitting r'.state) (hrun : t.delegatedRun = some r') (hhandle : t.handle = s.handle)
    (hheard : t.heard = s.heard)
    (hstep : Workflow.step c s.workflow (.submit index payload) = some t.workflow) :
    Calls index t := by
  obtain ⟨hcalls, hanswers, -⟩ := callsFor_submit hparts.wellStarted hstep
  -- the agent is not over, so the handle does not wait either
  have hlive : s.outcome = none := by
    cases houtcome : s.outcome with
    | none => rfl
    | some outcome =>
      have hover := outcome_kept hblock hrun houtcome
      exact absurd hafter (ht.not_submitting (by rw [hover]; rfl) hrun)
  have hsettling : ∀ settling, t.handle = some settling → settling = .outcome := by
    intro settling hsettling
    by_contra hne
    have := h.ended settling (hhandle ▸ hsettling) hne
    simp [hlive] at this
  have hquiet : ¬ Waiting s := by
    rintro (⟨run, hs, hsubmitting⟩ | ⟨waits, hs⟩)
    · cases hblock.run.symm.trans hs
      exact hbefore hsubmitting
    · cases hsettling _ (hhandle.trans hs)
  refine ⟨?_, fun _ => ?_, fun hnot => absurd (.onSubmit r' hrun hafter) hnot, fun run hs => ?_,
    fun hnone => ?_, fun settling hs hne => absurd (hsettling settling hs) hne, fun waits hs => ?_⟩
  · rw [hheard, hanswers]
    exact h.heard
  · rw [hcalls, hheard, h.quiet hquiet]
  · cases hrun.symm.trans hs
    rw [hblock.accepts_iff hitems, hanswers, hheard]
    exact h.accepts r hblock.run
  · cases hrun.symm.trans hnone
  · cases hsettling _ hs

/-- `onSubmit` hears the answer that it waits for. -/
theorem Calls.answered {call instant : Nat} {result : SubmissionResult} {r r' : SystemHistory Json}
    {items : List (SystemItem Json)} (h : Calls index s) (hparts : Parts c d index s)
    (hreply : s.reply index = some result)
    (hblock : Block d s (.submitReturns call (onSubmit result) instant) r r' items)
    (hitems : items = match onSubmit result with
      | .accept value => [.accepted call value]
      | _ => []) (hbefore : Submitting r.state) (hafter : ¬ Submitting r'.state)
    (hrun : t.delegatedRun = some r') (hhandle : t.handle = s.handle)
    (hheard : t.heard = s.heard + 1) (hworkflow : t.workflow = s.workflow) : Calls index t := by
  obtain ⟨hlt, htake⟩ := reply_cases hreply
  have hlive : s.outcome.isSome = false := by
    cases hover : s.outcome.isSome with
    | false => rfl
    | true => exact absurd hbefore (hparts.not_submitting hover hblock.run)
  have hsettling : ∀ settling, t.handle = some settling → settling = .outcome := by
    intro settling hsettling
    by_contra hne
    exact absurd (h.ended settling (hhandle ▸ hsettling) hne) (by simp [hlive])
  have hquiet : ¬ Waiting t := by
    rintro (⟨run, hs, hsubmitting⟩ | ⟨waits, hs⟩)
    · cases hrun.symm.trans hs
      exact hafter hsubmitting
    · cases hsettling _ hs
  refine ⟨?_, fun hwaits => absurd hwaits hquiet, fun _ => ?_, fun run hs => ?_, fun hnone => ?_,
    fun settling hs hne => absurd (hsettling settling hs) hne, fun waits hs => ?_⟩
  · rw [hheard, hworkflow]
    exact hlt
  · rw [hheard, hworkflow, h.waiting (.onSubmit r hblock.run hbefore)]
  · cases hrun.symm.trans hs
    rw [hblock.history, hheard, hworkflow, htake, hitems]
    have hbase := h.accepts r hblock.run
    cases result with
    | accept outcome =>
      refine iff_of_true ⟨outcome.outcome, call, ?_⟩ ⟨outcome, ?_⟩
      · exact List.mem_append_right _ (List.mem_singleton.mpr rfl)
      · exact List.mem_append_right _ (List.mem_singleton.mpr rfl)
    | reject reason => simpa [onSubmit] using hbase
    | error fault => simpa [onSubmit] using hbase
  · cases hrun.symm.trans hnone
  · cases hsettling _ hs

/-- `settle()` calls the port: nothing else waits, and its payload has been accepted before. -/
theorem Calls.resubmitted {outcome : AgentOutcome Json} {value : Completion Json} {payload : Json}
    (h : Calls index s) (hparts : Parts c d index s) (hhandle : s.handle = some .outcome)
    (houtcome : s.outcome = some outcome) (hstatus : outcome.status = .completed value)
    (hrun : t.delegatedRun = s.delegatedRun) (ht : t.handle = some (.submitting payload))
    (hheard : t.heard = s.heard)
    (hstep : Workflow.step c s.workflow (.submit index payload) = some t.workflow) :
    Calls index t := by
  obtain ⟨hcalls, hanswers, -⟩ := callsFor_submit hparts.wellStarted hstep
  obtain ⟨r, hr, hover⟩ := Option.bind_eq_some_iff.mp houtcome
  have hquiet : ¬ Waiting s := by
    rintro (⟨run, hs, hsubmitting⟩ | ⟨waits, hs⟩)
    · exact hparts.not_submitting (by rw [houtcome]; rfl) hs hsubmitting
    · cases hhandle.symm.trans hs
  refine ⟨?_, fun _ => ?_, fun hnot => absurd (.settle payload ht) hnot, fun run hs => ?_,
    fun hnone => ?_, fun _ _ _ => ?_, fun _ _ => ?_⟩
  · rw [hheard, hanswers]
    exact h.heard
  · rw [hcalls, hheard, h.quiet hquiet]
  · rw [hanswers, hheard]
    exact h.accepts run (hrun ▸ hs)
  · cases hr.symm.trans (hrun.symm.trans hnone)
  · rw [AgentNode.outcome, hrun, hr, Option.bind_some, hover]
    rfl
  · obtain ⟨value, haccepts⟩ := (hparts.completed_iff hr hover).mp ⟨value, hstatus⟩
    exact ⟨r, value, hrun.trans hr, haccepts⟩

/-- `settle()` hears the answer that it waits for. -/
theorem Calls.replied {payload : Json} {result : SubmissionResult} {settlement : NodeSettlement}
    (h : Calls index s) (hparts : Parts c d index s)
    (hhandle : s.handle = some (.submitting payload)) (hreply : s.reply index = some result)
    (hrun : t.delegatedRun = s.delegatedRun) (ht : t.handle = some (.finishing settlement))
    (hheard : t.heard = s.heard + 1) (hworkflow : t.workflow = s.workflow) : Calls index t := by
  obtain ⟨hlt, htake⟩ := reply_cases hreply
  have hover := h.ended _ hhandle nofun
  obtain ⟨r, value, hr, haccepts⟩ := h.again payload hhandle
  have hquiet : ¬ Waiting t := by
    rintro (⟨run, hs, hsubmitting⟩ | ⟨waits, hs⟩)
    · exact hparts.not_submitting hover (hrun ▸ hs) hsubmitting
    · cases ht.symm.trans hs
  refine ⟨?_, fun hwaits => absurd hwaits hquiet, fun _ => ?_, fun run hs => ?_, fun hnone => ?_,
    fun _ _ _ => ?_, fun _ hs => ?_⟩
  · rw [hheard, hworkflow]
    exact hlt
  · rw [hheard, hworkflow, h.waiting (.settle payload hhandle)]
  · cases hr.symm.trans (hrun ▸ hs)
    obtain ⟨outcome, hmem⟩ := (h.accepts r hr).mp ⟨value, haccepts⟩
    refine iff_of_true ⟨value, haccepts⟩ ⟨outcome, ?_⟩
    rw [hheard, hworkflow, htake]
    exact List.mem_append_left _ hmem
  · cases hr.symm.trans (hrun.symm.trans hnone)
  · rwa [AgentNode.outcome, hrun]
  · cases ht.symm.trans hs

theorem calls_step {l : NodeLabel} (h : Calls index s) (hparts : Parts c d index s)
    (ht : Parts c d index t) (hmoved : Moved c d index s l t) : Calls index t := by
  have hwell := hparts.wellStarted
  have hidle : s.workflow.callsFor index = s.workflow.callsFor index ∧ ∃ more,
      s.workflow.answersFor index = s.workflow.answersFor index ++ more := ⟨rfl, [], by simp⟩
  cases hmoved with
  | workflow hpermits hstep =>
    exact h.frame (d := d) (.same rfl) (.same rfl) rfl
      (callsFor_step (portStep_of_step index hwell hstep) (not_submit_of_permits hpermits))
  | interrupted hstep hbegins _ hblock hquiet =>
    obtain rfl := beginsInterrupt_dequeue hbegins
    exact h.frame (.block hblock hquiet rfl) (.same rfl) rfl
      (callsFor_step (portStep_of_step index hwell hstep) nofun)
  | started _ hrun hhandle =>
    obtain ⟨-, hzero⟩ := h.unstarted hrun
    -- a run that has just started submits nothing
    have hquiet : ∀ run : SystemHistory Json,
        some (AgentSystem.start d.spec d.messages) = some run → ¬ Submitting run.state := by
      rintro run ⟨⟩ ⟨stage, hmem, -⟩
      cases hmem
    -- and before it there was nobody to wait
    have hbefore : ¬ Waiting s := by
      rintro (⟨run, hs, -⟩ | ⟨payload, hs⟩)
      · cases hrun.symm.trans hs
      · cases hhandle.symm.trans hs
    refine ⟨h.heard, ?_, fun _ => h.quiet hbefore, ?_, nofun, ?_, ?_⟩
    · rintro (⟨run, hs, hsubmitting⟩ | ⟨payload, hs⟩)
      · exact absurd hsubmitting (hquiet run hs)
      · cases hhandle.symm.trans hs
    · rintro run ⟨⟩
      refine iff_of_false (fun ⟨value, hvalue⟩ => not_accepts_start d.messages value hvalue) ?_
      rintro ⟨outcome, hmem⟩
      simp [hzero] at hmem
    · intro settling hs
      cases hhandle.symm.trans hs
    · intro payload hs
      cases hhandle.symm.trans hs
  | blocked hblock hquiet => exact h.frame (.block hblock hquiet rfl) (.same rfl) rfl hidle
  | submitted hblock hitems hbefore hafter hstep =>
    exact h.submitted hparts ht hblock hitems hbefore hafter rfl rfl rfl hstep
  | answered hreply hblock hitems hbefore hafter =>
    exact h.answered hparts hreply hblock hitems hbefore hafter rfl rfl rfl rfl
  | handled _ hhandle hrun =>
    refine h.frame (d := d) (.same rfl) ⟨fun settling hs => ?_, fun payload hs => ?_⟩ rfl hidle
    · cases hs
      exact .inr (.inl ⟨hhandle, hrun, rfl⟩)
    · cases hhandle.symm.trans hs
  | handledAborted _ hhandle _ hblock hquiet =>
    refine h.frame (.block hblock hquiet rfl) ⟨fun settling hs => ?_, fun payload hs => ?_⟩ rfl hidle
    · cases hs
      exact .inr (.inl ⟨hhandle, by rw [hblock.run]; rfl, rfl⟩)
    · cases hhandle.symm.trans hs
  | ended hhandle houtcome =>
    refine h.frame (d := d) (.same rfl) ⟨fun settling hs => ?_, fun payload hs => ?_⟩ rfl hidle
    · cases hs
      exact .inr (.inr ⟨by rw [houtcome]; rfl, nofun⟩)
    · cases hhandle.symm.trans hs
  | resubmitted hhandle houtcome hstatus hstep =>
    exact h.resubmitted hparts hhandle houtcome hstatus rfl rfl rfl hstep
  | replied hhandle hreply => exact h.replied hparts hhandle hreply rfl rfl rfl rfl
  | @stored result written hhandle =>
    refine h.frame (d := d) (.same rfl) ⟨fun settling hs => ?_, fun payload hs => ?_⟩ rfl hidle
    · cases hs
      refine .inr (.inr ⟨h.ended _ hhandle nofun, fun payload heq => ?_⟩)
      cases written <;> cases heq
    · cases hhandle.symm.trans hs
  | observed hhandle hstep =>
    exact h.frame (d := d) (.same rfl) (.same rfl) rfl
      (callsFor_step (portStep_of_step index hwell hstep) nofun)

end Calls

end EphemeralAgent.Nodes
