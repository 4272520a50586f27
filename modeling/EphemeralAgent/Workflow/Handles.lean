import EphemeralAgent.Workflow.Turns

/-!
# Handles and the queue

A launch that resolves gives its entry a handle, and the settlement of a handle resolves once.
Neither is code of the run; the run only reads what the monitor of the handle puts in the queue.

* `Surroundings`, `surroundings_step` — what a step does to the handles and to the queue
* `queue_step` — where the settlements in the queue come from
-/

namespace EphemeralAgent.Workflow

open EphemeralAgent.Lib

variable {X : Type} {c : WorkflowStartRequest X} {s t u : WorkflowRunInstance X}

/-- Which entries have a handle, and which of these have settled. -/
def WorkflowRunInstance.handles (s : WorkflowRunInstance X) : List (Bool × Bool) :=
  s.nodes.map fun entry => (entry.handle, entry.settled)

/-- Entries are only added, without a handle. -/
def HandlesKept (s t : WorkflowRunInstance X) : Prop :=
  ∃ count, t.handles = s.handles ++ List.replicate count (false, false)

theorem HandlesKept.of_nodes (h : t.nodes = s.nodes) : HandlesKept s t :=
  ⟨0, by simp [WorkflowRunInstance.handles, h]⟩

theorem HandlesKept.launched {entry : WorkflowNodeRunEntry} (h : t.nodes = s.nodes ++ [entry])
    (hhandle : entry.handle = false) (hsettled : entry.settled = false) : HandlesKept s t :=
  ⟨1, by simp [WorkflowRunInstance.handles, h, hhandle, hsettled]⟩

theorem HandlesKept.of_handles (hs : t.handles = s.handles) (h : HandlesKept t u) :
    HandlesKept s u := by
  obtain ⟨count, hcount⟩ := h
  exact ⟨count, by rw [hcount, hs]⟩

theorem HandlesKept.of_nodes_eq (h : HandlesKept s t) (hnodes : u.nodes = t.nodes) :
    HandlesKept s u := by
  obtain ⟨count, hcount⟩ := h
  exact ⟨count, by rw [← hcount, WorkflowRunInstance.handles, WorkflowRunInstance.handles, hnodes]⟩

/-! ## The code between two awaits -/

theorem Ended.handlesKept {state : WorkflowState X} {r : Except Fault (Option Frame)}
    (h : Ended c state s r t) : HandlesKept s t := by
  cases h with
  | quiet _ hnodes => exact .of_nodes hnodes
  | deadlocked _ _ _ _ _ _ _ _ hnodes => exact .of_nodes hnodes
  | launched _ _ _ _ _ _ _ _ _ hnodes => exact .launched hnodes rfl rfl

theorem Applied.handlesKept {entry : Nat} {settlement : WorkflowNodeSettlement}
    {state : WorkflowState X} {r : Except Fault (Option Frame)}
    (h : Applied c entry settlement state s r t) : HandlesKept s t := by
  cases h with
  | evaluated _ _ _ _ _ _ _ _ _ _ _ _ ht => exact ht.ended.handlesKept.of_handles rfl
  | _ => exact .of_nodes rfl

theorem Started.handlesKept {r : Except Fault (Option Frame)} (h : Started c s r t) :
    HandlesKept s t := by
  cases h with
  | threw => exact .of_nodes rfl
  | created _ _ _ _ _ _ ht => exact ht.ended.handlesKept.of_handles rfl

theorem ShownIn.handles {sh : Shown X} (h : ShownIn s sh) : sh.closed.handles = s.handles := by
  obtain ⟨clock, events, close, hclosed, hclose⟩ := h.closed
  rw [hclosed]
  refine map_modify_of_eq (fun entry => ?_) _ _
  obtain ⟨-, -, -, hhandle, hsettled⟩ := hclose entry
  rw [hhandle, hsettled]

theorem Interrupted.handlesKept {reason : String} {running : List Nat} {state : WorkflowState X}
    {r : Except Fault Unit} (h : Interrupted reason running state s r t) : HandlesKept s t := by
  have hcancel := fun completedAt => map_cancelEntries
    (g := fun entry => (entry.handle, entry.settled)) (fun _ _ => rfl) completedAt running s.nodes
  refine ⟨0, ?_⟩
  rw [List.replicate_zero, List.append_nil]
  cases h with
  | threw => exact hcancel _
  | done _ _ _ _ _ ht =>
    unfold WorkflowRunInstance.handles
    rw [ht.view.2.1]
    exact hcancel _

theorem Settlement.handlesKept {index : Nat} {entry : WorkflowNodeRunEntry}
    {settlement : WorkflowNodeSettlement} {state : WorkflowState X}
    {r : Except Fault (Option Frame)} (hentry : s.nodes[index]? = some entry)
    (h : Settlement c index entry settlement state s r t) : HandlesKept s t := by
  cases h with
  | applied sh hsh _ _ _ hu =>
    exact hu.handlesKept.of_handles (shownIn_settlement hentry hsh).handles
  | _ => exact .of_nodes rfl

theorem Submission.handlesKept {index : Nat} {entry : WorkflowNodeRunEntry} {payload : Json}
    {state : WorkflowState X} {r : Except Fault Submitted} (hentry : s.nodes[index]? = some entry)
    (h : Submission c index entry payload state s r t) : HandlesKept s t := by
  cases h with
  | applied sh hsh _ _ _ _ hu =>
    exact hu.handlesKept.of_handles (shownIn_submission hentry hsh).handles
  | threw sh hsh _ _ _ hu =>
    exact hu.handlesKept.of_handles (shownIn_submission hentry hsh).handles
  | _ => exact .of_nodes rfl

/-! ## Control between the steps -/

theorem queue_setFrames (flow : FlowId) (frames : List Frame) :
    (setFrames flow frames s).queue = s.queue := by
  cases flow with
  | start => cases frames <;> rfl
  | queue =>
    unfold setFrames
    simp only
    split
    · next task _ _ => cases task <;> rfl
    · rfl
    · rfl

theorem nodes_setFrames (flow : FlowId) (frames : List Frame) :
    (setFrames flow frames s).nodes = s.nodes := by
  cases flow with
  | start => cases frames <;> rfl
  | queue =>
    unfold setFrames
    simp only
    split
    · next task _ _ => cases task <;> rfl
    · rfl
    · rfl

theorem queue_failFlow (flow : FlowId) (fault : Fault) :
    (failFlow flow fault s).queue = s.queue := by
  cases flow with
  | start => rfl
  | queue =>
    unfold failFlow
    simp only
    split
    · next task _ _ => cases task <;> rfl
    · rfl

theorem nodes_failFlow (flow : FlowId) (fault : Fault) :
    (failFlow flow fault s).nodes = s.nodes := by
  cases flow with
  | start => rfl
  | queue =>
    unfold failFlow
    simp only
    split
    · next task _ _ => cases task <;> rfl
    · rfl

theorem interrupt_run (reason : String) :
    (stepInterrupt reason s).queue = s.queue ∧ (stepInterrupt reason s).nodes = s.nodes := by
  unfold stepInterrupt beginInterrupt
  simp only [Sync.bind_run, Sync.get_run, Sync.ite_run]
  cases s.finished <;> exact ⟨rfl, rfl⟩

/-! ## The steps -/

/-- Neither a handle nor the queue is what the label is about. -/
def Label.ofCode : Label → Bool
  | .start | .launchRejected .. | .resume _ | .interruptsResolved | .interruptsRejected _ => true
  | _ => false

/-- What a step does to the handles and to the queue. -/
inductive Surroundings (s : WorkflowRunInstance X) : Label → WorkflowRunInstance X → Prop
  | kept {l : Label} {t : WorkflowRunInstance X} (hl : l.ofCode = true)
      (hhandles : HandlesKept s t) (hqueue : t.queue = s.queue) : Surroundings s l t
  | taken {t : WorkflowRunInstance X} (operation : Operation) (hhandles : HandlesKept s t)
      (hqueue : s.queue = operation :: t.queue) : Surroundings s .dequeue t
  | submitted {t : WorkflowRunInstance X} (entry : Nat) (payload : Json)
      (hhandles : HandlesKept s t) (hqueue : t.queue = s.queue ++ [.submit entry payload]) :
      Surroundings s (.submit entry payload) t
  | asked {t : WorkflowRunInstance X} (reason : String) (hhandles : HandlesKept s t)
      (hqueue : t.queue = s.queue ++ [.interrupt reason]) : Surroundings s (.interrupt reason) t
  | resolved {t : WorkflowRunInstance X} (flow : FlowId) (index : Nat)
      (remaining : List WorkflowNodeDispatch) (outer : List Frame)
      (hframes : s.frames flow = { awaiting := some index, remaining } :: outer)
      (hhandles : t.handles = s.handles.modify index fun handle => (true, handle.2))
      (hqueue : t.queue = s.queue)
      (hcall : FramesTo flow ({ awaiting := none, remaining } :: outer) s t) :
      Surroundings s (.launchResolved flow) t
  | settled {t : WorkflowRunInstance X} (index : Nat) (entry : WorkflowNodeRunEntry)
      (settlement : NodeSettlement) (hentry : s.nodes[index]? = some entry)
      (hhandle : entry.handle = true)
      (hhandles : t.handles = s.handles.modify index fun handle => (handle.1, true))
      (hqueue : (t.queue = s.queue ∧
          (monitoredSettlement entry settlement = none ∨ entry.status ≠ .running)) ∨
        ∃ monitored, monitoredSettlement entry settlement = some monitored ∧
          t.queue = s.queue ++ [.settle index monitored]) :
      Surroundings s (.nodeSettled index settlement) t

theorem handles_modify {f : WorkflowNodeRunEntry → WorkflowNodeRunEntry}
    {g : Bool × Bool → Bool × Bool} {index : Nat}
    (hf : ∀ entry, ((f entry).handle, (f entry).settled) = g (entry.handle, entry.settled))
    (h : t.nodes = s.nodes.modify index f) : t.handles = s.handles.modify index g := by
  unfold WorkflowRunInstance.handles
  rw [h]
  apply List.ext_getElem?
  intro position
  simp only [List.getElem?_map, List.getElem?_modify]
  cases s.nodes[position]? with
  | none => rfl
  | some entry =>
    simp only [Option.map_some, Functor.map]
    split
    · exact congrArg some (hf entry)
    · rfl

theorem surroundings_submit {index : Nat} {entry : WorkflowNodeRunEntry} {payload : Json}
    {rest : List Operation} (hwell : WellStarted s) (hqueue : s.queue = .submit index payload :: rest)
    (hentry : s.nodes[index]? = some entry) :
    Surroundings s .dequeue (stepSubmit c index entry payload { s with queue := rest }) := by
  obtain ⟨state, hstate⟩ := hwell.state_of_entry hentry
  have hsubmission := submitNodeCompletion_cases (c := c) (s := { s with queue := rest }) hstate
    index entry payload
  have hkept := hsubmission.kept (by exact hentry)
  have hhandles := hsubmission.handlesKept (by exact hentry)
  unfold stepSubmit
  cases hr : submitNodeCompletion c index entry payload { s with queue := rest } with
  | mk r u =>
    rw [hr] at hkept hhandles
    have hu : s.queue = .submit index payload :: u.queue := by rw [hkept.queue, hqueue]
    rcases r with fault | reason | ⟨outcome, frame⟩
    · exact .taken _ hhandles hu
    · exact .taken _ hhandles hu
    · refine .taken _ (hhandles.of_nodes_eq ?_) (by rw [queue_setFrames]; exact hu)
      rw [nodes_setFrames]

theorem surroundings_settle {index : Nat} {entry : WorkflowNodeRunEntry}
    {settlement : WorkflowNodeSettlement} {rest : List Operation} (hwell : WellStarted s)
    (hqueue : s.queue = .settle index settlement :: rest) (hentry : s.nodes[index]? = some entry) :
    Surroundings s .dequeue (stepSettle c index entry settlement { s with queue := rest }) := by
  obtain ⟨state, hstate⟩ := hwell.state_of_entry hentry
  have hsettlement := settleNodeRun_cases (c := c) (s := { s with queue := rest }) hstate
    index entry settlement
  have hkept := hsettlement.kept (by exact hentry)
  have hhandles := hsettlement.handlesKept (by exact hentry)
  unfold stepSettle
  cases hr : settleNodeRun c index entry settlement { s with queue := rest } with
  | mk r u =>
    rw [hr] at hkept hhandles
    have hu : s.queue = .settle index settlement :: u.queue := by rw [hkept.queue, hqueue]
    cases r with
    | error fault => exact .taken _ hhandles hu
    | ok frame =>
      refine .taken _ (hhandles.of_nodes_eq ?_) (by rw [queue_setFrames]; exact hu)
      rw [nodes_setFrames]

/-- The monitor of a node enqueues its settlement, unless there is nothing left to settle. -/
theorem surroundings_nodeSettled {index : Nat} {entry : WorkflowNodeRunEntry}
    (settlement : NodeSettlement) (hentry : s.nodes[index]? = some entry)
    (hhandle : entry.handle = true) :
    Surroundings s (.nodeSettled index settlement) (stepNodeSettled index entry settlement s) := by
  unfold stepNodeSettled
  simp only
  split
  · next hnone =>
    exact .settled index entry settlement hentry hhandle (handles_modify (fun _ => rfl) rfl)
      (.inl ⟨rfl, .inl hnone⟩)
  · next monitored hmonitored =>
    split
    · next hclosed =>
      exact .settled index entry settlement hentry hhandle (handles_modify (fun _ => rfl) rfl)
        (.inl ⟨rfl, .inr hclosed⟩)
    · exact .settled index entry settlement hentry hhandle (handles_modify (fun _ => rfl) rfl)
        (.inr ⟨monitored, hmonitored, rfl⟩)

theorem surroundings_proceed {l : Label} {flow : FlowId}
    {x : Except Fault (Option Frame) × WorkflowRunInstance X} (hl : l.ofCode = true)
    (hkept : Kept s x.2) (hhandles : HandlesKept s x.2) (outer : List Frame) :
    Surroundings s l (proceed flow outer x) := by
  obtain ⟨r, u⟩ := x
  cases r with
  | error fault =>
    exact .kept hl (hhandles.of_nodes_eq (nodes_failFlow _ _))
      ((queue_failFlow _ _).trans hkept.queue)
  | ok frame =>
    exact .kept hl (hhandles.of_nodes_eq (nodes_setFrames _ _))
      ((queue_setFrames _ _).trans hkept.queue)

theorem surroundings_step {l : Label} (hwell : WellStarted s) (hstep : step c s l = some t) :
    Surroundings s l t := by
  cases fired_of_step hstep with
  | start hidle =>
    have hstarted := startRun_cases (c := c) (s := s)
    rw [stepStart_eq]
    exact surroundings_proceed rfl hstarted.kept hstarted.handlesKept []
  | launchResolved flow index remaining outer hframes =>
    have hlive : Live flow { s with
        nodes := s.nodes.modify index fun entry => { entry with handle := true } } :=
      live_of_frames hframes
    exact .resolved flow index remaining outer hframes
      (handles_modify (fun _ => rfl) (nodes_setFrames _ _)) (queue_setFrames _ _)
      (.of_kept ⟨rfl, rfl, rfl⟩ (frames_setFrames hlive _))
  | launchRejected flow reason index entry remaining outer hframes hentry =>
    obtain ⟨state, hstate⟩ := hwell.state_of_entry hentry
    have hsettlement := settleNodeRun_cases (c := c) hstate index entry
      (failedLaunchSettlement entry reason)
    rw [stepLaunchRejected_eq]
    exact surroundings_proceed rfl (hsettlement.kept hentry) (hsettlement.handlesKept hentry) _
  | resume flow remaining outer hframes =>
    cases remaining with
    | nil => exact .kept rfl (.of_nodes (nodes_setFrames _ _)) (queue_setFrames _ _)
    | cons next rest =>
      simp only [stepResume, claimAndLaunch_run]
      exact .kept rfl (.launched (nodes_setFrames _ _) rfl rfl) (queue_setFrames _ _)
  | submit index payload hlt => exact .submitted index payload (.of_nodes rfl) rfl
  | nodeSettled index entry settlement hentry hhandle hopen =>
    exact surroundings_nodeSettled settlement hentry hhandle
  | interrupt reason hreturned => exact .asked reason (.of_nodes rfl) rfl
  | takesSubmit index entry payload rest hactive hqueue hentry =>
    exact surroundings_submit hwell hqueue hentry
  | takesSettle index entry settlement rest hactive hqueue hentry =>
    exact surroundings_settle hwell hqueue hentry
  | takesInterrupt reason rest hactive hqueue =>
    obtain ⟨hrest, hnodes⟩ := interrupt_run (s := { s with queue := rest }) reason
    exact .taken _ (.of_nodes hnodes) (by rw [hrest]; exact hqueue)
  | interruptsResolved reason running hactive =>
    obtain ⟨state, hstate⟩ := hwell.state_of_active hactive
    have hinterrupted := completeInterrupt_cases (c := c) hstate reason running
    have hkept := hinterrupted.kept
    have hhandles := hinterrupted.handlesKept
    unfold stepInterruptsResolved
    cases hr : completeInterrupt c reason running s with
    | mk r u =>
      rw [hr] at hkept hhandles
      cases r with
      | error fault => exact .kept rfl hhandles hkept.queue
      | ok _ => exact .kept rfl hhandles hkept.queue
  | interruptsRejected message reason running hactive => exact .kept rfl (.of_nodes rfl) rfl

/-! ## Settlements in the queue -/

/-- A settlement in the queue was there before, or the monitor of its node has put it there. -/
def QueuedFrom (s t : WorkflowRunInstance X) : Prop :=
  ∀ index settlement, .settle index settlement ∈ t.queue →
    .settle index settlement ∈ s.queue ∨
      ∃ entry, s.nodes[index]? = some entry ∧ entry.handle = true ∧
        settlement.metadata = entry.metadata

theorem monitored_metadata {entry : WorkflowNodeRunEntry} {settlement : NodeSettlement}
    {monitored : WorkflowNodeSettlement} (h : monitoredSettlement entry settlement = some monitored) :
    monitored.metadata = entry.metadata := by
  cases settlement <;> simp only [monitoredSettlement, Option.some.injEq, reduceCtorEq] at h <;>
    (subst h; rfl)

theorem queue_step {l : Label} (hwell : WellStarted s) (hstep : step c s l = some t) :
    QueuedFrom s t := by
  intro index settlement hmem
  cases surroundings_step hwell hstep with
  | kept _ _ hqueue => exact .inl (hqueue ▸ hmem)
  | taken operation _ hqueue => exact .inl (hqueue ▸ List.mem_cons_of_mem _ hmem)
  | submitted entry payload _ hqueue =>
    rw [hqueue] at hmem
    rcases List.mem_append.mp hmem with hmem | hmem
    · exact .inl hmem
    · simp at hmem
  | asked reason _ hqueue =>
    rw [hqueue] at hmem
    rcases List.mem_append.mp hmem with hmem | hmem
    · exact .inl hmem
    · simp at hmem
  | resolved _ _ _ _ _ _ hqueue => exact .inl (hqueue ▸ hmem)
  | settled _ entry _ hentry hhandle _ hqueue =>
    rcases hqueue with ⟨hqueue, -⟩ | ⟨monitored, hmonitored, hqueue⟩
    · exact .inl (hqueue ▸ hmem)
    · rw [hqueue] at hmem
      rcases List.mem_append.mp hmem with hmem | hmem
      · exact .inl hmem
      · obtain ⟨rfl, rfl⟩ := Operation.settle.inj (List.mem_singleton.mp hmem)
        exact .inr ⟨entry, hentry, hhandle, monitored_metadata hmonitored⟩

end EphemeralAgent.Workflow
