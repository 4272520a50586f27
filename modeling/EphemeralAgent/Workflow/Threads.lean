import EphemeralAgent.Workflow.Stepped

/-!
# The two threads of a run

`start()` runs beside the queue until its initial dispatches are launched; an interrupt can only
be asked for afterwards.  So an interrupt that waits for its nodes is alone.

* `ThreadMove` — a thread goes on, the queue takes an operation, or the environment calls in
* `Threads` — where the queue, its running operation and `start()` can stand
* `threads_of_run` — they stand so in every state of every run
-/

namespace EphemeralAgent.Workflow

open EphemeralAgent.Lib

variable {X : Type} {c : WorkflowStartRequest X} {s t u : WorkflowRunInstance X}

/-! ## Control functions, field by field -/

/-- The status of an entry. -/
def WorkflowRunInstance.statusOf (s : WorkflowRunInstance X) (entry : Nat) : Option NodeRunStatus :=
  s.nodes[entry]?.map (·.status)

theorem Control.statusOf {faults : List Fault} (h : Control faults s t) (entry : Nat) :
    t.statusOf entry = s.statusOf entry := by
  have := congrArg (fun nodes => (nodes[entry]?).map (·.status)) h.nodes
  simp only [List.getElem?_map, Option.map_map] at this
  exact this

@[simp] theorem endTask_queue (task : QueueTask X) : (endTask task s).queue = s.queue := by
  cases task <;> rfl

@[simp] theorem endTask_active (task : QueueTask X) : (endTask task s).active = none := by
  cases task <;> rfl

@[simp] theorem endTask_startFlow (task : QueueTask X) :
    (endTask task s).startFlow = s.startFlow := by
  cases task <;> rfl

@[simp] theorem failTask_queue (task : QueueTask X) (fault : Fault) :
    (failTask task fault s).queue = s.queue := by
  cases task <;> rfl

@[simp] theorem failTask_active (task : QueueTask X) (fault : Fault) :
    (failTask task fault s).active = none := by
  cases task <;> rfl

@[simp] theorem failTask_startFlow (task : QueueTask X) (fault : Fault) :
    (failTask task fault s).startFlow = s.startFlow := by
  cases task <;> rfl

/-- What a step of one thread does to the threads. -/
structure ThreadStep (flow : FlowId) (s t : WorkflowRunInstance X) : Prop where
  queue : t.queue = s.queue
  start : flow = .start → t.active = s.active ∧ t.startFlow ≠ .idle
  other : flow = .queue → t.startFlow = s.startFlow ∧
    ∀ reason running, t.active ≠ some (.interrupting reason running)

theorem ThreadStep.of_kept {flow : FlowId} (hkept : Kept s u) (h : ThreadStep flow u t) :
    ThreadStep flow s t :=
  ⟨h.queue.trans hkept.queue, fun hf => ⟨(h.start hf).1.trans hkept.active, (h.start hf).2⟩,
    fun hf => ⟨(h.other hf).1.trans hkept.startFlow, (h.other hf).2⟩⟩

theorem threadStep_setFrames {flow : FlowId} (hlive : Live flow s) (frames : List Frame) :
    ThreadStep flow s (setFrames flow frames s) := by
  cases flow with
  | start =>
    refine ⟨?_, fun _ => ?_, fun h => by cases h⟩
    · cases frames <;> rfl
    · cases frames with
      | nil => exact ⟨rfl, by simp [setFrames]⟩
      | cons frame outer => exact ⟨rfl, by simp [setFrames]⟩
  | queue =>
    obtain ⟨task, before, hactive⟩ := hlive rfl
    refine ⟨?_, fun h => (by cases h), fun _ => ?_⟩
    · cases frames <;> simp [setFrames, hactive]
    · cases frames <;> simp [setFrames, hactive]

theorem threadStep_failFlow {flow : FlowId} (hlive : Live flow s) (fault : Fault) :
    ThreadStep flow s (failFlow flow fault s) := by
  cases flow with
  | start => exact ⟨rfl, fun _ => ⟨rfl, by simp [failFlow]⟩, fun h => by cases h⟩
  | queue =>
    obtain ⟨task, before, hactive⟩ := hlive rfl
    refine ⟨?_, fun h => (by cases h), fun _ => ?_⟩ <;> simp [failFlow, hactive]

theorem threadStep_proceed {flow : FlowId} {x : Except Fault (Option Frame) × WorkflowRunInstance X}
    (hkept : Kept s x.2) (hlive : Live flow s) (outer : List Frame) :
    ThreadStep flow s (proceed flow outer x) := by
  obtain ⟨r, u⟩ := x
  cases r with
  | error fault => exact .of_kept hkept (threadStep_failFlow (hkept.live hlive) fault)
  | ok frame => exact .of_kept hkept (threadStep_setFrames (hkept.live hlive) _)

/-- The operation that the queue has taken starts as a thread. -/
theorem threadStep_begin (task : QueueTask X) (frame : Option Frame) :
    ThreadStep .queue { s with active := some (.flow task []) }
      (setFrames .queue (pushFrame frame []) { s with active := some (.flow task []) }) :=
  threadStep_setFrames (fun _ => ⟨task, [], rfl⟩) _

theorem startFlow_of_frames {frame : Frame} {outer : List Frame}
    (h : s.frames .start = frame :: outer) : s.startFlow = .active (frame :: outer) := by
  simp only [WorkflowRunInstance.frames] at h
  split at h
  · next frames hflow => rw [hflow, h]
  · cases h

/-! ## The invariant -/

/-- Where the queue, its running operation and `start()` can stand. -/
structure Threads (s : WorkflowRunInstance X) : Prop where
  idle : s.startFlow = .idle → s = initial
  queued : ∀ reason, .interrupt reason ∈ s.queue → s.startFlow = .returned
  interrupting : ∀ reason running, s.active = some (.interrupting reason running) →
    s.startFlow = .returned ∧ s.finished = false ∧
      ∀ entry, entry ∈ running ↔ s.statusOf entry = some .running

theorem threads_initial : Threads (initial : WorkflowRunInstance X) :=
  ⟨fun _ => rfl, fun _ h => (by cases h), fun _ _ h => by cases h⟩

/-- A step of a thread that has a suspended call keeps the threads in order. -/
theorem Threads.threadStep {flow : FlowId} {frame : Frame} {outer : List Frame} (h : Threads s)
    (hframes : s.frames flow = frame :: outer) (ht : ThreadStep flow s t) : Threads t := by
  cases flow with
  | start =>
    have hflow := startFlow_of_frames hframes
    obtain ⟨hactive, hidle⟩ := ht.start rfl
    refine ⟨fun hi => absurd hi hidle, fun reason hmem => ?_, fun reason running hi => ?_⟩
    · rw [ht.queue] at hmem
      have := h.queued reason hmem
      simp [hflow] at this
    · rw [hactive] at hi
      have := (h.interrupting reason running hi).1
      simp [hflow] at this
  | queue =>
    obtain ⟨hflow, hactive⟩ := ht.other rfl
    refine ⟨fun hi => ?_, fun reason hmem => ?_, fun reason running hi => ?_⟩
    · rw [hflow] at hi
      rw [h.idle hi] at hframes
      cases hframes
    · rw [hflow]
      exact h.queued reason (ht.queue ▸ hmem)
    · exact absurd hi (hactive reason running)

/-- What a step does to the threads. -/
inductive ThreadMove (s : WorkflowRunInstance X) : Label → WorkflowRunInstance X → Prop
  | started {t : WorkflowRunInstance X} (hidle : s.startFlow = .idle) (h : ThreadStep .start s t) :
      ThreadMove s .start t
  | continued {l : Label} {t : WorkflowRunInstance X} {flow : FlowId} {frame : Frame}
      {outer : List Frame} (hl : l.continues flow) (hframes : s.frames flow = frame :: outer)
      (h : ThreadStep flow s t) : ThreadMove s l t
  /-- The environment calls in. -/
  | called {l : Label} {t : WorkflowRunInstance X} (operations : List Operation)
      (hbusy : s.nodes ≠ [] ∨ s.startFlow = .returned) (ht : Control [] s t)
      (hactive : t.active = s.active) (hflow : t.startFlow = s.startFlow)
      (hqueue : t.queue = s.queue ++ operations)
      (hoperations : ∀ reason, .interrupt reason ∈ operations → s.startFlow = .returned) :
      ThreadMove s l t
  /-- The queue takes an operation, which runs as a thread or has ended. -/
  | taken {t : WorkflowRunInstance X} (operation : Operation) (rest : List Operation)
      (hqueue : s.queue = operation :: rest) (htqueue : t.queue = rest)
      (hflow : t.startFlow = s.startFlow)
      (hactive : ∀ reason running, t.active ≠ some (.interrupting reason running)) :
      ThreadMove s .dequeue t
  | interrupting {t : WorkflowRunInstance X} (reason : String) (rest : List Operation)
      (hactive : s.active = none) (hqueue : s.queue = .interrupt reason :: rest)
      (hfinished : s.finished = false) (hflow : t.startFlow = s.startFlow)
      (htactive : t.active = some (.interrupting reason (runningEntries s)))
      (htfinished : t.finished = false) (hnodes : t.nodes = s.nodes) : ThreadMove s .dequeue t
  | answered {l : Label} {t : WorkflowRunInstance X} (reason : String) (running : List Nat)
      (hinterrupting : s.active = some (.interrupting reason running)) (hactive : t.active = none)
      (hflow : t.startFlow = s.startFlow) : ThreadMove s l t

theorem threadMove_submit {index : Nat} {entry : WorkflowNodeRunEntry} {payload : Json}
    {rest : List Operation} (hwell : WellStarted s) (hactive : s.active = none)
    (hqueue : s.queue = .submit index payload :: rest) (hentry : s.nodes[index]? = some entry) :
    ThreadMove s .dequeue (stepSubmit c index entry payload { s with queue := rest }) := by
  obtain ⟨state, hstate⟩ := hwell.state_of_entry hentry
  have hkept := (submitNodeCompletion_cases (c := c) (s := { s with queue := rest }) hstate
    index entry payload).kept (by exact hentry)
  unfold stepSubmit
  cases hr : submitNodeCompletion c index entry payload { s with queue := rest } with
  | mk r u =>
    rw [hr] at hkept
    have hnone : u.active = none := hkept.active.trans hactive
    rcases r with fault | reason | ⟨outcome, frame⟩
    · exact .taken _ rest hqueue hkept.queue hkept.startFlow (by simp [answer, hnone])
    · exact .taken _ rest hqueue hkept.queue hkept.startFlow (by simp [answer, hnone])
    · have ht := threadStep_begin (s := u) (.submit index outcome s.observed) frame
      exact .taken _ rest hqueue (ht.queue.trans hkept.queue)
        ((ht.other rfl).1.trans hkept.startFlow) (ht.other rfl).2

theorem threadMove_settle {index : Nat} {entry : WorkflowNodeRunEntry}
    {settlement : WorkflowNodeSettlement} {rest : List Operation} (hwell : WellStarted s)
    (hactive : s.active = none) (hqueue : s.queue = .settle index settlement :: rest)
    (hentry : s.nodes[index]? = some entry) :
    ThreadMove s .dequeue (stepSettle c index entry settlement { s with queue := rest }) := by
  obtain ⟨state, hstate⟩ := hwell.state_of_entry hentry
  have hkept := (settleNodeRun_cases (c := c) (s := { s with queue := rest }) hstate
    index entry settlement).kept (by exact hentry)
  unfold stepSettle
  cases hr : settleNodeRun c index entry settlement { s with queue := rest } with
  | mk r u =>
    rw [hr] at hkept
    cases r with
    | error fault =>
      have hnone : u.active = none := hkept.active.trans hactive
      exact .taken _ rest hqueue hkept.queue hkept.startFlow (by simp [hnone])
    | ok frame =>
      have ht := threadStep_begin (s := u) (.settle index) frame
      exact .taken _ rest hqueue (ht.queue.trans hkept.queue)
        ((ht.other rfl).1.trans hkept.startFlow) (ht.other rfl).2

/-- The monitor of a node enqueues nothing but its settlement. -/
theorem threadMove_nodeSettled {index : Nat} {entry : WorkflowNodeRunEntry}
    (settlement : NodeSettlement) (hentry : s.nodes[index]? = some entry) :
    ThreadMove s (.nodeSettled index settlement) (stepNodeSettled index entry settlement s) := by
  have hbusy : s.nodes ≠ [] := List.ne_nil_of_mem (List.mem_of_getElem? hentry)
  have hcontrol := control_nodeSettled (s := s) index entry settlement
  obtain ⟨hactive, hflow⟩ := threads_nodeSettled (s := s) index entry settlement
  have hqueue : ∃ operations,
      (stepNodeSettled index entry settlement s).queue = s.queue ++ operations ∧
        ∀ reason, .interrupt reason ∉ operations := by
    unfold stepNodeSettled
    simp only
    split
    · exact ⟨[], by simp, by simp⟩
    · split
      · exact ⟨[], by simp, by simp⟩
      · exact ⟨_, rfl, by simp⟩
  obtain ⟨operations, hqueue, hnone⟩ := hqueue
  exact .called operations (.inl hbusy) hcontrol hactive hflow hqueue
    fun reason hmem => absurd hmem (hnone reason)

theorem threadMove_of_step {l : Label} (hwell : WellStarted s) (hstep : step c s l = some t) :
    ThreadMove s l t := by
  cases fired_of_step hstep with
  -- `start()` and the resumptions run a thread; the rest only calls or takes operations
  | start hidle =>
    rw [stepStart_eq]
    exact .started hidle
      (threadStep_proceed (startRun_cases (c := c) (s := s)).kept live_start [])
  | launchResolved flow index remaining outer hframes =>
    exact .continued (.inl rfl) hframes
      (.of_kept (by exact ⟨rfl, rfl, rfl⟩) (threadStep_setFrames (by exact live_of_frames hframes) _))
  | launchRejected flow reason index entry remaining outer hframes hentry =>
    obtain ⟨state, hstate⟩ := hwell.state_of_entry hentry
    have hkept := (settleNodeRun_cases (c := c) hstate index entry
      (failedLaunchSettlement entry reason)).kept hentry
    rw [stepLaunchRejected_eq]
    exact .continued (.inr (.inl ⟨reason, rfl⟩)) hframes
      (threadStep_proceed hkept (live_of_frames hframes) _)
  | resume flow remaining outer hframes =>
    refine .continued (.inr (.inr rfl)) hframes ?_
    cases remaining with
    | nil => exact threadStep_setFrames (live_of_frames hframes) _
    | cons next rest =>
      simp only [stepResume, claimAndLaunch_run]
      exact .of_kept (by exact ⟨rfl, rfl, rfl⟩)
        (threadStep_setFrames (by exact live_of_frames hframes) _)
  | submit index payload hlt =>
    refine .called [.submit index payload] (.inl ?_)
      (control_fields _ s.active s.startFlow s.clock s.events) rfl rfl rfl (by simp)
    exact List.ne_nil_of_length_pos (by omega)
  | nodeSettled index entry settlement hentry hhandle hopen =>
    exact threadMove_nodeSettled settlement hentry
  | interrupt reason hreturned =>
    exact .called [.interrupt reason] (.inr hreturned)
      (control_fields _ s.active s.startFlow s.clock s.events) rfl rfl rfl fun _ _ => hreturned
  | takesSubmit index entry payload rest hactive hqueue hentry =>
    exact threadMove_submit hwell hactive hqueue hentry
  | takesSettle index entry settlement rest hactive hqueue hentry =>
    exact threadMove_settle hwell hactive hqueue hentry
  | takesInterrupt reason rest hactive hqueue =>
    unfold stepInterrupt beginInterrupt
    simp only [Sync.bind_run, Sync.get_run, Sync.ite_run]
    cases hfinished : s.finished with
    | true => exact .taken _ rest hqueue rfl rfl (by simp [hactive])
    | false => exact .interrupting reason rest hactive hqueue hfinished rfl rfl rfl rfl
  | interruptsResolved reason running hactive =>
    obtain ⟨state, hstate⟩ := hwell.state_of_active hactive
    have hkept := (completeInterrupt_cases (c := c) hstate reason running).kept
    unfold stepInterruptsResolved
    cases hr : completeInterrupt c reason running s with
    | mk r u =>
      rw [hr] at hkept
      cases r with
      | error fault => exact .answered reason running hactive rfl hkept.startFlow
      | ok _ => exact .answered reason running hactive rfl hkept.startFlow
  | interruptsRejected message reason running hactive =>
    exact .answered reason running hactive rfl rfl

theorem mem_runningEntries {entry : Nat} :
    entry ∈ runningEntries s ↔ s.statusOf entry = some .running := by
  unfold runningEntries WorkflowRunInstance.statusOf
  rw [List.mem_filter, List.mem_range]
  cases hentry : s.nodes[entry]? with
  | none => simp
  | some e =>
    have hlt := (List.getElem?_eq_some_iff.mp hentry).1
    simp [hlt]

theorem threads_step {l : Label} (hwell : WellStarted s) (h : Threads s)
    (hstep : step c s l = some t) : Threads t := by
  cases threadMove_of_step hwell hstep with
  | started hidle ht =>
    have hs := h.idle hidle
    obtain ⟨hactive, hne⟩ := ht.start rfl
    refine ⟨fun hi => absurd hi hne, fun reason hmem => ?_, fun reason running hi => ?_⟩
    · rw [ht.queue, hs] at hmem
      cases hmem
    · rw [hactive, hs] at hi
      cases hi
  | continued _ hframes ht => exact h.threadStep hframes ht
  | called operations hbusy ht hactive hflow hqueue hoperations =>
    refine ⟨fun hi => ?_, fun reason hmem => ?_, fun reason running hi => ?_⟩
    · rw [hflow] at hi
      rcases hbusy with hnodes | hreturned
      · rw [h.idle hi] at hnodes
        exact absurd rfl hnodes
      · exact absurd (hi.symm.trans hreturned) nofun
    · rw [hflow]
      rw [hqueue] at hmem
      rcases List.mem_append.mp hmem with hmem | hmem
      · exact h.queued reason hmem
      · exact hoperations reason hmem
    · obtain ⟨hreturned, hfinished, hrunning⟩ := h.interrupting reason running (hactive ▸ hi)
      refine ⟨hflow.trans hreturned, ht.finished.trans hfinished, fun entry => ?_⟩
      rw [ht.statusOf]
      exact hrunning entry
  | taken operation rest hqueue htqueue hflow hactive =>
    refine ⟨fun hi => ?_, fun reason hmem => ?_, fun reason running hi => ?_⟩
    · rw [hflow] at hi
      rw [h.idle hi] at hqueue
      cases hqueue
    · rw [hflow]
      rw [htqueue] at hmem
      exact h.queued reason (hqueue ▸ List.mem_cons_of_mem _ hmem)
    · exact absurd hi (hactive reason running)
  | interrupting reason rest _ hqueue _ hflow htactive hfinished hnodes =>
    have hreturned := hflow.trans (h.queued reason (hqueue ▸ List.mem_cons_self))
    refine ⟨fun hi => absurd (hreturned.symm.trans hi) nofun, fun _ _ => hreturned, ?_⟩
    intro reason' running hi
    cases htactive.symm.trans hi
    refine ⟨hreturned, hfinished, fun entry => ?_⟩
    rw [WorkflowRunInstance.statusOf, hnodes]
    exact mem_runningEntries
  | answered reason running hinterrupting hactive hflow =>
    have hreturned := (h.interrupting reason running hinterrupting).1
    refine ⟨fun hi => absurd (hreturned.symm.trans (hflow.symm.trans hi)) nofun,
      fun _ _ => hflow.trans hreturned, fun _ _ hi => ?_⟩
    cases hactive.symm.trans hi

theorem threads_of_run {ok : WorkflowRunInstance X → Label → Prop} {ls : List Label}
    (run : Run (step c) ok initial ls s) : Threads s :=
  run.invariant_of wellStarted_of_run threads_initial fun _ _ _ _ hwell h hstep =>
    threads_step hwell h hstep

end EphemeralAgent.Workflow
