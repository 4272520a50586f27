import EphemeralAgent.Workflow.Shown

/-!
# What a step can do

Around the code of a step there is control: the queue, the threads, the bookkeeping of the
history.  `Stepped` lists what a step can do up to control, and `stepped_of_step` says that the
list is complete.

* `Control` — what changes only queue, threads, clock, events and the bookkeeping of the history
* `Stepped`, `stepped_of_step` — the steps of a run, up to `Control`
-/

namespace EphemeralAgent.Workflow

open EphemeralAgent.Lib

variable {X : Type} {c : WorkflowStartRequest X} {s t u : WorkflowRunInstance X}

/-! ## Starting and interrupting -/

/-- How `startRun` ends. -/
inductive Started (c : WorkflowStartRequest X) (s : WorkflowRunInstance X) :
    Except Fault (Option Frame) → WorkflowRunInstance X → Prop
  | threw (message : String) (clock : Stamp) :
      Started c s (.error ⟨.createInitialState, message⟩) { s with clock }
  | created (state : WorkflowState X)
      (hcreate : c.implementation.createInitialState s.clock c.definition c.args = .ok state)
      (clock : Stamp) (events : List WorkflowRunEvent) (r : Except Fault (Option Frame))
      (t : WorkflowRunInstance X)
      (ht : Concluded c state
        { s with
          state := some state
          clock
          events
          history := s.history ++ [.created state] } r t) :
      Started c s r t

theorem startRun_cases : Started c s (startRun c s).1 (startRun c s).2 := by
  unfold startRun
  simp only [Sync.bind_run, callback_run]
  cases hcreate : c.implementation.createInitialState s.clock c.definition c.args with
  | error message => exact .threw message _
  | ok state => exact .created state hcreate _ _ _ _ (conclude_cases rfl rfl)

/-- How `completeInterrupt` ends. -/
inductive Interrupted (reason : String) (running : List Nat) (state : WorkflowState X)
    (s : WorkflowRunInstance X) : Except Fault Unit → WorkflowRunInstance X → Prop
  | threw (message : String) (completedAt clock : Stamp) (events : List WorkflowRunEvent) :
      Interrupted reason running state s (.error ⟨.toJsonObject, message⟩)
        { s with
          state := some (interruptState state reason)
          nodes := cancelEntries completedAt running s.nodes
          clock
          events
          history := s.history ++ [.interrupted reason] }
  | done (snapshot : StateSnapshot) (completedAt clock : Stamp) (events : List WorkflowRunEvent)
      (t : WorkflowRunInstance X)
      (ht : Finished (.cancelled reason)
        { s with
          state := some (interruptState state reason)
          nodes := cancelEntries completedAt running s.nodes
          snapshots := s.snapshots ++ [snapshot]
          clock
          events
          history := s.history ++ [.interrupted reason] } t) :
      Interrupted reason running state s (.ok ()) t

theorem completeInterrupt_cases {state : WorkflowState X} (h : s.state = some state)
    (reason : String) (running : List Nat) :
    Interrupted reason running state s (completeInterrupt c reason running s).1
      (completeInterrupt c reason running s).2 := by
  simp only [completeInterrupt, Sync.bind_run, now_run, Sync.modify_run, requireState, Sync.get_run,
    h, Sync.pure_run, setState_run, note_run, emit_run]
  generalize hu : (WorkflowRunInstance.mk .. : WorkflowRunInstance X) = u
  have hstate : u.state = some (interruptState state reason) := by rw [← hu]
  have hrec := recordSnapshot_cases (c := c) hstate
  cases hr : recordSnapshot c u with
  | mk r v =>
    rw [hr] at hrec
    subst hu
    cases hrec with
    | threw message clock => exact .threw message _ clock _
    | recorded snapshot clock events =>
      simp only
      obtain ⟨hok, hfin⟩ := finish_cases (X := X) (.cancelled reason)
      cases hr' : finish (X := X) (.cancelled reason) _ with
      | mk r w =>
        rw [hr'] at hok hfin
        obtain rfl : r = .ok () := hok
        exact .done snapshot _ clock events w hfin

/-! ## Control -/

/-- An entry without the two flags of its handle. -/
def WorkflowNodeRunEntry.record (entry : WorkflowNodeRunEntry) : WorkflowNodeRunEntry :=
  { entry with handle := false, settled := false }

namespace HistoryItem

/-- The exception that an item records. -/
def asFault : HistoryItem X → Option Fault
  | .fault _ thrown => some thrown
  | _ => none

/-- Items about answers, exceptions and interrupted nodes. -/
def bookkeeping : HistoryItem X → Bool
  | .answered .. | .fault .. | .nodeInterrupted _ => true
  | _ => false

end HistoryItem

/-- `t` differs from `s` in control only, and records these exceptions. -/
structure Control (faults : List Fault) (s t : WorkflowRunInstance X) : Prop where
  state : t.state = s.state
  nodes : t.nodes.map (·.record) = s.nodes.map (·.record)
  snapshots : t.snapshots = s.snapshots
  finished : t.finished = s.finished
  outcome : t.outcome = s.outcome
  history : ∃ items, t.history = s.history ++ items ∧ items.filterMap (·.asFault) = faults ∧
    ∀ item ∈ items, item.bookkeeping = true

theorem Control.refl (s : WorkflowRunInstance X) : Control [] s s :=
  ⟨rfl, rfl, rfl, rfl, rfl, [], by simp⟩

theorem Control.trans {faults faults' : List Fault} (h₁ : Control faults s t)
    (h₂ : Control faults' t u) : Control (faults ++ faults') s u := by
  obtain ⟨items, hitems, hfaults, hbook⟩ := h₁.history
  obtain ⟨items', hitems', hfaults', hbook'⟩ := h₂.history
  refine ⟨h₂.state.trans h₁.state, h₂.nodes.trans h₁.nodes, h₂.snapshots.trans h₁.snapshots,
    h₂.finished.trans h₁.finished, h₂.outcome.trans h₁.outcome, items ++ items', ?_, ?_, ?_⟩
  · rw [hitems', hitems, List.append_assoc]
  · rw [List.filterMap_append, hfaults, hfaults']
  · intro item hitem
    rcases List.mem_append.mp hitem with h | h
    · exact hbook item h
    · exact hbook' item h

/-- Storing flags of an entry's handle is control. -/
theorem control_flags {nodes : List WorkflowNodeRunEntry} (index : Nat)
    (f : WorkflowNodeRunEntry → WorkflowNodeRunEntry) (hf : ∀ entry, (f entry).record = entry.record)
    (hnodes : nodes = s.nodes.modify index f) : Control [] s { s with nodes } := by
  subst hnodes
  refine ⟨rfl, ?_, rfl, rfl, rfl, [], by simp⟩
  apply List.ext_getElem?
  intro i
  simp only [List.getElem?_map, List.getElem?_modify]
  cases s.nodes[i]? with
  | none => rfl
  | some entry =>
    simp only [Option.map_some, Functor.map]
    split
    · rw [hf]
    · rfl

theorem control_answer (entry : Nat) (result : SubmissionResult) (before : Observed X) :
    Control [] s (answer entry result before s) :=
  ⟨rfl, rfl, rfl, rfl, rfl, [.answered entry result before s.observed], rfl, rfl, by
    simp [HistoryItem.bookkeeping]⟩

theorem control_fault (flow : FlowId) (fault : Fault) :
    Control [fault] s { s with history := s.history ++ [.fault flow fault] } :=
  ⟨rfl, rfl, rfl, rfl, rfl, [.fault flow fault], rfl, rfl, by simp [HistoryItem.bookkeeping]⟩

/-- Queue, threads, clock and events are control. -/
theorem control_fields (queue : List Operation) (active : Option (Active X))
    (startFlow : StartFlow) (clock : Stamp) (events : List WorkflowRunEvent) :
    Control [] s { s with queue, active, startFlow, clock, events } :=
  ⟨rfl, rfl, rfl, rfl, rfl, [], by simp⟩

theorem control_endTask (task : QueueTask X) : Control [] s (endTask task s) := by
  cases task with
  | submit entry outcome before =>
    exact (control_fields s.queue none s.startFlow s.clock s.events).trans
      (control_answer entry (.accept outcome) before)
  | settle entry => exact control_fields s.queue none s.startFlow s.clock s.events

theorem control_failTask (task : QueueTask X) (fault : Fault) :
    Control [fault] s (failTask task fault s) := by
  have hfault : Control [fault] s
      { s with active := none, history := s.history ++ [.fault .queue fault] } :=
    (control_fields s.queue none s.startFlow s.clock s.events).trans (control_fault .queue fault)
  cases task with
  | submit entry outcome before => exact hfault.trans (control_answer entry (.error fault) before)
  | settle entry => exact hfault

theorem control_setFrames (flow : FlowId) (frames : List Frame) :
    Control [] s (setFrames flow frames s) := by
  cases flow with
  | start => cases frames <;> exact control_fields s.queue s.active _ s.clock s.events
  | queue =>
    simp only [setFrames]
    split
    · exact control_endTask _
    · exact control_fields s.queue _ s.startFlow s.clock s.events
    · exact .refl s

/-- A thread that can fail: `start()`, or the operation of the queue. -/
def Live (flow : FlowId) (s : WorkflowRunInstance X) : Prop :=
  flow = .queue → ∃ task frames, s.active = some (.flow task frames)

theorem live_of_frames {flow : FlowId} {frame : Frame} {outer : List Frame}
    (h : s.frames flow = frame :: outer) : Live flow s := by
  rintro rfl
  simp only [WorkflowRunInstance.frames] at h
  split at h
  · next task frames hactive => exact ⟨task, frames, hactive⟩
  · cases h

theorem control_failFlow {flow : FlowId} (hlive : Live flow s) (fault : Fault) :
    Control [fault] s (failFlow flow fault s) := by
  cases flow with
  | start =>
    exact (control_fields s.queue s.active (.failed fault) s.clock s.events).trans
      (control_fault .start fault)
  | queue =>
    obtain ⟨task, frames, hactive⟩ := hlive rfl
    unfold failFlow
    simp only [hactive]
    exact control_failTask task fault

/-! ## What the code between two awaits leaves alone -/

/-- The queue and the threads are as before. -/
structure Kept (s t : WorkflowRunInstance X) : Prop where
  queue : t.queue = s.queue
  active : t.active = s.active
  startFlow : t.startFlow = s.startFlow

theorem Kept.live {flow : FlowId} (h : Kept s t) (hlive : Live flow s) : Live flow t := by
  intro hflow
  rw [h.active]
  exact hlive hflow

theorem Finished.kept {outcome : WorkflowOutcome} (h : Finished outcome s t) : Kept s t := by
  cases h <;> exact ⟨rfl, rfl, rfl⟩

theorem Idled.kept {state : WorkflowState X} {r : Except Fault Unit} (h : Idled c state s r t) :
    Kept s t := by
  cases h with
  | deadlocked _ _ _ _ _ _ ht => exact ⟨ht.kept.queue, ht.kept.active, ht.kept.startFlow⟩
  | _ => exact ⟨rfl, rfl, rfl⟩

theorem Dispatched.kept {state : WorkflowState X} {r : Except Fault (Option Frame)}
    (h : Dispatched c state s r t) : Kept s t := by
  cases h with
  | idle _ _ _ _ _ ht => exact ⟨ht.kept.queue, ht.kept.active, ht.kept.startFlow⟩
  | idleThrew _ _ _ _ _ _ ht => exact ⟨ht.kept.queue, ht.kept.active, ht.kept.startFlow⟩
  | _ => exact ⟨rfl, rfl, rfl⟩

theorem Concluded.kept {state : WorkflowState X} {r : Except Fault (Option Frame)}
    (h : Concluded c state s r t) : Kept s t := by
  cases h with
  | finished _ _ _ _ _ _ _ ht => exact ⟨ht.kept.queue, ht.kept.active, ht.kept.startFlow⟩
  | continued _ _ _ _ _ _ ht => exact ⟨ht.kept.queue, ht.kept.active, ht.kept.startFlow⟩
  | _ => exact ⟨rfl, rfl, rfl⟩

theorem Applied.kept {entry : Nat} {settlement : WorkflowNodeSettlement} {state : WorkflowState X}
    {r : Except Fault (Option Frame)} (h : Applied c entry settlement state s r t) : Kept s t := by
  cases h with
  | evaluated _ _ _ _ _ _ _ _ _ _ _ _ ht => exact ⟨ht.kept.queue, ht.kept.active, ht.kept.startFlow⟩
  | _ => exact ⟨rfl, rfl, rfl⟩

theorem ShownIn.kept {sh : Shown X} (h : ShownIn s sh) : Kept s sh.closed := by
  obtain ⟨_, _, _, hclosed, _⟩ := h.closed
  rw [hclosed]
  exact ⟨rfl, rfl, rfl⟩

theorem Kept.trans (h₁ : Kept s t) (h₂ : Kept t u) : Kept s u :=
  ⟨h₂.queue.trans h₁.queue, h₂.active.trans h₁.active, h₂.startFlow.trans h₁.startFlow⟩

theorem Settlement.kept {index : Nat} {entry : WorkflowNodeRunEntry}
    {settlement : WorkflowNodeSettlement} {state : WorkflowState X}
    {r : Except Fault (Option Frame)} (hentry : s.nodes[index]? = some entry)
    (h : Settlement c index entry settlement state s r t) : Kept s t := by
  cases h with
  | applied sh hsh _ _ _ hu => exact (shownIn_settlement hentry hsh).kept.trans hu.kept
  | _ => exact ⟨rfl, rfl, rfl⟩

theorem Submission.kept {index : Nat} {entry : WorkflowNodeRunEntry} {payload : Json}
    {state : WorkflowState X} {r : Except Fault Submitted} (hentry : s.nodes[index]? = some entry)
    (h : Submission c index entry payload state s r t) : Kept s t := by
  cases h with
  | applied sh hsh _ _ _ _ hu => exact (shownIn_submission hentry hsh).kept.trans hu.kept
  | threw sh hsh _ _ _ hu => exact (shownIn_submission hentry hsh).kept.trans hu.kept
  | _ => exact ⟨rfl, rfl, rfl⟩

theorem Started.kept {r : Except Fault (Option Frame)} (h : Started c s r t) : Kept s t := by
  cases h with
  | threw => exact ⟨rfl, rfl, rfl⟩
  | created _ _ _ _ _ _ hu => exact ⟨hu.kept.queue, hu.kept.active, hu.kept.startFlow⟩

theorem Interrupted.kept {reason : String} {running : List Nat} {state : WorkflowState X}
    {r : Except Fault Unit} (h : Interrupted reason running state s r t) : Kept s t := by
  cases h with
  | threw => exact ⟨rfl, rfl, rfl⟩
  | done _ _ _ _ _ hu => exact ⟨hu.kept.queue, hu.kept.active, hu.kept.startFlow⟩

theorem frames_of_threads (hactive : t.active = s.active) (hflow : t.startFlow = s.startFlow)
    (flow : FlowId) : t.frames flow = s.frames flow := by
  cases flow with
  | start => rw [WorkflowRunInstance.frames, WorkflowRunInstance.frames, hflow]
  | queue => rw [WorkflowRunInstance.frames, WorkflowRunInstance.frames, hactive]

/-! ## Suspended calls -/

/-- How control changes the suspended calls of a thread. -/
inductive FramesLeft : List Frame → List Frame → Prop
  | same (frames : List Frame) : FramesLeft frames frames
  | dropped (frames : List Frame) : FramesLeft frames []
  | resolved (entry : Nat) (remaining : List WorkflowNodeDispatch) (outer : List Frame) :
      FramesLeft ({ awaiting := some entry, remaining } :: outer)
        ({ awaiting := none, remaining } :: outer)
  | popped (outer : List Frame) :
      FramesLeft ({ awaiting := none, remaining := [] } :: outer) outer

/-- The suspended calls of a thread after a call that it made. -/
def callFrames : Except Fault (Option Frame) → List Frame → List Frame
  | .ok frame, outer => pushFrame frame outer
  | .error _, _ => []

/-- The step changes the suspended calls of this thread only. -/
def FramesTo (flow : FlowId) (frames : List Frame) (s t : WorkflowRunInstance X) : Prop :=
  t.frames flow = frames ∧ ∀ other, other ≠ flow → t.frames other = s.frames other

theorem FramesTo.of_threads {flow : FlowId} {frames : List Frame} (hactive : t.active = s.active)
    (hflow : t.startFlow = s.startFlow) (h : FramesTo flow frames t u) :
    FramesTo flow frames s u :=
  ⟨h.1, fun other hother => (h.2 other hother).trans (frames_of_threads hactive hflow other)⟩

theorem FramesTo.of_kept {flow : FlowId} {frames : List Frame} (hkept : Kept s t)
    (h : FramesTo flow frames t u) : FramesTo flow frames s u :=
  h.of_threads hkept.active hkept.startFlow

theorem FramesTo.left {flow : FlowId} {frames : List Frame} (h : FramesTo flow frames s t)
    (hleft : FramesLeft (s.frames flow) frames) (other : FlowId) :
    FramesLeft (s.frames other) (t.frames other) := by
  by_cases hother : other = flow
  · subst hother
    rw [h.1]
    exact hleft
  · rw [h.2 other hother]
    exact .same _

theorem framesTo_same {flow : FlowId} {P : FlowId → Prop} (h : FramesTo flow [] s t)
    (hs : s.frames flow = []) : ∀ other, P other → t.frames other = s.frames other := by
  intro other _
  by_cases hother : other = flow
  · subst hother
    rw [h.1, hs]
  · exact h.2 other hother

theorem frames_endTask (task : QueueTask X) : FramesTo .queue [] s (endTask task s) := by
  cases task <;> exact ⟨rfl, fun other hother => by cases other <;> first | rfl | cases hother rfl⟩

theorem frames_failTask (task : QueueTask X) (fault : Fault) :
    FramesTo .queue [] s (failTask task fault s) := by
  cases task <;> exact ⟨rfl, fun other hother => by cases other <;> first | rfl | cases hother rfl⟩

theorem frames_setFrames {flow : FlowId} (hlive : Live flow s) (frames : List Frame) :
    FramesTo flow frames s (setFrames flow frames s) := by
  cases flow with
  | start =>
    cases frames <;>
      exact ⟨rfl, fun other hother => by cases other <;> first | rfl | cases hother rfl⟩
  | queue =>
    obtain ⟨task, old, hactive⟩ := hlive rfl
    cases frames with
    | nil =>
      unfold setFrames
      simp only [hactive]
      exact frames_endTask task
    | cons frame outer =>
      unfold setFrames
      simp only [hactive]
      exact ⟨rfl, fun other hother => by cases other <;> first | rfl | cases hother rfl⟩

theorem frames_failFlow {flow : FlowId} (hlive : Live flow s) (fault : Fault) :
    FramesTo flow [] s (failFlow flow fault s) := by
  cases flow with
  | start => exact ⟨rfl, fun other hother => by cases other <;> first | rfl | cases hother rfl⟩
  | queue =>
    obtain ⟨task, old, hactive⟩ := hlive rfl
    unfold failFlow
    simp only [hactive]
    exact frames_failTask task fault

/-- The threads stand where they stood. -/
theorem left_of_threads (hactive : t.active = s.active) (hflow : t.startFlow = s.startFlow)
    (flow : FlowId) : FramesLeft (s.frames flow) (t.frames flow) := by
  rw [frames_of_threads hactive hflow]
  exact .same _

/-- The queue runs no thread, before and after. -/
theorem framesTo_queue (hactive : ∀ task frames, t.active ≠ some (.flow task frames))
    (hflow : t.startFlow = s.startFlow) : FramesTo .queue [] s t := by
  refine ⟨?_, fun other hother => ?_⟩
  · unfold WorkflowRunInstance.frames
    cases h : t.active with
    | none => rfl
    | some active =>
      cases active with
      | flow task frames => exact absurd h (hactive task frames)
      | interrupting reason running => rfl
  · cases other with
    | start => rw [WorkflowRunInstance.frames, WorkflowRunInstance.frames, hflow]
    | queue => exact absurd rfl hother

/-- The call that shows a settlement: a launch that has thrown, or an operation of the queue. -/
inductive Calls (s : WorkflowRunInstance X) (sh : Shown X) : Label → FlowId → List Frame → Prop
  | rejected (flow : FlowId) (reason : String) (remaining : List WorkflowNodeDispatch)
      (outer : List Frame)
      (hframes : s.frames flow = { awaiting := some sh.entry, remaining } :: outer) :
      Calls s sh (.launchRejected flow reason) flow ({ awaiting := none, remaining } :: outer)
  | queued (hactive : s.active = none) : Calls s sh .dequeue .queue []

/-! ## The steps -/

/-- The exception of an answer, if it is one. -/
def faultsOf {α : Type} : Except Fault α → List Fault
  | .ok _ => []
  | .error fault => [fault]

/-- The label continues this thread. -/
def Label.continues (l : Label) (flow : FlowId) : Prop :=
  l = .launchResolved flow ∨ (∃ reason, l = .launchRejected flow reason) ∨ l = .resume flow

/-- The implementation does not accept what the step shows it, if it shows anything. -/
def Unaccepted (c : WorkflowStartRequest X) (s : WorkflowRunInstance X) (l : Label) : Prop :=
  ∀ sh state, shown s l = some sh → s.state = some state → sh.verdict c state ≠ .ok .ok

theorem unaccepted_of_none {l : Label} (h : shown s l = none) : Unaccepted c s l :=
  fun sh state hsh => by simp [h] at hsh

theorem unaccepted_of_verdict {l : Label} {sh : Shown X} {state : WorkflowState X}
    (hshown : shown s l = some sh) (hstate : s.state = some state)
    (hverdict : sh.verdict c state ≠ .ok .ok) : Unaccepted c s l := by
  intro sh' state' hsh' hstate'
  obtain rfl := Option.some.inj (hshown.symm.trans hsh')
  obtain rfl := Option.some.inj (hstate.symm.trans hstate')
  exact hverdict

/-- **Everything a step can do, up to control.** -/
inductive Stepped (c : WorkflowStartRequest X) (s : WorkflowRunInstance X) :
    Label → WorkflowRunInstance X → Prop
  | control {l : Label} {t : WorkflowRunInstance X} (faults : List Fault)
      (hfaults : ∀ fault ∈ faults,
        fault.site ≠ .applyNodeSettlement ∧ fault.site ≠ .evaluateWorkflowProgress)
      (ht : Control faults s t)
      (hframes : ∀ flow, FramesLeft (s.frames flow) (t.frames flow))
      (hunaccepted : Unaccepted c s l)
      (hkept : ∀ flow, ¬ l.continues flow → t.frames flow = s.frames flow) : Stepped c s l t
  | started (hidle : s.startFlow = .idle) (r : Except Fault (Option Frame))
      (u t : WorkflowRunInstance X) (hu : Started c s r u) (ht : Control (faultsOf r) u t)
      (hcall : FramesTo .start (callFrames r []) s t) : Stepped c s .start t
  | launched {t : WorkflowRunInstance X} (flow : FlowId) (next : WorkflowNodeDispatch)
      (rest : List WorkflowNodeDispatch) (outer : List Frame)
      (hframes : s.frames flow = { awaiting := none, remaining := next :: rest } :: outer)
      (clock startedAt : Stamp)
      (ht : Control []
        { s with
          clock
          nodes := s.nodes ++
            [{ start := next.start, metadata := next.metadata, status := .running, startedAt }]
          history := s.history ++ [.launched s.nodes.length] } t)
      (hcall : FramesTo flow ({ awaiting := some s.nodes.length, remaining := rest } :: outer) s t) :
      Stepped c s (.resume flow) t
  | settled {l : Label} (sh : Shown X) (hshown : shown s l = some sh) (state : WorkflowState X)
      (hstate : s.state = some state) (hverdict : sh.verdict c state = .ok .ok)
      (r : Except Fault (Option Frame)) (u t : WorkflowRunInstance X)
      (hu : Applied c sh.entry sh.settlement state sh.closed r u)
      (ht : Control (faultsOf r) u t) (flow : FlowId) (outer : List Frame)
      (hcalls : Calls s sh l flow outer) (hcall : FramesTo flow (callFrames r outer) s t) :
      Stepped c s l t
  | interrupted (reason : String) (running : List Nat)
      (hactive : s.active = some (.interrupting reason running)) (state : WorkflowState X)
      (hstate : s.state = some state) (r : Except Fault Unit) (u t : WorkflowRunInstance X)
      (hu : Interrupted reason running state s r u) (ht : Control (faultsOf r) u t)
      (hcall : FramesTo .queue [] s t) : Stepped c s .interruptsResolved t

/-- Before `createInitialState` has answered there are no nodes and nothing is under way. -/
structure Unstarted (s : WorkflowRunInstance X) : Prop where
  nodes : s.nodes = []
  queue : s.queue = []
  active : s.active = none
  startFlow : s.startFlow = .idle ∨ ∃ fault, s.startFlow = .failed fault

/-- A run without a state has not been started. -/
def WellStarted (s : WorkflowRunInstance X) : Prop :=
  s.state = none → Unstarted s

theorem WellStarted.state_of_entry (h : WellStarted s) {index : Nat} {entry : WorkflowNodeRunEntry}
    (hentry : s.nodes[index]? = some entry) : ∃ state, s.state = some state := by
  cases hstate : s.state with
  | some state => exact ⟨state, rfl⟩
  | none =>
    rw [(h hstate).nodes] at hentry
    cases hentry

theorem WellStarted.state_of_active (h : WellStarted s) {active : Active X}
    (hactive : s.active = some active) : ∃ state, s.state = some state := by
  cases hstate : s.state with
  | some state => exact ⟨state, rfl⟩
  | none =>
    rw [(h hstate).active] at hactive
    cases hactive

theorem live_start : Live .start s :=
  fun h => by cases h

theorem live_flow (task : QueueTask X) (frames : List Frame) :
    Live .queue { s with active := some (.flow task frames) } :=
  fun _ => ⟨task, frames, rfl⟩

theorem control_proceed {flow : FlowId} {x : Except Fault (Option Frame) × WorkflowRunInstance X}
    (hlive : Live flow x.2) (outer : List Frame) :
    Control (faultsOf x.1) x.2 (proceed flow outer x) := by
  obtain ⟨r, u⟩ := x
  cases r with
  | error fault => exact control_failFlow hlive fault
  | ok frame => exact control_setFrames _ _

theorem frames_proceed {flow : FlowId} {x : Except Fault (Option Frame) × WorkflowRunInstance X}
    (hlive : Live flow x.2) (outer : List Frame) :
    FramesTo flow (callFrames x.1 outer) x.2 (proceed flow outer x) := by
  obtain ⟨r, u⟩ := x
  cases r with
  | error fault => exact frames_failFlow hlive fault
  | ok frame => exact frames_setFrames hlive _

theorem stepped_start (hidle : s.startFlow = .idle) : Stepped c s .start (stepStart c s) := by
  have hstart := startRun_cases (c := c) (s := s)
  rw [stepStart_eq]
  exact .started hidle _ _ _ hstart (control_proceed live_start [])
    (.of_kept hstart.kept (frames_proceed live_start []))

theorem stepped_launchRejected (h : WellStarted s) {flow : FlowId} {index : Nat}
    {entry : WorkflowNodeRunEntry} {remaining : List WorkflowNodeDispatch} {outer : List Frame}
    {reason : String}
    (hframes : s.frames flow = { awaiting := some index, remaining } :: outer)
    (hentry : s.nodes[index]? = some entry) :
    Stepped c s (.launchRejected flow reason)
      (stepLaunchRejected c flow index entry reason remaining outer s) := by
  obtain ⟨state, hstate⟩ := h.state_of_entry hentry
  have hlive := live_of_frames hframes
  have hsettle := settleNodeRun_cases (c := c) hstate index entry
    (failedLaunchSettlement entry reason)
  have hshown : shown s (.launchRejected flow reason) =
      shownSettlement index entry (failedLaunchSettlement entry reason) s := by
    simp [shown, hframes, hentry]
  -- a fault drops the frames of the thread
  have hleft : ∀ {t}, FramesTo flow [] s t → ∀ other, FramesLeft (s.frames other) (t.frames other) :=
    fun ht => ht.left (.dropped _)
  have hkept : ∀ {t frames}, FramesTo flow frames s t → ∀ other,
      ¬ (Label.launchRejected flow reason).continues other → t.frames other = s.frames other := by
    intro t frames ht other hother
    refine ht.2 other fun heq => hother ?_
    exact heq ▸ .inr (.inl ⟨reason, rfl⟩)
  unfold stepLaunchRejected
  cases hr : settleNodeRun c index entry (failedLaunchSettlement entry reason) s with
  | mk r u =>
    rw [hr] at hsettle
    simp only at hsettle ⊢
    cases hsettle with
    | completed hunshown =>
      refine .control [] (by simp) (control_setFrames _ _) ?_
        (unaccepted_of_none (hshown.trans hunshown)) (hkept (frames_setFrames hlive _))
      exact (frames_setFrames hlive _).left (hframes ▸ .resolved index remaining outer)
    | stale hunshown message =>
      exact .control _ (by simp) (control_failFlow hlive ⟨.staleNodeRun, message⟩)
        (hleft (frames_failFlow hlive _)) (unaccepted_of_none (hshown.trans hunshown))
        (hkept (frames_failFlow hlive _))
    | validateThrew sh hsh message hverdict clock =>
      have hlive' : Live flow { s with clock } := hlive
      exact .control _ (by simp) ((control_fields s.queue s.active s.startFlow clock s.events).trans
        (control_failFlow hlive' ⟨.validateSettlement, message⟩))
        (hleft (.of_kept ⟨rfl, rfl, rfl⟩ (frames_failFlow hlive' _)))
        (unaccepted_of_verdict (hshown.trans hsh) hstate (by simp [hverdict]))
        (hkept (.of_kept ⟨rfl, rfl, rfl⟩ (frames_failFlow hlive' _)))
    | refused sh hsh reason hverdict clock =>
      have hlive' : Live flow { s with clock } := hlive
      exact .control _ (by simp) ((control_fields s.queue s.active s.startFlow clock s.events).trans
        (control_failFlow hlive' ⟨.refusedSettlement, reason⟩))
        (hleft (.of_kept ⟨rfl, rfl, rfl⟩ (frames_failFlow hlive' _)))
        (unaccepted_of_verdict (hshown.trans hsh) hstate (by simp [hverdict]))
        (hkept (.of_kept ⟨rfl, rfl, rfl⟩ (frames_failFlow hlive' _)))
    | applied sh hsh hverdict _ _ hu =>
      -- the node is settled, and the thread goes on with what it has left
      have hkeptCode : Kept s u := (shownIn_settlement hentry hsh).kept.trans hu.kept
      have hlive' : Live flow u := hkeptCode.live hlive
      have hcalls : Calls s sh (.launchRejected flow reason) flow
          ({ awaiting := none, remaining } :: outer) :=
        .rejected flow reason remaining outer (by rw [shownSettlement_entry hsh, hframes])
      cases r with
      | error fault =>
        exact .settled sh (hshown.trans hsh) state hstate hverdict _ u _ hu
          (control_failFlow hlive' fault) flow _ hcalls (.of_kept hkeptCode (frames_failFlow hlive' fault))
      | ok frame =>
        exact .settled sh (hshown.trans hsh) state hstate hverdict _ u _ hu (control_setFrames _ _)
          flow _ hcalls (.of_kept hkeptCode (frames_setFrames hlive' _))

theorem stepped_submit (h : WellStarted s) {index : Nat} {payload : Json} {rest : List Operation}
    {entry : WorkflowNodeRunEntry} (hactive : s.active = none)
    (hqueue : s.queue = .submit index payload :: rest) (hentry : s.nodes[index]? = some entry) :
    Stepped c s .dequeue (stepSubmit c index entry payload { s with queue := rest }) := by
  obtain ⟨state, hstate⟩ := h.state_of_entry hentry
  have hdequeue : Control [] s { s with queue := rest } :=
    control_fields rest s.active s.startFlow s.clock s.events
  have hsubmit := submitNodeCompletion_cases (c := c) (s := { s with queue := rest }) hstate
    index entry payload
  have hshown : shown s .dequeue =
      shownSubmission index entry payload { s with queue := rest } := by
    simp [shown, hactive, hqueue, hentry]
  unfold stepSubmit
  cases hr : submitNodeCompletion c index entry payload { s with queue := rest } with
  | mk r u =>
    rw [hr] at hsubmit
    simp only at hsubmit ⊢
    have hkept := hsubmit.kept (by exact hentry)
    have hnone : u.active = none := hkept.active.trans hactive
    cases hsubmit with
    | rejected reason hunshown =>
      exact .control [] (by simp) (hdequeue.trans (control_answer _ _ _)) (left_of_threads rfl rfl)
        (unaccepted_of_none (hshown.trans hunshown)) (fun _ _ => frames_of_threads rfl rfl _)
    | validateThrew sh hsh message hverdict clock events =>
      exact .control _ (by simp)
        (((control_fields rest s.active s.startFlow clock events).trans
          (control_fault .queue ⟨.validateSubmission, message⟩)).trans (control_answer _ _ _))
        (left_of_threads rfl rfl)
        (unaccepted_of_verdict (hshown.trans hsh) hstate (by simp [hverdict]))
        (fun _ _ => frames_of_threads rfl rfl _)
    | refused sh hsh reason hverdict clock events =>
      exact .control [] (by simp)
        ((control_fields rest s.active s.startFlow clock events).trans (control_answer _ _ _))
        (left_of_threads rfl rfl)
        (unaccepted_of_verdict (hshown.trans hsh) hstate (by simp [hverdict]))
        (fun _ _ => frames_of_threads rfl rfl _)
    | applied sh hsh hverdict outcome frame _ hu =>
      refine .settled sh (hshown.trans hsh) state hstate hverdict _ u _ hu
        ((control_fields u.queue _ u.startFlow u.clock u.events).trans (control_setFrames _ _))
        .queue [] (.queued hactive) ?_
      refine ⟨(frames_setFrames (live_flow _ _) _).1, fun other hother => ?_⟩
      cases other with
      | start =>
        rw [(frames_setFrames (live_flow _ _) _).2 .start hother]
        show (WorkflowRunInstance.frames _ _) = _
        rw [WorkflowRunInstance.frames, WorkflowRunInstance.frames, hkept.startFlow]
      | queue => exact absurd rfl hother
    | threw sh hsh hverdict fault _ hu =>
      exact .settled sh (hshown.trans hsh) state hstate hverdict _ u _ hu
        ((control_fault .queue fault).trans (control_answer _ _ _)) .queue [] (.queued hactive)
        (framesTo_queue (by simp [answer, hnone]) hkept.startFlow)

theorem stepped_settle (h : WellStarted s) {index : Nat} {settlement : WorkflowNodeSettlement}
    {rest : List Operation} {entry : WorkflowNodeRunEntry} (hactive : s.active = none)
    (hqueue : s.queue = .settle index settlement :: rest)
    (hentry : s.nodes[index]? = some entry) :
    Stepped c s .dequeue (stepSettle c index entry settlement { s with queue := rest }) := by
  obtain ⟨state, hstate⟩ := h.state_of_entry hentry
  have hdequeue : Control [] s { s with queue := rest } :=
    control_fields rest s.active s.startFlow s.clock s.events
  have hsettle := settleNodeRun_cases (c := c) (s := { s with queue := rest }) hstate
    index entry settlement
  have hshown : shown s .dequeue =
      shownSettlement index entry settlement { s with queue := rest } := by
    simp [shown, hactive, hqueue, hentry]
  have hnoFrames : s.frames .queue = [] := by simp [WorkflowRunInstance.frames, hactive]
  unfold stepSettle
  cases hr : settleNodeRun c index entry settlement { s with queue := rest } with
  | mk r u =>
    rw [hr] at hsettle
    simp only at hsettle ⊢
    have hkept := hsettle.kept (by exact hentry)
    have hnone : u.active = none := hkept.active.trans hactive
    -- the queue was idle: its thread begins with the frames of this operation
    have hbegin : ∀ frames, FramesTo .queue frames s
        (setFrames .queue frames { u with active := some (.flow (.settle index) []) }) := by
      intro frames
      refine ⟨(frames_setFrames (live_flow _ _) frames).1, fun other hother => ?_⟩
      cases other with
      | start =>
        rw [(frames_setFrames (live_flow _ _) frames).2 .start hother]
        show (WorkflowRunInstance.frames _ _) = _
        rw [WorkflowRunInstance.frames, WorkflowRunInstance.frames, hkept.startFlow]
      | queue => exact absurd rfl hother
    cases hsettle with
    | completed hunshown =>
      exact .control [] (by simp) ((control_fields rest _ s.startFlow s.clock s.events).trans
        (control_setFrames _ _)) ((hbegin []).left (.dropped _))
        (unaccepted_of_none (hshown.trans hunshown)) (framesTo_same (hbegin []) hnoFrames)
    | stale hunshown message =>
      exact .control _ (by simp) (hdequeue.trans (control_fault .queue ⟨.staleNodeRun, message⟩))
        (left_of_threads rfl rfl) (unaccepted_of_none (hshown.trans hunshown))
        (fun _ _ => frames_of_threads rfl rfl _)
    | validateThrew sh hsh message hverdict clock =>
      exact .control _ (by simp) ((control_fields rest s.active s.startFlow clock s.events).trans
        (control_fault .queue ⟨.validateSettlement, message⟩)) (left_of_threads rfl rfl)
        (unaccepted_of_verdict (hshown.trans hsh) hstate (by simp [hverdict]))
        (fun _ _ => frames_of_threads rfl rfl _)
    | refused sh hsh reason hverdict clock =>
      exact .control _ (by simp) ((control_fields rest s.active s.startFlow clock s.events).trans
        (control_fault .queue ⟨.refusedSettlement, reason⟩)) (left_of_threads rfl rfl)
        (unaccepted_of_verdict (hshown.trans hsh) hstate (by simp [hverdict]))
        (fun _ _ => frames_of_threads rfl rfl _)
    | applied sh hsh hverdict _ _ hu =>
      cases r with
      | error fault =>
        exact .settled sh (hshown.trans hsh) state hstate hverdict _ u _ hu
          (control_fault .queue fault) .queue [] (.queued hactive)
          (framesTo_queue (by simp [hnone]) hkept.startFlow)
      | ok frame =>
        exact .settled sh (hshown.trans hsh) state hstate hverdict _ u _ hu
          ((control_fields u.queue _ u.startFlow u.clock u.events).trans (control_setFrames _ _))
          .queue [] (.queued hactive) (hbegin _)

theorem control_interrupt (reason : String) : Control [] s (stepInterrupt reason s) := by
  unfold stepInterrupt beginInterrupt
  simp only [Sync.bind_run, Sync.get_run, Sync.ite_run]
  cases hfinished : s.finished with
  | true => exact .refl s
  | false =>
    simp only [Bool.false_eq_true, if_false, Sync.modify_run, Sync.pure_run]
    refine ⟨rfl, rfl, rfl, rfl, rfl, (interruptedHandles s).map .nodeInterrupted, rfl, ?_, ?_⟩
    · rw [List.filterMap_map]
      exact List.filterMap_eq_nil_iff.mpr fun _ _ => rfl
    · intro item hitem
      obtain ⟨index, -, rfl⟩ := List.mem_map.mp hitem
      rfl

theorem frames_interrupt (hactive : s.active = none) (reason : String) :
    FramesTo .queue [] s (stepInterrupt reason s) := by
  unfold stepInterrupt beginInterrupt
  simp only [Sync.bind_run, Sync.get_run, Sync.ite_run]
  cases hfinished : s.finished with
  | true => exact framesTo_queue (by simp [hactive]) rfl
  | false =>
    simp only [Bool.false_eq_true, if_false, Sync.modify_run, Sync.pure_run]
    exact framesTo_queue (by simp) rfl

theorem stepped_interruptsResolved (h : WellStarted s) {reason : String} {running : List Nat}
    (hactive : s.active = some (.interrupting reason running)) :
    Stepped c s .interruptsResolved (stepInterruptsResolved c reason running s) := by
  obtain ⟨state, hstate⟩ := h.state_of_active hactive
  have hinterrupt := completeInterrupt_cases (c := c) hstate reason running
  unfold stepInterruptsResolved
  cases hr : completeInterrupt c reason running s with
  | mk r u =>
    rw [hr] at hinterrupt
    have hkept := hinterrupt.kept
    cases r with
    | error fault =>
      exact .interrupted reason running hactive state hstate _ u _ hinterrupt
        ((control_fields u.queue none u.startFlow u.clock u.events).trans
          (control_fault .queue fault))
        (framesTo_queue (by simp) hkept.startFlow)
    | ok _ =>
      exact .interrupted reason running hactive state hstate _ u _ hinterrupt
        (control_fields u.queue none u.startFlow u.clock u.events)
        (framesTo_queue (by simp) hkept.startFlow)

theorem control_nodeSettled (index : Nat) (entry : WorkflowNodeRunEntry)
    (settlement : NodeSettlement) : Control [] s (stepNodeSettled index entry settlement s) := by
  have hflags : Control [] s
      { s with nodes := s.nodes.modify index fun entry => { entry with settled := true } } :=
    control_flags index (fun entry => { entry with settled := true }) (fun _ => rfl) rfl
  unfold stepNodeSettled
  simp only
  split
  · exact hflags
  · split
    · exact hflags
    · exact hflags.trans (control_fields _ s.active s.startFlow s.clock s.events)

theorem threads_nodeSettled (index : Nat) (entry : WorkflowNodeRunEntry)
    (settlement : NodeSettlement) :
    (stepNodeSettled index entry settlement s).active = s.active ∧
      (stepNodeSettled index entry settlement s).startFlow = s.startFlow := by
  unfold stepNodeSettled
  simp only
  split
  · exact ⟨rfl, rfl⟩
  · split <;> exact ⟨rfl, rfl⟩

theorem stepped_launchResolved {flow : FlowId} {index : Nat} {remaining : List WorkflowNodeDispatch}
    {outer : List Frame} (hframes : s.frames flow = { awaiting := some index, remaining } :: outer) :
    Stepped c s (.launchResolved flow) (stepLaunchResolved flow index remaining outer s) := by
  have hlive : Live flow { s with
      nodes := s.nodes.modify index fun entry => { entry with handle := true } } :=
    live_of_frames hframes
  have hcall : FramesTo flow ({ awaiting := none, remaining } :: outer) s
      (stepLaunchResolved flow index remaining outer s) :=
    .of_kept ⟨rfl, rfl, rfl⟩ (frames_setFrames hlive _)
  refine .control [] (by simp) ?_ (hcall.left (hframes ▸ .resolved index remaining outer))
    (unaccepted_of_none rfl) ?_
  · exact (control_flags index (fun entry => { entry with handle := true }) (fun _ => rfl)
      rfl).trans (control_setFrames _ _)
  · exact fun other hother => hcall.2 other fun heq => hother (heq ▸ .inl rfl)

theorem stepped_resume {flow : FlowId} {remaining : List WorkflowNodeDispatch} {outer : List Frame}
    (hframes : s.frames flow = { awaiting := none, remaining } :: outer) :
    Stepped c s (.resume flow) (stepResume flow remaining outer s) := by
  have hlive := live_of_frames hframes
  cases remaining with
  | nil =>
    have hcall : FramesTo flow outer s (stepResume flow [] outer s) := frames_setFrames hlive _
    exact .control [] (by simp) (control_setFrames _ _) (hcall.left (hframes ▸ .popped outer))
      (unaccepted_of_none rfl) fun other hother =>
        hcall.2 other fun heq => hother (heq ▸ .inr (.inr rfl))
  | cons next rest =>
    simp only [stepResume, claimAndLaunch_run]
    exact .launched flow next rest outer hframes _ _ (control_setFrames _ _)
      (FramesTo.of_kept ⟨rfl, rfl, rfl⟩ (frames_setFrames (by exact hlive) _))

/-- The queue tells the running nodes to stop. -/
theorem stepped_interrupt {reason : String} {rest : List Operation} (hactive : s.active = none)
    (hqueue : s.queue = .interrupt reason :: rest) :
    Stepped c s .dequeue (stepInterrupt reason { s with queue := rest }) := by
  have hcall := FramesTo.of_threads (s := s) rfl rfl
    (frames_interrupt (s := { s with queue := rest }) hactive reason)
  exact .control [] (by simp)
    ((control_fields rest s.active s.startFlow s.clock s.events).trans (control_interrupt _))
    (hcall.left (.dropped _)) (unaccepted_of_none (by simp [shown, hactive, hqueue]))
    (framesTo_same hcall (by simp [WorkflowRunInstance.frames, hactive]))

theorem stepped_interruptsRejected {message reason : String} {running : List Nat}
    (hactive : s.active = some (.interrupting reason running)) :
    Stepped c s (.interruptsRejected message) { s with
      active := none, history := s.history ++ [.fault .queue ⟨.interruptNode, message⟩] } := by
  have hcall : FramesTo .queue [] s { s with
      active := none, history := s.history ++ [.fault .queue ⟨.interruptNode, message⟩] } :=
    framesTo_queue (by simp) rfl
  exact .control _ (by simp)
    ((control_fields s.queue none s.startFlow s.clock s.events).trans
      (control_fault .queue ⟨.interruptNode, message⟩)) (hcall.left (.dropped _))
    (unaccepted_of_none rfl) (framesTo_same hcall (by simp [WorkflowRunInstance.frames, hactive]))

/-- The environment calls in, and no thread moves. -/
theorem Stepped.called {l : Label} (hnone : shown s l = none) (ht : Control [] s t)
    (hactive : t.active = s.active) (hflow : t.startFlow = s.startFlow) : Stepped c s l t :=
  .control [] (by simp) ht (left_of_threads hactive hflow) (unaccepted_of_none hnone)
    fun _ _ => frames_of_threads hactive hflow _

/-- **Every step of a run is in the list.** -/
theorem stepped_of_step {l : Label} (h : WellStarted s) (hstep : step c s l = some t) :
    Stepped c s l t := by
  cases fired_of_step hstep with
  | start hidle => exact stepped_start hidle
  | launchResolved flow index remaining outer hframes => exact stepped_launchResolved hframes
  | launchRejected flow reason index entry remaining outer hframes hentry =>
    exact stepped_launchRejected h hframes hentry
  | resume flow remaining outer hframes => exact stepped_resume hframes
  | submit index payload hlt =>
    exact .called rfl (control_fields _ s.active s.startFlow s.clock s.events) rfl rfl
  | nodeSettled index entry settlement hentry hhandle hopen =>
    obtain ⟨hactive, hflow⟩ := threads_nodeSettled (s := s) index entry settlement
    exact .called rfl (control_nodeSettled _ _ _) hactive hflow
  | interrupt reason hreturned =>
    exact .called rfl (control_fields _ s.active s.startFlow s.clock s.events) rfl rfl
  | takesSubmit index entry payload rest hactive hqueue hentry =>
    exact stepped_submit h hactive hqueue hentry
  | takesSettle index entry settlement rest hactive hqueue hentry =>
    exact stepped_settle h hactive hqueue hentry
  | takesInterrupt reason rest hactive hqueue => exact stepped_interrupt hactive hqueue
  | interruptsResolved reason running hactive => exact stepped_interruptsResolved h hactive
  | interruptsRejected message reason running hactive => exact stepped_interruptsRejected hactive

/-! ## A run has a state from its first snapshot on -/

theorem Finished.state {outcome : WorkflowOutcome} (h : Finished outcome s t) :
    t.state = s.state := by
  cases h <;> rfl

theorem Idled.state_isSome {state : WorkflowState X} {r : Except Fault Unit}
    (h : Idled c state s r t) (hs : s.state.isSome) : t.state.isSome := by
  cases h with
  | deadlocked _ _ _ _ _ _ ht => simp [ht.state]
  | snapshotThrew => rfl
  | _ => exact hs

theorem Dispatched.state_isSome {state : WorkflowState X} {r : Except Fault (Option Frame)}
    (h : Dispatched c state s r t) (hs : s.state.isSome) : t.state.isSome := by
  cases h with
  | idle _ _ _ _ _ ht => exact ht.state_isSome hs
  | idleThrew _ _ _ _ _ _ ht => exact ht.state_isSome hs
  | _ => exact hs

theorem Concluded.state_isSome {state : WorkflowState X} {r : Except Fault (Option Frame)}
    (h : Concluded c state s r t) (hs : s.state.isSome) : t.state.isSome := by
  cases h with
  | finished _ _ _ _ _ _ _ ht => simpa [ht.state] using hs
  | continued _ _ _ _ _ _ ht => exact ht.state_isSome hs
  | _ => exact hs

theorem Applied.state_isSome {entry : Nat} {settlement : WorkflowNodeSettlement}
    {state : WorkflowState X} {r : Except Fault (Option Frame)}
    (h : Applied c entry settlement state s r t) (hs : s.state.isSome) : t.state.isSome := by
  cases h with
  | applyThrew => exact hs
  | evaluateThrew => rfl
  | evaluated _ _ _ _ _ _ _ _ _ _ _ _ ht => exact ht.state_isSome rfl

theorem Interrupted.state_isSome {reason : String} {running : List Nat} {state : WorkflowState X}
    {r : Except Fault Unit} (h : Interrupted reason running state s r t) : t.state.isSome := by
  cases h with
  | threw => rfl
  | done _ _ _ _ _ ht => simp [ht.state]

theorem ShownIn.state {sh : Shown X} (h : ShownIn s sh) : sh.closed.state = s.state := by
  obtain ⟨_, _, _, hclosed, _⟩ := h.closed
  rw [hclosed]

theorem Stepped.state_isSome {l : Label} (h : Stepped c s l t) (hs : s.state.isSome) :
    t.state.isSome := by
  cases h with
  | control _ _ ht => rwa [ht.state]
  | started _ r u _ hu ht =>
    rw [ht.state]
    cases hu with
    | threw => exact hs
    | created _ _ _ _ _ _ hu => exact hu.state_isSome rfl
  | launched _ _ _ _ _ _ _ ht => rwa [ht.state]
  | settled sh hshown state hstate hverdict r u _ hu ht =>
    obtain ⟨queue, hin⟩ := shownIn_of_shown hshown
    rw [ht.state]
    exact hu.state_isSome (hin.state ▸ hs)
  | interrupted _ _ _ _ _ _ u _ hu ht =>
    rw [ht.state]
    exact hu.state_isSome

theorem wellStarted_initial : WellStarted (initial : WorkflowRunInstance X) :=
  fun _ => ⟨rfl, rfl, rfl, .inl rfl⟩

theorem wellStarted_step {l : Label} (h : WellStarted s) (hstep : step c s l = some t) :
    WellStarted t := by
  intro hnone
  have hstepped := stepped_of_step h hstep
  have hs : s.state = none := by
    by_contra hs
    have := hstepped.state_isSome (Option.isSome_iff_ne_none.mpr hs)
    simp [hnone] at this
  obtain ⟨hnodes, hqueue, hactive, hflow⟩ := h hs
  have hframes : ∀ flow, s.frames flow = [] := by
    rintro (_ | _)
    · rcases hflow with hflow | ⟨fault, hflow⟩ <;> simp [WorkflowRunInstance.frames, hflow]
    · simp [WorkflowRunInstance.frames, hactive]
  -- nothing is enabled but `start`, and a `start` that leaves no state has failed
  cases fired_of_step hstep with
  | start hidle =>
    rw [stepStart_eq] at hnone ⊢
    have hstart := startRun_cases (c := c) (s := s)
    rw [(control_proceed live_start []).state] at hnone
    cases hr : startRun c s with
    | mk r u =>
      rw [hr] at hstart hnone
      cases hstart with
      | threw message clock => exact ⟨hnodes, hqueue, hactive, .inr ⟨_, rfl⟩⟩
      | created state _ _ _ _ _ hu =>
        exact absurd hnone (Option.isSome_iff_ne_none.mp (hu.state_isSome rfl))
  | launchResolved flow index remaining outer h => cases (hframes flow).symm.trans h
  | launchRejected flow reason index entry remaining outer h => cases (hframes flow).symm.trans h
  | resume flow remaining outer h => cases (hframes flow).symm.trans h
  | submit index payload hlt => simp [hnodes] at hlt
  | nodeSettled index entry settlement hentry => simp [hnodes] at hentry
  | interrupt reason hreturned =>
    rcases hflow with hflow | ⟨fault, hflow⟩ <;> cases hflow.symm.trans hreturned
  | takesSubmit index entry payload rest _ h => cases hqueue.symm.trans h
  | takesSettle index entry settlement rest _ h => cases hqueue.symm.trans h
  | takesInterrupt reason rest _ h => cases hqueue.symm.trans h
  | interruptsResolved reason running h => cases hactive.symm.trans h
  | interruptsRejected message reason running h => cases hactive.symm.trans h

variable {ok : WorkflowRunInstance X → Label → Prop} {ls : List Label}

theorem wellStarted_of_run (run : Run (step c) ok initial ls s) : WellStarted s :=
  run.invariant wellStarted_initial fun _ _ _ _ h hstep => wellStarted_step h hstep

end EphemeralAgent.Workflow
