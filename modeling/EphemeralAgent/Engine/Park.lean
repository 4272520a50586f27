import EphemeralAgent.Engine.ProviderHistory

/-!
# The park loses no wakeup

`waitForWake` registers a waker with the handle, the inbox and the task registry.  Each of them is
level-triggered, so a wait that has not resolved says that its source is still quiet.

* `supervisor_watch` — a removal calls every waker, and nothing else moves the change counter
* `Parking` — the invariant of the park, kept by every block
* `park_no_lost_wakeup` — **a park that sleeps has nothing to wake for, and leaves no waker behind**
-/

namespace EphemeralAgent.Engine

open Lib Background LlmClient Notification

variable {T : Type}

/-! ## The task registry as a source -/

section Supervisor

variable {s s' : Supervisor} {items : List BackgroundItem}

/-- No removal: the counter and the wakers stay, and tasks may only be added. -/
structure Watched (s s' : Supervisor) (items : List BackgroundItem) : Prop where
  changes : s'.changes = s.changes
  wakers : s'.wakers = s.wakers
  called : AgentRun.taskWakers items = []
  entries : s.entries ≠ [] → s'.entries ≠ []

theorem watched_beginSettling (s : Supervisor) (opened : List TaskEntry) (settler : Settler)
    (outcome : BackgroundTaskOutcome) :
    Watched s (s.beginSettling opened settler outcome).1
      (s.beginSettling opened settler outcome).2 := by
  refine ⟨rfl, rfl, ?_, fun hne hnil => hne (List.map_eq_nil_iff.mp hnil)⟩
  rw [AgentRun.taskWakers, List.filterMap_eq_nil_iff]
  intro item hitem
  obtain ⟨entry, -, rfl⟩ := List.mem_map.mp hitem
  rfl

/-- A removal: the counter moves and every waker is called. -/
structure Removed (s s' : Supervisor) (items : List BackgroundItem) : Prop where
  changes : s'.changes = s.changes + 1
  wakers : s'.wakers = []
  called : AgentRun.taskWakers items = s.wakers

theorem taskWakers_append (items more : List BackgroundItem) :
    AgentRun.taskWakers (items ++ more) = AgentRun.taskWakers items ++ AgentRun.taskWakers more :=
  List.filterMap_append

theorem removed_remove (s : Supervisor) (position : Nat) (x : Settlement)
    (error : Option String) :
    Removed s (s.remove position x error).1 (s.remove position x error).2 := by
  refine ⟨rfl, rfl, ?_⟩
  simp [AgentRun.taskWakers, Supervisor.remove, List.filterMap_map]

theorem watched_or_removed_complete (s : Supervisor) (position : Nat) (x : Settlement) :
    Watched s (s.complete position x).1 (s.complete position x).2 ∨
      Removed s (s.complete position x).1 (s.complete position x).2 := by
  unfold Supervisor.complete
  split
  · exact Or.inr (removed_remove s position x none)
  · exact Or.inl ⟨rfl, rfl, rfl, id⟩

theorem watched_or_removed_settle (s : Supervisor) (taskId : BackgroundTaskId)
    (outcome : BackgroundTaskOutcome) :
    Watched s (s.settle taskId outcome).1 (s.settle taskId outcome).2 ∨
      Removed s (s.settle taskId outcome).1 (s.settle taskId outcome).2 := by
  unfold Supervisor.settle
  split
  · next entry _ =>
    split
    · exact Or.inl ⟨rfl, rfl, rfl, id⟩
    · have hbegun := watched_beginSettling s [entry] .natural outcome
      rcases watched_or_removed_complete (s.beginSettling [entry] .natural outcome).1
        s.settlements.length { settler := .natural, task := entry.task, row := entry.row, outcome
                               point := .tearingDown } with hwatched | hremoved
      · refine Or.inl ⟨hwatched.changes.trans hbegun.changes, hwatched.wakers.trans hbegun.wakers,
          ?_, fun hne => hwatched.entries (hbegun.entries hne)⟩
        rw [taskWakers_append, hbegun.called, hwatched.called, List.append_nil]
      · refine Or.inr ⟨hremoved.changes.trans (congrArg (· + 1) hbegun.changes), hremoved.wakers,
          ?_⟩
        rw [taskWakers_append, hbegun.called, hremoved.called, hbegun.wakers, List.nil_append]
  · exact Or.inl ⟨rfl, rfl, rfl, id⟩

theorem watched_register (s : Supervisor) (task : BackgroundTask) (taskId : BackgroundTaskId)
    (startedAt : Nat) :
    Watched s (s.register task taskId startedAt).1 (s.register task taskId startedAt).2 := by
  unfold Supervisor.register
  split
  · exact ⟨rfl, rfl, rfl, id⟩
  · split
    · exact ⟨rfl, rfl, rfl, id⟩
    · exact ⟨rfl, rfl, rfl, fun _ => List.append_ne_nil_of_right_ne_nil _ nofun⟩

theorem watched_cancel (s : Supervisor) (tag : BackgroundTaskTag) (reason : Option String) :
    Watched s (s.cancel tag reason).1 (s.cancel tag reason).2 := by
  unfold Supervisor.cancel
  split
  · split
    · exact ⟨rfl, rfl, rfl, id⟩
    · obtain ⟨hchanges, hwakers, hcalled, hentries⟩ :=
        watched_beginSettling { s with calls := s.calls + 1 } [_] (.cancel s.calls) _
      exact ⟨hchanges, hwakers, hcalled, hentries⟩
  · exact ⟨rfl, rfl, rfl, id⟩

/-- **A removal calls every waker, and nothing else moves the change counter.** -/
theorem supervisor_watch {completionTimeoutMs : Nat} {label : SupervisorLabel}
    {next : Supervisor × List BackgroundItem} (h : s.step completionTimeoutMs label = some next) :
    Watched s next.1 next.2 ∨ Removed s next.1 next.2 := by
  cases Supervisor.fired_of_step h with
  | register task taskId startedAt hfresh => exact Or.inl (watched_register s task taskId startedAt)
  | done taskId outcome => exact watched_or_removed_settle s taskId outcome
  | failed taskId message => exact watched_or_removed_settle s taskId _
  | cancel tag reason => exact Or.inl (watched_cancel s tag reason)
  | disposeAll reason =>
    obtain ⟨hchanges, hwakers, hcalled, hentries⟩ := watched_beginSettling { s with
      disposedReason := s.disposedReason <|> some reason
      calls := s.calls + 1
      disposals := s.disposals ++ [s.calls] } (s.entries.filter fun entry => !entry.settling)
      (.disposal s.calls) { status := .cancelled, outcome := reason }
    exact Or.inl ⟨hchanges, hwakers, hcalled, hentries⟩
  | tornDown position settlement hat hpoint => exact watched_or_removed_complete s position _
  | callHandler position settlement hat hpoint => exact Or.inl ⟨rfl, rfl, rfl, id⟩
  | handlerEnded position how settlement hat hpoint => exact Or.inr (removed_remove s position _ _)
  | cancelReturns call hcall => exact Or.inl ⟨rfl, rfl, rfl, id⟩
  | disposalReturns call hcall hall => exact Or.inl ⟨rfl, rfl, rfl, id⟩

end Supervisor

/-! ## The invariant -/

/-- No waker is registered. -/
structure Unhooked (s : AgentRun T) : Prop where
  steer : s.handle.steerWakers = []
  inbox : s.inbox.wakers = []
  tasks : s.tasks.wakers = []

/-- A wait that has not resolved has its waker, and its source is quiet. -/
structure Waiting (s : AgentRun T) (since park : Nat) : Prop where
  steerWakers : ∀ waker ∈ s.handle.steerWakers, waker = park
  inboxWakers : ∀ waker ∈ s.inbox.wakers, waker = park
  taskWakers : ∀ waker ∈ s.tasks.wakers, waker = park
  steer : (.steer, park) ∉ s.resolved →
    park ∈ s.handle.steerWakers ∧ s.handle.steers = [] ∧ s.handle.aborted = false
  inbox : (.inbox, park) ∉ s.resolved → park ∈ s.inbox.wakers ∧ s.inbox.entries = []
  tasks : (.tasks, park) ∉ s.resolved → park ∈ s.tasks.wakers ∧ s.tasks.changes = since
  captured : since ≤ s.tasks.changes
  busy : s.tasks.changes = since → s.tasks.entries ≠ []

/-- The wakers are those of the park the loop is in. -/
structure Parking (s : AgentRun T) : Prop where
  bound : ∀ source park, (source, park) ∈ s.resolved → park < s.parks
  current : ∀ since park, s.phase = .parked since park → park < s.parks
  waiting : ∀ since park, s.phase = .parked since park → Waiting s since park
  unhooked : (∀ since park, s.phase ≠ .parked since park) → Unhooked s

section Parking

variable {cfg : LoopConfig} {s s' : AgentRun T}

/-- Outside a park there is nothing to keep but the numbers. -/
theorem parking_unparked (hbound : ∀ source park, (source, park) ∈ s.resolved → park < s.parks)
    (hphase : ∀ since park, s.phase ≠ .parked since park) (h : Unhooked s) : Parking s :=
  ⟨hbound, fun since park heq => absurd heq (hphase since park),
    fun since park heq => absurd heq (hphase since park), fun _ => h⟩

/-- **The three waits of a park are registered before anything can happen.** -/
theorem parking_park (hbound : ∀ source park, (source, park) ∈ s.resolved → park < s.parks)
    (h : Unhooked s) (hlive : s.handle.aborted = false) (hsteers : s.handle.steers = [])
    (hnotes : s.inbox.entries = []) (htasks : s.tasks.entries ≠ []) :
    Parking (s.park s.tasks.changes) := by
  have heq : s.park s.tasks.changes = { s with
      handle := { s.handle with steerWakers := [s.parks] }
      inbox := { s.inbox with wakers := [s.parks] }
      tasks := { s.tasks with wakers := [s.parks] }
      parks := s.parks + 1
      phase := .parked s.tasks.changes s.parks } := by
    simp [AgentRun.park, RunHandle.waitForSteer, Inbox.waitForNext, Supervisor.waitForChange,
      hsteers, hnotes, hlive, h.steer, h.inbox, h.tasks]
  rw [heq]
  refine ⟨fun source park hmem => Nat.lt_succ_of_lt (hbound source park hmem), ?_, ?_, ?_⟩
  · rintro since park hphase
    cases hphase
    exact Nat.lt_succ_self _
  · rintro since park hphase
    cases hphase
    exact
      { steerWakers := fun waker hmem => List.mem_singleton.mp hmem
        inboxWakers := fun waker hmem => List.mem_singleton.mp hmem
        taskWakers := fun waker hmem => List.mem_singleton.mp hmem
        steer := fun _ => ⟨List.mem_cons_self, hsteers, hlive⟩
        inbox := fun _ => ⟨List.mem_cons_self, hnotes⟩
        tasks := fun _ => ⟨List.mem_cons_self, rfl⟩
        captured := Nat.le_refl _
        busy := fun _ => htasks }
  · intro hphase
    exact absurd rfl (hphase _ _)

theorem unhooked_exit (h : Unhooked s) (status : FinishStatus T) :
    Unhooked (s.exit status).1 := by
  refine ⟨?_, h.inbox, h.tasks⟩
  simp only [AgentRun.exit, RunHandle.finish]
  split <;> exact h.steer

theorem parking_exit (hbound : ∀ source park, (source, park) ∈ s.resolved → park < s.parks)
    (h : Unhooked s) (status : FinishStatus T) : Parking (s.exit status).1 :=
  parking_unparked hbound nofun (unhooked_exit h status)

/-- **From the head of the loop**, which is reached without wakers. -/
theorem parking_head (hbound : ∀ source park, (source, park) ∈ s.resolved → park < s.parks)
    (h : Unhooked s) {next : AgentRun T × List (RunItem T)} (hnext : Head cfg s next) :
    Parking next.1 := by
  have hdrained : Unhooked (s.drain cfg).1 := ⟨h.steer, h.inbox, h.tasks⟩
  cases hnext with
  | cancelled => exact parking_exit hbound h _
  | completed => exact parking_exit (s := (s.drain cfg).1) hbound hdrained _
  | parked hlive hrest hsteers hnotes htasks =>
    exact parking_park (s := (s.drain cfg).1) hbound hdrained hlive rfl rfl htasks
  | turn =>
    show Parking ((s.drain cfg).1.startTurn cfg).1
    unfold AgentRun.startTurn
    split
    · exact parking_exit (s := (s.drain cfg).1) hbound hdrained _
    · exact parking_unparked hbound nofun ⟨h.steer, h.inbox, h.tasks⟩

/-- A source calls its wakers: its wait has resolved. -/
theorem mem_wake {source : WakeSource} {wakers : List Nat} {wait : WakeSource × Nat} :
    wait ∈ (s.wake source wakers).resolved ↔
      wait ∈ s.resolved ∨ wait.1 = source ∧ wait.2 ∈ wakers := by
  rw [AgentRun.wake, List.mem_append, List.mem_map]
  refine or_congr_right ⟨?_, ?_⟩
  · rintro ⟨waker, hwaker, rfl⟩
    exact ⟨rfl, hwaker⟩
  · rintro ⟨rfl, hwaker⟩
    exact ⟨wait.2, hwaker, rfl⟩

/-- **A block of the loop.** -/
theorem parking_inside (h : Parking s) {next : AgentRun T × List (RunItem T)}
    (hnext : Block cfg s true next) : Parking next.1 := by
  -- only the park itself hooks wakers, so every other phase has none
  have hclear : (∀ since park, s.phase ≠ .parked since park) → Unhooked s := h.unhooked
  cases hnext with
  | streamed event hphase =>
    have hunhooked := hclear (by simp [hphase])
    exact parking_unparked h.bound nofun ⟨hunhooked.steer, hunhooked.inbox, hunhooked.tasks⟩
  | completed message usage stopReason hphase =>
    have hunhooked := hclear (by simp [hphase])
    exact parking_unparked h.bound nofun ⟨hunhooked.steer, hunhooked.inbox, hunhooked.tasks⟩
  | died error hphase =>
    refine parking_exit h.bound (hclear ?_) _
    rcases hphase with hphase | ⟨_, _, hphase⟩ <;> simp [hphase]
  | executorThrew error hphase => exact parking_exit h.bound (hclear (by simp [hphase])) _
  | @turn _ _ message usage hphase =>
    have hunhooked := hclear (by simp [hphase])
    unfold AgentRun.commitTurn
    dsimp only
    split
    · split
      · exact parking_exit (s := { (s.appendAssistant message).1 with
          turns := s.turns + 1, usage := addUsage s.usage usage }) h.bound
          ⟨hunhooked.steer, hunhooked.inbox, hunhooked.tasks⟩ _
      · exact parking_unparked h.bound nofun ⟨hunhooked.steer, hunhooked.inbox, hunhooked.tasks⟩
    · exact parking_unparked h.bound nofun ⟨hunhooked.steer, hunhooked.inbox, hunhooked.tasks⟩
  | rested hphase =>
    exact parking_head h.bound (hclear (by simp [hphase])) (loopHead_head cfg s)
  | dispatched hcalls hphase =>
    have hunhooked := hclear (by simp [hphase])
    exact parking_unparked h.bound nofun ⟨hunhooked.steer, hunhooked.inbox, hunhooked.tasks⟩
  | @batch calls results accepted instant hphase =>
    have hunhooked := hclear (by simp [hphase])
    have happended : Unhooked (s.appendToolResults
        ((normalizeBatch calls results instant).map (projectToolResult cfg.stringify))).1 :=
      ⟨hunhooked.steer, hunhooked.inbox, hunhooked.tasks⟩
    unfold AgentRun.commitBatch
    dsimp only
    split
    · split
      · exact parking_exit (s := (s.appendToolResults _).1) h.bound happended _
      · exact parking_exit (s := (s.appendToolResults _).1) h.bound happended _
    · split
      · exact parking_exit (s := (s.appendToolResults _).1) h.bound happended _
      · exact parking_head (s := (s.appendToolResults _).1) h.bound happended (loopHead_head cfg _)
  | @woken since park hphase hresolved =>
    have hwaiting := h.waiting since park hphase
    -- all wakers are those of this park
    have hfilter : ∀ wakers : List Nat, (∀ waker ∈ wakers, waker = park) →
        wakers.filter (· != park) = [] := by
      intro wakers hall
      rw [List.filter_eq_nil_iff]
      intro waker hmem
      simp [hall waker hmem]
    refine parking_head (s := s.unhook park) h.bound ⟨?_, ?_, ?_⟩ (loopHead_head cfg _)
    · exact hfilter _ hwaiting.steerWakers
    · exact hfilter _ hwaiting.inboxWakers
    · exact hfilter _ hwaiting.taskWakers

/-- Every waker belongs to a park that there has been. -/
theorem Parking.wakers (h : Parking s) :
    (∀ waker ∈ s.handle.steerWakers, waker < s.parks) ∧
      (∀ waker ∈ s.inbox.wakers, waker < s.parks) ∧ ∀ waker ∈ s.tasks.wakers, waker < s.parks := by
  by_cases hphase : ∃ since park, s.phase = .parked since park
  · obtain ⟨since, park, hphase⟩ := hphase
    have hcurrent := h.current since park hphase
    have hwaiting := h.waiting since park hphase
    exact ⟨fun waker hmem => hwaiting.steerWakers waker hmem ▸ hcurrent,
      fun waker hmem => hwaiting.inboxWakers waker hmem ▸ hcurrent,
      fun waker hmem => hwaiting.taskWakers waker hmem ▸ hcurrent⟩
  · have hunhooked := h.unhooked fun since park heq => hphase ⟨since, park, heq⟩
    rw [hunhooked.steer, hunhooked.inbox, hunhooked.tasks]
    exact ⟨nofun, nofun, nofun⟩

theorem bound_wake (hbound : ∀ source park, (source, park) ∈ s.resolved → park < s.parks)
    (source : WakeSource) {wakers : List Nat} (hwakers : ∀ waker ∈ wakers, waker < s.parks) :
    ∀ other park, (other, park) ∈ (s.wake source wakers).resolved →
      park < (s.wake source wakers).parks := by
  intro other park hmem
  rcases mem_wake.mp hmem with hmem | ⟨-, hmem⟩
  · exact hbound other park hmem
  · exact hwakers park hmem

/-- **A steer calls the wakers of the handle.** -/
theorem parking_steer (h : Parking s) (message : UserMessage) :
    Parking ({ s with handle := (s.handle.steer message).1 }.wake .steer
      (s.handle.steer message).2.2) := by
  unfold RunHandle.steer
  split
  · have heq : ({ s with handle := s.handle } : AgentRun T).wake .steer [] = s := by
      simp [AgentRun.wake]
    rw [heq]
    exact h
  · refine ⟨bound_wake (s := { s with handle := _ }) h.bound .steer h.wakers.1, h.current, ?_, ?_⟩
    · intro since park hphase
      have hwaiting := h.waiting since park hphase
      have hresolved : ∀ source, (source, park) ∈ s.resolved → (source, park) ∈
          (AgentRun.wake { s with handle := { s.handle with
            steers := s.handle.steers ++ [message], steerWakers := [] } } .steer
              s.handle.steerWakers).resolved :=
        fun source hmem => mem_wake.mpr (Or.inl hmem)
      exact
        { steerWakers := fun _ hmem => by cases hmem
          inboxWakers := hwaiting.inboxWakers
          taskWakers := hwaiting.taskWakers
          steer := fun hnot => absurd (mem_wake.mpr (Or.inr ⟨rfl,
            (hwaiting.steer fun hmem => hnot (hresolved _ hmem)).1⟩)) hnot
          inbox := fun hnot => hwaiting.inbox fun hmem => hnot (hresolved _ hmem)
          tasks := fun hnot => hwaiting.tasks fun hmem => hnot (hresolved _ hmem)
          captured := hwaiting.captured
          busy := hwaiting.busy }
    · intro hphase
      have hunhooked := h.unhooked hphase
      exact ⟨rfl, hunhooked.inbox, hunhooked.tasks⟩

/-- **A publish calls the wakers of the inbox.** -/
theorem parking_publish (h : Parking s) (message : String) (key : Option String) :
    Parking ({ s with inbox := (s.inbox.publish message key).1 }.wake .inbox
      (s.inbox.publish message key).2) := by
  refine ⟨bound_wake (s := { s with inbox := _ }) h.bound .inbox h.wakers.2.1, h.current, ?_, ?_⟩
  · intro since park hphase
    have hwaiting := h.waiting since park hphase
    have hresolved : ∀ source, (source, park) ∈ s.resolved → (source, park) ∈
        (AgentRun.wake { s with inbox := (s.inbox.publish message key).1 } .inbox
          (s.inbox.publish message key).2).resolved :=
      fun source hmem => mem_wake.mpr (Or.inl hmem)
    exact
      { steerWakers := hwaiting.steerWakers
        inboxWakers := nofun
        taskWakers := hwaiting.taskWakers
        steer := fun hnot => hwaiting.steer fun hmem => hnot (hresolved _ hmem)
        inbox := fun hnot => absurd (mem_wake.mpr (Or.inr ⟨rfl,
          (hwaiting.inbox fun hmem => hnot (hresolved _ hmem)).1⟩)) hnot
        tasks := fun hnot => hwaiting.tasks fun hmem => hnot (hresolved _ hmem)
        captured := hwaiting.captured
        busy := hwaiting.busy }
  · intro hphase
    have hunhooked := h.unhooked hphase
    exact ⟨hunhooked.steer, rfl, hunhooked.tasks⟩

/-- **A removal calls the wakers of the task registry.** -/
theorem parking_task (h : Parking s) {completionTimeoutMs : Nat} {label : SupervisorLabel}
    {tasks : Supervisor} {items : List BackgroundItem}
    (hstep : s.tasks.step completionTimeoutMs label = some (tasks, items)) :
    Parking ({ s with tasks := tasks }.wake .tasks (AgentRun.taskWakers items)) := by
  have hwakers : ∀ waker ∈ AgentRun.taskWakers items, waker < s.parks := by
    rcases supervisor_watch hstep with hwatched | hremoved
    · rw [hwatched.called]
      exact nofun
    · rw [hremoved.called]
      exact h.wakers.2.2
  refine ⟨bound_wake (s := { s with tasks := tasks }) h.bound .tasks hwakers, h.current, ?_, ?_⟩
  · intro since park hphase
    have hwaiting := h.waiting since park hphase
    have hresolved : ∀ source, (source, park) ∈ s.resolved → (source, park) ∈
        (AgentRun.wake { s with tasks := tasks } .tasks (AgentRun.taskWakers items)).resolved :=
      fun source hmem => mem_wake.mpr (Or.inl hmem)
    rcases supervisor_watch hstep with hwatched | hremoved
    · exact
        { steerWakers := hwaiting.steerWakers
          inboxWakers := hwaiting.inboxWakers
          taskWakers := fun waker hmem => hwaiting.taskWakers waker (hwatched.wakers ▸ hmem)
          steer := fun hnot => hwaiting.steer fun hmem => hnot (hresolved _ hmem)
          inbox := fun hnot => hwaiting.inbox fun hmem => hnot (hresolved _ hmem)
          tasks := fun hnot => by
            obtain ⟨hmem, hsince⟩ := hwaiting.tasks fun hmem => hnot (hresolved _ hmem)
            exact ⟨hwatched.wakers ▸ hmem, hwatched.changes.trans hsince⟩
          captured := hwatched.changes ▸ hwaiting.captured
          busy := fun hsince => hwatched.entries (hwaiting.busy (hwatched.changes ▸ hsince)) }
    · -- a removal moves the change count, so the park is due
      have hmoved : tasks.changes ≠ since := by
        have := hwaiting.captured
        have : tasks.changes = s.tasks.changes + 1 := hremoved.changes
        omega
      exact
        { steerWakers := hwaiting.steerWakers
          inboxWakers := hwaiting.inboxWakers
          taskWakers := fun waker hmem => absurd (hremoved.wakers ▸ hmem) nofun
          steer := fun hnot => hwaiting.steer fun hmem => hnot (hresolved _ hmem)
          inbox := fun hnot => hwaiting.inbox fun hmem => hnot (hresolved _ hmem)
          tasks := fun hnot => by
            have hmem := (hwaiting.tasks fun hmem => hnot (hresolved _ hmem)).1
            exact absurd (mem_wake.mpr (Or.inr ⟨rfl, hremoved.called ▸ hmem⟩)) hnot
          captured := by
            have := hwaiting.captured
            have : tasks.changes = s.tasks.changes + 1 := hremoved.changes
            show since ≤ tasks.changes
            omega
          busy := fun hsince => absurd hsince hmoved }
  · intro hphase
    have hunhooked := h.unhooked hphase
    refine ⟨hunhooked.steer, hunhooked.inbox, ?_⟩
    rcases supervisor_watch hstep with hwatched | hremoved
    · exact hwatched.wakers.trans hunhooked.tasks
    · exact hremoved.wakers

/-- **An interrupt calls every waker.** -/
theorem parking_interrupt (h : Parking s) : Parking s.interrupt.1 := by
  unfold AgentRun.interrupt
  split
  · exact h
  · obtain ⟨hsteer, hinbox, htasks⟩ := h.wakers
    have hbound := bound_wake (bound_wake (bound_wake h.bound .steer hsteer) .inbox hinbox) .tasks htasks
    refine ⟨hbound, h.current, ?_, fun _ => ⟨rfl, rfl, rfl⟩⟩
    intro since park hphase
    have hwaiting := h.waiting since park hphase
    have hcalled : ∀ source, (source, park) ∈
        (((s.wake .steer s.handle.steerWakers).wake .inbox s.inbox.wakers).wake .tasks
          s.tasks.wakers).resolved := by
      intro source
      by_cases hmem : (source, park) ∈ s.resolved
      · exact mem_wake.mpr (Or.inl (mem_wake.mpr (Or.inl (mem_wake.mpr (Or.inl hmem)))))
      · cases source with
        | steer =>
          exact mem_wake.mpr (Or.inl (mem_wake.mpr (Or.inl
            (mem_wake.mpr (Or.inr ⟨rfl, (hwaiting.steer hmem).1⟩)))))
        | inbox =>
          exact mem_wake.mpr (Or.inl (mem_wake.mpr (Or.inr ⟨rfl, (hwaiting.inbox hmem).1⟩)))
        | tasks => exact mem_wake.mpr (Or.inr ⟨rfl, (hwaiting.tasks hmem).1⟩)
    exact
      { steerWakers := nofun
        inboxWakers := nofun
        taskWakers := nofun
        steer := fun hnot => absurd (hcalled .steer) hnot
        inbox := fun hnot => absurd (hcalled .inbox) hnot
        tasks := fun hnot => absurd (hcalled .tasks) hnot
        captured := hwaiting.captured
        busy := hwaiting.busy }

/-- The latch is read by no wait. -/
theorem parking_latch (h : Parking s) (handle : RunHandle T)
    (hsteers : handle.steers = s.handle.steers)
    (hwakers : handle.steerWakers = s.handle.steerWakers)
    (haborted : handle.aborted = s.handle.aborted) : Parking { s with handle } := by
  refine ⟨h.bound, h.current, fun since park hphase => ?_, fun hphase => ?_⟩
  · have hwaiting := h.waiting since park hphase
    refine { hwaiting with steerWakers := ?_, steer := ?_ }
    · rw [hwakers]
      exact hwaiting.steerWakers
    · rw [hwakers, hsteers, haborted]
      exact hwaiting.steer
  · have hunhooked := h.unhooked hphase
    exact ⟨hwakers.trans hunhooked.steer, hunhooked.inbox, hunhooked.tasks⟩

/-- **Every block keeps the invariant.** -/
theorem parking_step {label : RunLabel T} {next : AgentRun T × List (RunItem T)} (h : Parking s)
    (hstep : s.step cfg label = some next) : Parking next.1 := by
  by_cases hinside : label.isInside = true
  · have hblock := step_block hstep
    rw [hinside] at hblock
    exact parking_inside h hblock
  cases fired_of_step hstep with
  | steer message => exact parking_steer h message
  | interrupt => exact parking_interrupt h
  | published message key => exact parking_publish h message key
  | unpublished => exact h
  | task label next hnext => exact parking_task h hnext
  | beginFinishing => exact parking_latch h _ rfl rfl rfl
  | cancelFinishing =>
    refine parking_latch h _ ?_ ?_ ?_ <;> simp only [RunHandle.cancelFinishing] <;> split <;> rfl
  | _ => exact absurd rfl hinside

end Parking

/-- The invariant holds in every reachable state. -/
theorem parking_of_run {cfg : LoopConfig} {messages : List UserMessage}
    {labels : List (RunLabel T)} {r : AgentHistory T}
    (run : Run (Recorded.step (AgentRun.step cfg)) Free (AgentRun.start cfg messages) labels r) :
    Parking r.state := by
  refine run.invariant (I := fun r => Parking r.state) ?_ ?_
  · exact parking_head (s := AgentRun.fresh messages) nofun ⟨rfl, rfl, rfl⟩ (loopHead_head cfg _)
  · intro r label r' _ hr hstep
    obtain ⟨state, items, hstate, rfl⟩ := Recorded.step_cases hstep
    exact parking_step hr hstate

/-- **No lost wakeup**, in every reachable state of every run: a park none of whose waits has
resolved has a live signal, no pending steer, an empty inbox, the change count it captured and open
tasks; and a park that has woken has left no waker behind. -/
theorem park_no_lost_wakeup {cfg : LoopConfig} {messages : List UserMessage}
    {labels : List (RunLabel T)} {r : AgentHistory T}
    (run : Run (Recorded.step (AgentRun.step cfg)) Free (AgentRun.start cfg messages) labels r) :
    (∀ since park, r.state.phase = .parked since park →
      (∀ source, (source, park) ∉ r.state.resolved) →
        r.state.handle.aborted = false ∧ r.state.handle.steers = [] ∧
          r.state.inbox.entries = [] ∧ r.state.tasks.changeCount = since ∧
          r.state.tasks.entries ≠ []) ∧
    ∀ park, (∀ since, r.state.phase ≠ .parked since park) →
      park ∉ r.state.handle.steerWakers ∧ park ∉ r.state.inbox.wakers ∧
        park ∉ r.state.tasks.wakers := by
  have h := parking_of_run run
  refine ⟨fun since park hphase hasleep => ?_, fun park hphase => ?_⟩
  · have hwaiting := h.waiting since park hphase
    obtain ⟨-, hsteers, hlive⟩ := hwaiting.steer (hasleep .steer)
    obtain ⟨-, hchanges⟩ := hwaiting.tasks (hasleep .tasks)
    exact ⟨hlive, hsteers, (hwaiting.inbox (hasleep .inbox)).2, hchanges, hwaiting.busy hchanges⟩
  · by_cases hparked : ∃ since other, r.state.phase = .parked since other
    · obtain ⟨since, other, hother⟩ := hparked
      have hne : park ≠ other := fun heq => hphase since (heq ▸ hother)
      have hwaiting := h.waiting since other hother
      exact ⟨fun hmem => hne (hwaiting.steerWakers park hmem),
        fun hmem => hne (hwaiting.inboxWakers park hmem),
        fun hmem => hne (hwaiting.taskWakers park hmem)⟩
    · have hunhooked := h.unhooked fun since other heq => hparked ⟨since, other, heq⟩
      rw [hunhooked.steer, hunhooked.inbox, hunhooked.tasks]
      exact ⟨nofun, nofun, nofun⟩

/-- The loop is in `waitForWake`. -/
def LoopPhase.waits : LoopPhase → Bool
  | .parked .. => true
  | _ => false

/-- A run that parks on an open task. -/
def sampleWait : List (RunLabel Unit) :=
  [.task (.register ⟨⟨"shell", "a"⟩, "build", true⟩ "t1" 1),
    .complete ⟨{ role := .assistant, content := [.text "done"] }, rfl⟩ ⟨1, 1, none, none⟩ none,
    .turnReturns, .boundaryReturns]

theorem park_no_lost_wakeup_open :
    ∃ (r : AgentHistory Unit) (since park : Nat),
      Run (Recorded.step (AgentRun.step (sampleConfig .text))) Free
        (AgentRun.start (sampleConfig .text) [⟨userText "go", rfl⟩]) sampleWait r ∧
      r.state.phase = .parked since park ∧ r.state.handle.aborted = false ∧
      r.state.handle.steers = [] ∧ r.state.inbox.entries = [] ∧ r.state.tasks.changeCount = since ∧
      r.state.tasks.entries ≠ [] ∧
      ∀ other, other ≠ park → other ∉ r.state.handle.steerWakers ∧ other ∉ r.state.inbox.wakers ∧
        other ∉ r.state.tasks.wakers := by
  obtain ⟨r, run, hr⟩ := exists_run (Recorded.step (AgentRun.step (sampleConfig .text))) Free
    (AgentRun.start (T := Unit) (sampleConfig .text) [⟨userText "go", rfl⟩]) sampleWait
    (fun r => r.state.resolved.isEmpty && r.state.phase.waits) (by decide +kernel)
  obtain ⟨hresolved, htest⟩ := Bool.and_eq_true_iff.mp hr
  cases hphase : r.state.phase with
  | parked since park =>
    have hasleep : ∀ source, (source, park) ∉ r.state.resolved := by
      rw [List.isEmpty_iff.mp hresolved]
      intro source
      simp
    obtain ⟨hsleeping, hwoken⟩ := park_no_lost_wakeup run
    obtain ⟨hlive, hsteers, hinbox, hchanges, hopen⟩ := hsleeping since park hphase hasleep
    refine ⟨r, since, park, run, hphase, hlive, hsteers, hinbox, hchanges, hopen, ?_⟩
    intro other hne
    refine hwoken other fun since' heq => hne ?_
    rw [hphase] at heq
    injection heq with _ hpark
    exact hpark.symm
  | _ =>
    rw [hphase] at htest
    cases htest

end EphemeralAgent.Engine
