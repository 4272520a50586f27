import EphemeralAgent.Background.Contract

/-!
# What a disposal leaves

`disposeAll` awaits the tasks that it takes itself.  A task that is being settled already, by its
own `done`, by `cancel()` or by an earlier disposal, is left to that code, and its entry stays in
the registry until that code is through.

* `Attended` — a marked task is being settled
* `Winding` — all that a supervisor does once it is disposed
* `disposal_leaves_empty` — the registry is empty when the promise resolves exactly when the
  settlements that were under way before are over
* `left_behind` — otherwise it lists a task
-/

namespace EphemeralAgent.Background

open Lib

variable {completionTimeoutMs : Nat} {s s' : Supervisor}

/-! ## Marked tasks -/

/-- Every task that is marked is being settled. -/
def Attended (s : Supervisor) : Prop :=
  ∀ entry ∈ s.entries, entry.settling = true →
    entry.row.taskId ∈ s.settlements.map (·.row.taskId)

theorem Attended.beginSettling (h : Attended s) (opened : List TaskEntry) (settler : Settler)
    (outcome : BackgroundTaskOutcome) : Attended (s.beginSettling opened settler outcome).1 := by
  intro entry hentry hmarked
  simp only [Supervisor.beginSettling, List.map_append, List.map_map, List.mem_append]
  obtain ⟨old, hold, rfl⟩ := List.mem_map.mp hentry
  by_cases hany : (opened.any fun e => e.row.taskId == old.row.taskId) = true
  · rw [if_pos hany]
    obtain ⟨taken, htaken, hid⟩ := List.any_eq_true.mp hany
    exact Or.inr (List.mem_map.mpr ⟨taken, htaken, by simpa using hid⟩)
  · rw [if_neg hany] at hmarked ⊢
    exact Or.inl (h old hold hmarked)

theorem Attended.remove (h : Attended s) (hids : (s.settlements.map (·.row.taskId)).Nodup)
    {position : Nat} {x : Settlement} (hx : s.settlements[position]? = some x)
    (completionError : Option String) : Attended (s.remove position x completionError).1 := by
  intro entry hentry hmarked
  obtain ⟨hentry, hne⟩ := List.mem_filter.mp hentry
  obtain ⟨y, hy, hid⟩ := List.mem_map.mp (h entry hentry hmarked)
  refine List.mem_map.mpr ⟨y, (mem_eraseIdx_iff hids hx).mpr ⟨hy, ?_⟩, hid⟩
  rw [hid]
  exact bne_iff_ne.mp hne

theorem Attended.set_point (h : Attended s) {position : Nat} {x : Settlement}
    (hx : s.settlements[position]? = some x) (point : SettlementPoint) :
    Attended { s with settlements := s.settlements.set position { x with point } } := by
  intro entry hentry hmarked
  have hids : (s.settlements.set position { x with point }).map (·.row.taskId) =
      s.settlements.map (·.row.taskId) := map_set_of_key hx rfl
  simp only [hids]
  exact h entry hentry hmarked

theorem Attended.complete (h : Attended s) (hids : (s.settlements.map (·.row.taskId)).Nodup)
    {position : Nat} {x : Settlement} (hx : s.settlements[position]? = some x) :
    Attended (s.complete position x).1 := by
  unfold Supervisor.complete
  split
  · exact h.remove hids hx none
  · exact h.set_point hx .completing

theorem Attended.register (h : Attended s) (task : BackgroundTask) (taskId : BackgroundTaskId)
    (startedAt : Nat) : Attended (s.register task taskId startedAt).1 := by
  unfold Supervisor.register
  split
  · exact h
  split
  · exact h
  · intro entry hentry hmarked
    rcases List.mem_append.mp hentry with hentry | hentry
    · exact h entry hentry hmarked
    · obtain rfl := List.mem_singleton.mp hentry
      cases hmarked

theorem Attended.settle {history : List BackgroundItem} (hgood : Good s history) (h : Attended s)
    (taskId : BackgroundTaskId) (outcome : BackgroundTaskOutcome) :
    Attended (s.settle taskId outcome).1 := by
  unfold Supervisor.settle
  split
  · next entry hget =>
    by_cases hsettling : entry.settling = true
    · rw [if_pos hsettling]
      exact h
    · rw [if_neg hsettling]
      have hbegun := hgood.tasks.beginSettling
        (List.singleton_sublist.mpr (List.mem_of_find?_eq_some hget))
        (by simpa using hsettling) .natural outcome (by simp)
      refine (h.beginSettling [entry] .natural outcome).complete hbegun.underWay ?_
      simp [Supervisor.beginSettling]
  · exact h

theorem Attended.cancel (h : Attended s) (tag : BackgroundTaskTag) (reason : Option String) :
    Attended (s.cancel tag reason).1 := by
  have hcalled : Attended { s with calls := s.calls + 1 } := h
  unfold Supervisor.cancel
  split
  · split
    · exact h
    · exact hcalled.beginSettling _ _ _
  · exact h

theorem Attended.disposeAll (h : Attended s) (reason : String) :
    Attended (s.disposeAll reason).1 := by
  have hlatched : Attended { s with
      disposedReason := s.disposedReason <|> some reason
      calls := s.calls + 1
      disposals := s.disposals ++ [s.calls] } := h
  exact hlatched.beginSettling _ _ _

theorem attended_step {history : List BackgroundItem} {label : SupervisorLabel}
    {next : Supervisor × List BackgroundItem} (hgood : Good s history) (h : Attended s)
    (hstep : s.step completionTimeoutMs label = some next) : Attended next.1 := by
  cases Supervisor.fired_of_step hstep with
  | register task taskId startedAt hfresh => exact h.register task taskId startedAt
  | done taskId outcome => exact Attended.settle hgood h taskId outcome
  | failed taskId message => exact Attended.settle hgood h taskId _
  | cancel tag reason => exact h.cancel tag reason
  | disposeAll reason => exact h.disposeAll reason
  | tornDown position x hx hpoint => exact h.complete hgood.tasks.underWay hx
  | callHandler position x hx hpoint => exact h.set_point hx .handling
  | handlerEnded position how x hx hpoint =>
    exact h.remove hgood.tasks.underWay hx (Supervisor.completionError completionTimeoutMs how)
  | cancelReturns call hcall => exact h
  | disposalReturns call hcall hall => exact h

theorem attended_of_run {labels : List SupervisorLabel} {r : SupervisorRun}
    (run : Run (Recorded.step (Supervisor.step completionTimeoutMs)) Free
      { state := .initial, history := [] } labels r) : Attended r.state := by
  refine run.invariant_of (I := fun r => Attended r.state)
    (J := fun r => Good r.state r.history) good_of_run (fun entry hentry => by cases hentry) ?_
  intro r label r' _ hgood h hstep
  obtain ⟨state, items, hstate, rfl⟩ := Recorded.step_cases hstep
  exact attended_step hgood h hstate

/-! ## After a disposal -/

/-- The supervisor is disposed, and none of its tasks can be taken any more. -/
structure Disposed (s : Supervisor) : Prop where
  latched : s.disposedReason.isSome = true
  marked : ∀ entry ∈ s.entries, entry.settling = true

/-- From `s` to `s'` tasks and settlements have only become fewer. -/
structure Winding (s s' : Supervisor) : Prop where
  disposed : Disposed s'
  entries : s'.entries ⊆ s.entries
  settlements : ∀ x ∈ s'.settlements, ∃ y ∈ s.settlements, y.settler = x.settler ∧ y.row = x.row

theorem Disposed.winding (h : Disposed s) (hlatched : s'.disposedReason = s.disposedReason)
    (hentries : s'.entries ⊆ s.entries)
    (hsettlements : ∀ x ∈ s'.settlements, ∃ y ∈ s.settlements,
      y.settler = x.settler ∧ y.row = x.row) : Winding s s' :=
  ⟨⟨by rw [hlatched]; exact h.latched, fun entry hentry => h.marked entry (hentries hentry)⟩,
    hentries, hsettlements⟩

theorem Disposed.same (h : Disposed s) (hlatched : s'.disposedReason = s.disposedReason)
    (hentries : s'.entries = s.entries) (hsettlements : s'.settlements = s.settlements) :
    Winding s s' := by
  refine h.winding hlatched (hentries ▸ fun entry hentry => hentry) fun x hx => ?_
  rw [hsettlements] at hx
  exact ⟨x, hx, rfl, rfl⟩

theorem Disposed.remove (h : Disposed s) (position : Nat) (x : Settlement)
    (completionError : Option String) : Winding s (s.remove position x completionError).1 :=
  h.winding rfl (fun _ hentry => (List.mem_filter.mp hentry).1)
    fun y hy => ⟨y, List.mem_of_mem_eraseIdx hy, rfl, rfl⟩

theorem Disposed.set_point (h : Disposed s) {position : Nat} {x : Settlement}
    (hx : s.settlements[position]? = some x) (point : SettlementPoint) :
    Winding s { s with settlements := s.settlements.set position { x with point } } := by
  refine h.winding rfl (fun _ hentry => hentry) fun y hy => ?_
  rcases List.mem_or_eq_of_mem_set hy with hy | rfl
  · exact ⟨y, hy, rfl, rfl⟩
  · exact ⟨x, List.mem_of_getElem? hx, rfl, rfl⟩

theorem Disposed.complete (h : Disposed s) {position : Nat} {x : Settlement}
    (hx : s.settlements[position]? = some x) : Winding s (s.complete position x).1 := by
  unfold Supervisor.complete
  split
  · exact h.remove position x none
  · exact h.set_point hx .completing

theorem Disposed.register (h : Disposed s) (task : BackgroundTask) (taskId : BackgroundTaskId)
    (startedAt : Nat) : Winding s (s.register task taskId startedAt).1 := by
  unfold Supervisor.register
  simp only
  rw [if_pos h.latched]
  exact h.same rfl rfl rfl

theorem Disposed.settle (h : Disposed s) (taskId : BackgroundTaskId)
    (outcome : BackgroundTaskOutcome) : Winding s (s.settle taskId outcome).1 := by
  unfold Supervisor.settle
  split
  · next entry hget =>
    rw [if_pos (h.marked entry (List.mem_of_find?_eq_some hget))]
    exact h.same rfl rfl rfl
  · exact h.same rfl rfl rfl

theorem Disposed.cancel (h : Disposed s) (tag : BackgroundTaskTag) (reason : Option String) :
    Winding s (s.cancel tag reason).1 := by
  unfold Supervisor.cancel
  split
  · next entry hactive =>
    rw [if_pos (h.marked entry (List.mem_of_find?_eq_some hactive))]
    exact h.same rfl rfl rfl
  · exact h.same rfl rfl rfl

theorem Disposed.disposeAll (h : Disposed s) (reason : String) :
    Winding s (s.disposeAll reason).1 := by
  have hnone : (s.entries.filter fun entry => !entry.settling) = [] := by
    rw [List.filter_eq_nil_iff]
    intro entry hentry
    simp [h.marked entry hentry]
  obtain ⟨before, hbefore⟩ := Option.isSome_iff_exists.mp h.latched
  unfold Supervisor.disposeAll
  rw [hnone]
  refine h.same ?_ ?_ ?_ <;> simp [Supervisor.beginSettling, hbefore]

/-- **A disposed supervisor only winds down**: no task is listed or taken any more. -/
theorem winding_step {label : SupervisorLabel} {next : Supervisor × List BackgroundItem}
    (h : Disposed s) (hstep : s.step completionTimeoutMs label = some next) :
    Winding s next.1 := by
  cases Supervisor.fired_of_step hstep with
  | register task taskId startedAt hfresh => exact h.register task taskId startedAt
  | done taskId outcome => exact h.settle taskId outcome
  | failed taskId message => exact h.settle taskId _
  | cancel tag reason => exact h.cancel tag reason
  | disposeAll reason => exact h.disposeAll reason
  | tornDown position x hx hpoint => exact h.complete hx
  | callHandler position x hx hpoint => exact h.set_point hx .handling
  | handlerEnded position how x hx hpoint =>
    exact h.remove position x (Supervisor.completionError completionTimeoutMs how)
  | cancelReturns call hcall => exact h.same rfl rfl rfl
  | disposalReturns call hcall hall => exact h.same rfl rfl rfl

theorem Winding.trans {s'' : Supervisor} (h : Winding s s') (h' : Winding s' s'') :
    Winding s s'' := by
  refine ⟨h'.disposed, fun entry hentry => h.entries (h'.entries hentry), fun x hx => ?_⟩
  obtain ⟨y, hy, hsettler, hrow⟩ := h'.settlements x hx
  obtain ⟨z, hz, hsettler', hrow'⟩ := h.settlements y hy
  exact ⟨z, hz, hsettler'.trans hsettler, hrow'.trans hrow⟩

theorem winding_run {labels : List SupervisorLabel} {r r' : SupervisorRun}
    (h : Disposed r.state)
    (run : Run (Recorded.step (Supervisor.step completionTimeoutMs)) Free r labels r') :
    Winding r.state r'.state := by
  refine run.invariant (I := fun r' => Winding r.state r'.state) (h.same rfl rfl rfl) ?_
  intro u label v _ hu hstep
  obtain ⟨state, items, hstate, rfl⟩ := Recorded.step_cases hstep
  exact hu.trans (winding_step hu.disposed hstate)

/-- `disposeAll` marks every task that is listed, and settles the new ones itself. -/
theorem disposed_disposeAll (s : Supervisor) (reason : String) :
    Disposed (s.disposeAll reason).1 ∧
      ∀ x ∈ (s.disposeAll reason).1.settlements,
        x ∈ s.settlements ∨ x.settler = .disposal s.calls := by
  refine ⟨⟨?_, fun entry hentry => ?_⟩, fun x hx => ?_⟩
  · unfold Supervisor.disposeAll Supervisor.beginSettling
    cases s.disposedReason <;> rfl
  · obtain ⟨old, hold, rfl⟩ := List.mem_map.mp hentry
    by_cases hsettling : old.settling = true
    · split
      · rfl
      · exact hsettling
    · have hopen : old ∈ s.entries.filter fun entry => !entry.settling :=
        List.mem_filter.mpr ⟨hold, by simpa using hsettling⟩
      have hany : ((s.entries.filter fun entry => !entry.settling).any
          fun entry => entry.row.taskId == old.row.taskId) = true :=
        List.any_eq_true.mpr ⟨old, hopen, beq_self_eq_true _⟩
      rw [if_pos hany]
  · rcases List.mem_append.mp hx with hx | hx
    · exact Or.inl hx
    · obtain ⟨entry, -, rfl⟩ := List.mem_map.mp hx
      exact Or.inr rfl

/-! ## The promise of a disposal -/

/-- No settlement that was under way in `s` is under way in `s'`. -/
def Over (s s' : Supervisor) : Prop :=
  ∀ x ∈ s.settlements, x.row.taskId ∉ s'.settlements.map (·.row.taskId)

/-- The registry is empty and stays so; what is registered later leaves no trace. -/
structure LeftEmpty (completionTimeoutMs : Nat) (r : SupervisorRun) : Prop where
  empty : r.state.isEmpty = true
  stays : ∀ labels u,
    Run (Recorded.step (Supervisor.step completionTimeoutMs)) Free r labels u →
      u.state.isEmpty = true ∧ ∀ task taskId startedAt,
        (u.state.register task taskId startedAt).2 = [.discarded taskId]

/-- **The promise of `disposeAll` resolves over an empty registry exactly when the settlements
that were under way at the call are over by then.**  The registry then stays empty. -/
theorem disposal_leaves_empty {reason : String} {labels later : List SupervisorLabel}
    {r disposing resolving resolved : SupervisorRun}
    (run : Run (Recorded.step (Supervisor.step completionTimeoutMs)) Free
      { state := .initial, history := [] } labels r)
    (hdispose : Recorded.step (Supervisor.step completionTimeoutMs) r (.disposeAll reason) =
      some disposing)
    (waiting : Run (Recorded.step (Supervisor.step completionTimeoutMs)) Free disposing later
      resolving)
    (hresolve : Recorded.step (Supervisor.step completionTimeoutMs) resolving
      (.disposalReturns r.state.calls) = some resolved) :
    LeftEmpty completionTimeoutMs resolved ↔ Over r.state resolving.state := by
  have hall := (run.trans (Run.single trivial hdispose)).trans waiting
  obtain ⟨state, items, hstate, rfl⟩ := Recorded.step_cases hdispose
  obtain ⟨rfl, -⟩ := Prod.mk.inj (Option.some.inj hstate).symm
  obtain ⟨hdisposed, hnew⟩ := disposed_disposeAll r.state reason
  have hwinding := winding_run (by exact hdisposed) waiting
  obtain ⟨state', items', hstate', rfl⟩ := Recorded.step_cases hresolve
  simp only [Supervisor.step, Option.ite_none_right_eq_some, Option.some.injEq] at hstate'
  obtain ⟨⟨-, hown⟩, heq⟩ := hstate'
  obtain ⟨rfl, -⟩ := Prod.mk.inj heq.symm
  have htasks := (good_of_run hall).tasks
  have hold : ∀ x ∈ resolving.state.settlements, ∃ y ∈ r.state.settlements, y.row = x.row := by
    intro x hx
    obtain ⟨y, hy, hsettler, hrow⟩ := hwinding.settlements x hx
    rcases hnew y hy with hy | hy
    · exact ⟨y, hy, hrow⟩
    · exact absurd (hsettler.symm.trans hy) (hown x hx)
  constructor
  · intro hempty x hx hmem
    -- what is under way is the settlement of a listed task
    obtain ⟨y, hy, -⟩ := List.mem_map.mp hmem
    obtain ⟨entry, hentry, -⟩ := htasks.marked y hy
    have hnil : resolving.state.entries = [] := List.isEmpty_iff.mp hempty.empty
    rw [hnil] at hentry
    cases hentry
  · intro hover
    have hnil : resolving.state.entries = [] := by
      rw [List.eq_nil_iff_forall_not_mem]
      intro entry hentry
      have hid := attended_of_run hall entry hentry (hwinding.disposed.marked entry hentry)
      obtain ⟨x, hx, hxid⟩ := List.mem_map.mp hid
      obtain ⟨y, hy, hrow⟩ := hold x hx
      refine hover y hy ?_
      rw [hrow, hxid]
      exact hid
    refine ⟨List.isEmpty_iff.mpr hnil, fun labels u hrun => ?_⟩
    have hlater := winding_run (by exact ⟨hwinding.disposed.latched, hwinding.disposed.marked⟩) hrun
    refine ⟨List.isEmpty_iff.mpr (List.eq_nil_iff_forall_not_mem.mpr fun entry hentry => ?_), ?_⟩
    · have := hlater.entries hentry
      rw [hnil] at this
      cases this
    · intro task taskId startedAt
      unfold Supervisor.register
      simp only
      rw [if_pos hlater.disposed.latched]

/-- A task that waits for its handler, and one that runs. -/
def oneSettling : List SupervisorLabel :=
  [.register ⟨⟨"shell", "a"⟩, "build", false⟩ "t1" 1, .done "t1" (.ok ⟨.success, "built"⟩),
    .callHandler 0, .register ⟨⟨"agent", "b"⟩, "review", false⟩ "t2" 2]

/-- Both handlers end before the disposal resolves. -/
theorem disposal_leaves_empty_settled :
    ∃ r disposing resolving resolved : SupervisorRun,
      r.state.list.length = 2 ∧ disposing.state.list.length = 2 ∧
      Run (Recorded.step (Supervisor.step 30000)) Free disposing
        [.handlerEnded 0 .returned, .tornDown 0, .callHandler 0, .handlerEnded 0 .timedOut]
        resolving ∧
      Recorded.step (Supervisor.step 30000) resolving (.disposalReturns r.state.calls) =
        some resolved ∧ LeftEmpty 30000 resolved := by
  obtain ⟨r, run, hr⟩ := exists_run (Recorded.step (Supervisor.step 30000)) Free
    { state := .initial, history := [] } oneSettling
    (fun r => r.state.list.length == 2 &&
      (Recorded.step (Supervisor.step 30000) r (.disposeAll "run finished")).any fun disposing =>
        disposing.state.list.length == 2 &&
        (exec (Recorded.step (Supervisor.step 30000)) Free disposing
          [.handlerEnded 0 .returned, .tornDown 0, .callHandler 0,
            .handlerEnded 0 .timedOut]).any fun resolving =>
          resolving.state.settlements.isEmpty &&
          (Recorded.step (Supervisor.step 30000) resolving
            (.disposalReturns r.state.calls)).isSome) (by decide +kernel)
  simp only [Bool.and_eq_true, Option.any_eq_true, beq_iff_eq, List.isEmpty_iff,
    Option.isSome_iff_exists] at hr
  obtain ⟨hlength, disposing, hdispose, hboth, resolving, hwait, hnone, resolved, hresolve⟩ := hr
  refine ⟨r, disposing, resolving, resolved, hlength, hboth, run_of_exec hwait, hresolve, ?_⟩
  refine (disposal_leaves_empty run hdispose (run_of_exec hwait) hresolve).mpr ?_
  intro x _ hmem
  rw [hnone] at hmem
  cases hmem

/-- **The promise resolves while the handler of a task is in flight**, and the task is still
listed: `disposeAll` has taken only the other one. -/
theorem left_behind :
    ∃ r resolved : SupervisorRun,
      Run (Recorded.step (Supervisor.step 30000)) Free { state := .initial, history := [] }
        oneSettling r ∧
      Run (Recorded.step (Supervisor.step 30000)) Free r
        [.disposeAll "run finished", .tornDown 1, .callHandler 1, .handlerEnded 1 .returned,
          .disposalReturns r.state.calls] resolved ∧
      resolved.state.list.map (·.taskId) = ["t1"] ∧ ¬ LeftEmpty 30000 resolved := by
  obtain ⟨r, resolved, run, later, hr⟩ := exists_run_run
    (Recorded.step (Supervisor.step 30000)) Free { state := .initial, history := [] } oneSettling
    [.disposeAll "run finished", .tornDown 1, .callHandler 1, .handlerEnded 1 .returned,
      .disposalReturns 0]
    (fun r resolved => r.state.calls == 0 && resolved.state.list.map (·.taskId) == ["t1"])
    (by decide +kernel)
  simp only [Bool.and_eq_true, beq_iff_eq] at hr
  refine ⟨r, resolved, run, by rw [hr.1]; exact later, hr.2, fun h => ?_⟩
  have hnil : resolved.state.entries = [] := List.isEmpty_iff.mp h.empty
  have hlist := hr.2
  rw [Supervisor.list, hnil] at hlist
  cases hlist

end EphemeralAgent.Background
