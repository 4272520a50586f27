import Mathlib.Data.List.Nodup
import EphemeralAgent.Background.Supervisor
import EphemeralAgent.Lib.Update

/-!
# The registry is exactly the open tasks

What a supervisor has shown and what its registry lists, in every reachable state.  A task is
settled by the one piece of code that found it running, so everything that follows happens once.

* `Ledger` — what a history says of the tasks
* `Sound` — the invariant; `Sound.register`, `Sound.beginSettling`, … keep it, one for each operation
-/

namespace EphemeralAgent.Background

open Lib

/-! ## Reading a history -/

/-- What the items of a history say of the tasks, each list in the order of the items. -/
structure Ledger where
  /-- The `task_registered` events, with the task that was registered. -/
  registered : List (BackgroundTask × BackgroundTaskRow)
  /-- The `task_settled` events. -/
  settled : List (BackgroundTaskRow × BackgroundTaskOutcome)
  /-- The calls of `onCompletion`. -/
  called : List (BackgroundTaskId × BackgroundTaskOutcome)
  /-- The tasks that were found running, and by whom. -/
  taken : List (Settler × BackgroundTaskId)

def ledger (history : List BackgroundItem) : Ledger :=
  { registered := history.filterMap fun item =>
      match item with
      | .registered task row => some (task, row)
      | _ => none
    settled := history.filterMap fun item =>
      match item with
      | .settled row outcome _ => some (row, outcome)
      | _ => none
    called := history.filterMap fun item =>
      match item with
      | .handlerCalled taskId outcome => some (taskId, outcome)
      | _ => none
    taken := history.filterMap fun item =>
      match item with
      | .settling settler taskId => some (settler, taskId)
      | _ => none }

namespace Ledger

/-- The rows of the registered tasks. -/
abbrev rows (l : Ledger) : List BackgroundTaskRow :=
  l.registered.map (·.2)

/-- The ids of the settled tasks. -/
abbrev settledIds (l : Ledger) : List BackgroundTaskId :=
  l.settled.map (·.1.taskId)

end Ledger

/-! ## The invariant -/

/-- What holds of the tasks between two blocks of a supervisor. -/
structure Sound (s : Supervisor) (l : Ledger) : Prop where
  tags : (s.list.map (·.tag)).Nodup
  rows : s.list = l.rows.filter fun row => row.taskId ∉ l.settledIds
  registered : (l.rows.map (·.taskId)).Nodup
  minted : ∀ row ∈ l.rows, row.taskId ∈ s.minted
  entries : ∀ entry ∈ s.entries, (entry.task, entry.row) ∈ l.registered
  settledOnce : l.settledIds.Nodup
  changes : s.changes = l.settled.length
  underWay : (s.settlements.map (·.row.taskId)).Nodup
  /-- A settlement under way is that of a listed task, which is marked. -/
  marked : ∀ x ∈ s.settlements, ∃ entry ∈ s.entries,
    entry.row = x.row ∧ entry.task = x.task ∧ entry.settling = true
  /-- A task that some code has taken is being settled or is settled. -/
  taken : ∀ settler taskId, (settler, taskId) ∈ l.taken →
    taskId ∈ s.settlements.map (·.row.taskId) ∨ taskId ∈ l.settledIds
  takenOnce : (l.taken.map (·.2)).Nodup
  /-- A handler that was called belongs to a settlement that waits for it or is over. -/
  called : ∀ taskId outcome, (taskId, outcome) ∈ l.called →
    (∃ x ∈ s.settlements, x.row.taskId = taskId ∧ x.outcome = outcome ∧ x.point = .handling) ∨
      ∃ row, (row, outcome) ∈ l.settled ∧ row.taskId = taskId
  calledOnce : (l.called.map (·.1)).Nodup
  handling : ∀ x ∈ s.settlements, x.point = .handling → (x.row.taskId, x.outcome) ∈ l.called
  loud : ∀ x ∈ s.settlements, x.point ≠ .tearingDown → x.task.silent = false
  notSilent : ∀ task row, (task, row) ∈ l.registered → row.taskId ∈ l.called.map (·.1) →
    task.silent = false
  settled : ∀ row outcome, (row, outcome) ∈ l.settled →
    ∃ task, (task, row) ∈ l.registered ∧
      (task.silent = false → (row.taskId, outcome) ∈ l.called)
  /-- A cancellation keeps its outcome until the event. -/
  cancelled : ∀ call taskId, (.cancel call, taskId) ∈ l.taken →
    (∃ x ∈ s.settlements, x.row.taskId = taskId ∧ x.outcome.status = .cancelled) ∨
      ∃ row outcome, (row, outcome) ∈ l.settled ∧ row.taskId = taskId ∧
        outcome.status = .cancelled

theorem sound_initial : Sound .initial (ledger []) := by
  constructor <;> simp [Supervisor.initial, Supervisor.list, ledger, Ledger.settledIds]

section Sound

variable {s : Supervisor} {l : Ledger}

/-- No two listed tasks share an id. -/
theorem Sound.ids (h : Sound s l) : (s.entries.map (·.row.taskId)).Nodup := by
  have hlist : (s.list.map (·.taskId)).Nodup := by
    rw [h.rows]
    exact h.registered.sublist (List.filter_sublist.map _)
  rwa [Supervisor.list, List.map_map] at hlist

theorem Sound.settled_registered (h : Sound s l) {taskId : BackgroundTaskId}
    (hid : taskId ∈ l.settledIds) : taskId ∈ l.rows.map (·.taskId) := by
  obtain ⟨⟨row, outcome⟩, hmem, rfl⟩ := List.mem_map.mp hid
  obtain ⟨task, htask, -⟩ := h.settled row outcome hmem
  exact List.mem_map_of_mem (List.mem_map_of_mem htask)

/-- A listed task is not settled. -/
theorem Sound.listed (h : Sound s l) {entry : TaskEntry} (hentry : entry ∈ s.entries) :
    entry.row.taskId ∉ l.settledIds := by
  have hrow : entry.row ∈ s.list := List.mem_map_of_mem hentry
  rw [h.rows, List.mem_filter] at hrow
  exact of_decide_eq_true hrow.2

/-- Nobody has taken a task that is not marked. -/
theorem Sound.running (h : Sound s l) {entry : TaskEntry} (hentry : entry ∈ s.entries)
    (hrunning : entry.settling = false) :
    entry.row.taskId ∉ s.settlements.map (·.row.taskId) ∧
      entry.row.taskId ∉ l.taken.map (·.2) := by
  have hidle : entry.row.taskId ∉ s.settlements.map (·.row.taskId) := by
    intro hmem
    obtain ⟨x, hx, hid⟩ := List.mem_map.mp hmem
    obtain ⟨other, hother, hrow, -, hmarked⟩ := h.marked x hx
    have heq : other = entry := eq_of_key_eq h.ids hother hentry (by rw [hrow, hid])
    rw [heq, hrunning] at hmarked
    cases hmarked
  refine ⟨hidle, fun htaken => ?_⟩
  obtain ⟨⟨settler, taskId⟩, hmem, rfl⟩ := List.mem_map.mp htaken
  rcases h.taken settler _ hmem with hmem | hmem
  · exact hidle hmem
  · exact h.listed hentry hmem

/-! ## The operations -/

/-- **A new task is listed last.** -/
theorem Sound.listNew (h : Sound s l) (task : BackgroundTask) (row : BackgroundTaskRow)
    (hfresh : row.taskId ∉ s.minted) (htag : row.tag = task.tag)
    (hactive : ¬ (s.findActive task.tag).isSome = true) :
    Sound { s with
        entries := s.entries ++ [{ task, row, settling := false }]
        minted := row.taskId :: s.minted }
      { l with registered := l.registered ++ [(task, row)] } := by
  have hunregistered : row.taskId ∉ l.rows.map (·.taskId) := by
    intro hmem
    obtain ⟨other, hother, heq⟩ := List.mem_map.mp hmem
    exact hfresh (heq ▸ h.minted other hother)
  have hunsettled : row.taskId ∉ l.settledIds :=
    fun hmem => hunregistered (h.settled_registered hmem)
  -- an id that was never minted occurs nowhere in the ledger
  have huncalled : row.taskId ∉ l.called.map (·.1) := by
    intro hmem
    obtain ⟨⟨taskId, outcome⟩, hcalled, rfl⟩ := List.mem_map.mp hmem
    rcases h.called _ outcome hcalled with ⟨x, hx, hid, -⟩ | ⟨other, hother, hid⟩
    · obtain ⟨entry, hentry, heq, -⟩ := h.marked x hx
      refine hunregistered (List.mem_map.mpr ⟨entry.row, ?_, by rw [heq]; exact hid⟩)
      exact List.mem_map_of_mem (h.entries entry hentry)
    · exact hunsettled (List.mem_map.mpr ⟨_, hother, hid⟩)
  refine { h with
    tags := ?tags, rows := ?rows, registered := ?registered, minted := ?minted, entries := ?entries, marked := ?marked,
    notSilent := ?notSilent, settled := ?settled }
  case tags =>
    rw [Supervisor.list, List.map_append, List.map_append]
    refine List.nodup_append.mpr ⟨h.tags, List.nodup_singleton _, ?_⟩
    intro tag hmem other hother heq
    obtain ⟨entry, hentry, rfl⟩ := List.exists_of_mem_map (List.map_map ▸ hmem)
    have hother' : other = task.tag := by simpa [htag] using hother
    -- a listed task with the same tag would be the active one
    refine hactive ?_
    rw [Supervisor.findActive, List.find?_isSome]
    exact ⟨entry, hentry, by simpa [hother'] using heq⟩
  case rows =>
    rw [Ledger.rows, List.map_append, List.filter_append, Supervisor.list, List.map_append]
    refine congrArg₂ _ h.rows (List.filter_cons_of_pos (l := []) ?_).symm
    exact decide_eq_true hunsettled
  case registered =>
    rw [Ledger.rows, List.map_append, List.map_append]
    refine List.nodup_append.mpr ⟨h.registered, List.nodup_singleton _, ?_⟩
    intro a ha b hb heq
    have hrow : b = row.taskId := by simpa using hb
    exact hunregistered (hrow ▸ heq ▸ ha)
  case minted =>
    intro other hother
    rw [Ledger.rows, List.map_append, List.mem_append] at hother
    rcases hother with hother | hother
    · exact List.mem_cons_of_mem _ (h.minted other hother)
    · obtain rfl : other = row := by simpa using hother
      exact List.mem_cons_self
  case entries =>
    intro entry hentry
    rcases List.mem_append.mp hentry with hentry | hentry
    · exact List.mem_append_left _ (h.entries entry hentry)
    · obtain rfl := List.mem_singleton.mp hentry
      exact List.mem_append_right _ List.mem_cons_self
  case marked =>
    intro x hx
    obtain ⟨entry, hentry, hx'⟩ := h.marked x hx
    exact ⟨entry, List.mem_append_left _ hentry, hx'⟩
  case notSilent =>
    intro other otherRow hmem hid
    rcases List.mem_append.mp hmem with hmem | hmem
    · exact h.notSilent other otherRow hmem hid
    · obtain ⟨rfl, rfl⟩ := Prod.mk.inj (List.mem_singleton.mp hmem)
      exact absurd hid huncalled
  case settled =>
    intro other outcome hmem
    obtain ⟨settled, hsettled, hcalled⟩ := h.settled other outcome hmem
    exact ⟨settled, List.mem_append_left _ hsettled, hcalled⟩

/-- **Running tasks are taken for settlement.** -/
theorem Sound.beginSettling (h : Sound s l) {opened : List TaskEntry}
    (hopened : opened.Sublist s.entries) (hrunning : ∀ entry ∈ opened, entry.settling = false)
    (settler : Settler) (outcome : BackgroundTaskOutcome)
    (hcancel : ∀ call, settler = .cancel call → outcome.status = .cancelled) :
    Sound (s.beginSettling opened settler outcome).1
      { l with taken := l.taken ++ opened.map fun entry => (settler, entry.row.taskId) } := by
  have hids : (opened.map (·.row.taskId)).Nodup := h.ids.sublist (hopened.map _)
  have hmem : ∀ entry ∈ opened, entry ∈ s.entries := fun entry hentry => hopened.subset hentry
  -- marking an entry leaves its row as it was
  have hlist : (s.beginSettling opened settler outcome).1.list = s.list := by
    simp only [Supervisor.beginSettling, Supervisor.list, List.map_map]
    refine List.map_congr_left fun entry _ => ?_
    simp only [Function.comp_apply]
    split <;> rfl
  -- a record under way is an old one, or a fresh one that tears its task down
  have hrecords : ∀ x ∈ (s.beginSettling opened settler outcome).1.settlements,
      x ∈ s.settlements ∨ ∃ entry ∈ opened,
        x = { settler, task := entry.task, row := entry.row, outcome, point := .tearingDown } := by
    intro x hx
    rcases List.mem_append.mp hx with hx | hx
    · exact Or.inl hx
    · obtain ⟨entry, hentry, rfl⟩ := List.mem_map.mp hx
      exact Or.inr ⟨entry, hentry, rfl⟩
  refine { h with
    tags := ?tags, rows := ?rows, entries := ?entries, underWay := ?underWay, marked := ?marked, taken := ?taken,
    takenOnce := ?takenOnce, called := ?called, handling := ?handling, loud := ?loud, cancelled := ?cancelled }
  case tags => rw [hlist]; exact h.tags
  case rows => rw [hlist]; exact h.rows
  case entries =>
    intro entry hentry
    obtain ⟨old, hold, rfl⟩ := List.mem_map.mp hentry
    split <;> exact h.entries old hold
  case underWay =>
    simp only [Supervisor.beginSettling, List.map_append, List.map_map]
    refine List.nodup_append.mpr ⟨h.underWay, hids, ?_⟩
    rintro a ha b hb rfl
    obtain ⟨entry, hentry, rfl⟩ := List.mem_map.mp hb
    exact (h.running (hmem entry hentry) (hrunning entry hentry)).1 ha
  case marked =>
    intro x hx
    rcases hrecords x hx with hx | ⟨entry, hentry, rfl⟩
    · obtain ⟨entry, hentry, hrow, htask, hmarked⟩ := h.marked x hx
      refine ⟨_, List.mem_map_of_mem hentry, ?_⟩
      split
      · exact ⟨hrow, htask, rfl⟩
      · exact ⟨hrow, htask, hmarked⟩
    · refine ⟨_, List.mem_map_of_mem (hmem entry hentry), ?_⟩
      have hany : (opened.any fun e => e.row.taskId == entry.row.taskId) = true :=
        List.any_eq_true.mpr ⟨entry, hentry, beq_self_eq_true _⟩
      rw [if_pos hany]
      exact ⟨rfl, rfl, rfl⟩
  case taken =>
    intro other taskId htaken
    rcases List.mem_append.mp htaken with htaken | htaken
    · refine (h.taken other taskId htaken).imp_left fun hid => ?_
      simp only [Supervisor.beginSettling, List.map_append]
      exact List.mem_append_left _ hid
    · obtain ⟨entry, hentry, heq⟩ := List.mem_map.mp htaken
      obtain ⟨-, rfl⟩ := Prod.mk.inj heq
      refine Or.inl ?_
      simp only [Supervisor.beginSettling, List.map_append, List.map_map]
      exact List.mem_append_right _ (List.mem_map.mpr ⟨entry, hentry, rfl⟩)
  case takenOnce =>
    rw [List.map_append, List.map_map]
    refine List.nodup_append.mpr ⟨h.takenOnce, hids, ?_⟩
    rintro a ha b hb rfl
    obtain ⟨entry, hentry, rfl⟩ := List.mem_map.mp hb
    exact (h.running (hmem entry hentry) (hrunning entry hentry)).2 ha
  case called =>
    intro taskId other hcalled
    refine (h.called taskId other hcalled).imp_left ?_
    rintro ⟨x, hx, hx'⟩
    exact ⟨x, List.mem_append_left _ hx, hx'⟩
  case handling =>
    intro x hx hpoint
    rcases hrecords x hx with hx | ⟨entry, -, rfl⟩
    · exact h.handling x hx hpoint
    · cases hpoint
  case loud =>
    intro x hx hpoint
    rcases hrecords x hx with hx | ⟨entry, -, rfl⟩
    · exact h.loud x hx hpoint
    · exact absurd rfl hpoint
  case cancelled =>
    intro call taskId htaken
    rcases List.mem_append.mp htaken with htaken | htaken
    · refine (h.cancelled call taskId htaken).imp_left ?_
      rintro ⟨x, hx, hx'⟩
      exact ⟨x, List.mem_append_left _ hx, hx'⟩
    · obtain ⟨entry, hentry, heq⟩ := List.mem_map.mp htaken
      obtain ⟨hsettler, rfl⟩ := Prod.mk.inj heq
      refine Or.inl ⟨_, List.mem_append_right _ (List.mem_map_of_mem hentry), rfl, ?_⟩
      exact hcancel call hsettler

/-- A settlement goes on: the others, and what it settles, stay. -/
theorem Sound.set_point (h : Sound s l) {position : Nat} {x : Settlement}
    (hx : s.settlements[position]? = some x) (point : SettlementPoint) :
    (s.settlements.set position { x with point }).map (·.row.taskId) =
        s.settlements.map (·.row.taskId) ∧
      (∀ y ∈ s.settlements.set position { x with point },
        y = { x with point } ∨ y ∈ s.settlements) ∧
      ∀ y ∈ s.settlements, y ∈ s.settlements.set position { x with point } ∨ y = x := by
  refine ⟨map_set_of_key hx rfl, fun y hy => ?_, fun y hy => ?_⟩
  · exact (List.mem_or_eq_of_mem_set hy).symm
  · by_cases hid : y.row.taskId = x.row.taskId
    · exact Or.inr (eq_of_key_eq h.underWay hy (List.mem_of_getElem? hx) hid)
    · exact Or.inl ((mem_set_iff h.underWay hx).mpr (Or.inr ⟨hy, hid⟩))

theorem mem_set_self {position : Nat} {x y : Settlement}
    (hx : s.settlements[position]? = some x) : y ∈ s.settlements.set position y :=
  List.mem_set (List.getElem?_eq_some_iff.mp hx).1 y

/-- What a settlement settles stays when it goes on. -/
theorem Sound.marked_set (h : Sound s l) {position : Nat} {x : Settlement}
    (hx : s.settlements[position]? = some x) (point : SettlementPoint) :
    ∀ y ∈ s.settlements.set position { x with point }, ∃ entry ∈ s.entries,
      entry.row = y.row ∧ entry.task = y.task ∧ entry.settling = true := by
  intro y hy
  rcases (h.set_point hx point).2.1 y hy with rfl | hy
  · exact h.marked x (List.mem_of_getElem? hx)
  · exact h.marked y hy

theorem Sound.cancelled_set (h : Sound s l) {position : Nat} {x : Settlement}
    (hx : s.settlements[position]? = some x) (point : SettlementPoint) (call : Nat)
    (taskId : BackgroundTaskId) (htaken : (.cancel call, taskId) ∈ l.taken) :
    (∃ y ∈ s.settlements.set position { x with point }, y.row.taskId = taskId ∧
      y.outcome.status = .cancelled) ∨
      ∃ row outcome, (row, outcome) ∈ l.settled ∧ row.taskId = taskId ∧
        outcome.status = .cancelled := by
  refine (h.cancelled call taskId htaken).imp_left ?_
  rintro ⟨y, hy, hid, hstatus⟩
  rcases (h.set_point hx point).2.2 y hy with hy | rfl
  · exact ⟨y, hy, hid, hstatus⟩
  · exact ⟨_, mem_set_self hx, hid, hstatus⟩

/-- A handler waits for the settlement that has called it. -/
theorem Sound.called_set (h : Sound s l) {position : Nat} {x : Settlement}
    (hx : s.settlements[position]? = some x) (hpoint : x.point ≠ .handling)
    (point : SettlementPoint) (taskId : BackgroundTaskId) (outcome : BackgroundTaskOutcome)
    (hcalled : (taskId, outcome) ∈ l.called) :
    (∃ y ∈ s.settlements.set position { x with point }, y.row.taskId = taskId ∧
      y.outcome = outcome ∧ y.point = .handling) ∨
      ∃ row, (row, outcome) ∈ l.settled ∧ row.taskId = taskId := by
  refine (h.called taskId outcome hcalled).imp_left ?_
  rintro ⟨y, hy, hid, hout, hy'⟩
  rcases (h.set_point hx point).2.2 y hy with hy | rfl
  · exact ⟨y, hy, hid, hout, hy'⟩
  · exact absurd hy' hpoint

/-- A settlement goes on to `#complete`. -/
theorem Sound.awaitHandler (h : Sound s l) {position : Nat} {x : Settlement}
    (hx : s.settlements[position]? = some x) (hpoint : x.point = .tearingDown)
    (hloud : x.task.silent = false) :
    Sound { s with settlements := s.settlements.set position { x with point := .completing } }
      l := by
  obtain ⟨hids, hback, -⟩ := h.set_point hx .completing
  refine { h with
    underWay := ?underWay, marked := h.marked_set hx .completing, taken := ?taken
    called := h.called_set hx (by rw [hpoint]; decide) .completing, handling := ?handling
    loud := ?loud, cancelled := h.cancelled_set hx .completing }
  case underWay => exact hids ▸ h.underWay
  case taken => exact hids ▸ h.taken
  case handling =>
    intro y hy hy'
    rcases hback y hy with rfl | hy
    · cases hy'
    · exact h.handling y hy hy'
  case loud =>
    intro y hy hy'
    rcases hback y hy with rfl | hy
    · exact hloud
    · exact h.loud y hy hy'

/-- **The handler of a settlement is called, with the outcome of the settlement.** -/
theorem Sound.callHandler (h : Sound s l) {position : Nat} {x : Settlement}
    (hx : s.settlements[position]? = some x) (hpoint : x.point = .completing) :
    Sound { s with settlements := s.settlements.set position { x with point := .handling } }
      { l with called := l.called ++ [(x.row.taskId, x.outcome)] } := by
  have hmem := List.mem_of_getElem? hx
  have hloud : x.task.silent = false := h.loud x hmem (by rw [hpoint]; decide)
  obtain ⟨hids, hback, -⟩ := h.set_point hx .handling
  obtain ⟨entry, hentry, hrow, htask, -⟩ := h.marked x hmem
  have hregistered : (x.task, x.row) ∈ l.registered := by
    rw [← hrow, ← htask]
    exact h.entries entry hentry
  have huncalled : x.row.taskId ∉ l.called.map (·.1) := by
    intro hcalled
    obtain ⟨⟨taskId, outcome⟩, hcalled, rfl⟩ := List.mem_map.mp hcalled
    rcases h.called _ outcome hcalled with ⟨y, hy, hid, -, hy'⟩ | ⟨row, hsettled, hid⟩
    · obtain rfl := eq_of_key_eq h.underWay hy hmem hid
      rw [hpoint] at hy'
      cases hy'
    · refine h.listed hentry (List.mem_map.mpr ⟨_, hsettled, ?_⟩)
      rw [hrow]
      exact hid
  refine { h with
    underWay := ?underWay, marked := h.marked_set hx .handling, taken := ?taken, called := ?called
    calledOnce := ?calledOnce, handling := ?handling, loud := ?loud, notSilent := ?notSilent
    settled := ?settled, cancelled := h.cancelled_set hx .handling }
  case underWay => exact hids ▸ h.underWay
  case taken => exact hids ▸ h.taken
  case called =>
    intro taskId outcome hcalled
    rcases List.mem_append.mp hcalled with hcalled | hcalled
    · exact h.called_set hx (by rw [hpoint]; decide) .handling taskId outcome hcalled
    · obtain ⟨rfl, rfl⟩ := Prod.mk.inj (List.mem_singleton.mp hcalled)
      exact Or.inl ⟨_, mem_set_self hx, rfl, rfl, rfl⟩
  case calledOnce =>
    rw [List.map_append]
    refine List.nodup_append.mpr ⟨h.calledOnce, List.nodup_singleton _, ?_⟩
    rintro a ha b hb rfl
    obtain rfl : a = x.row.taskId := by simpa using hb
    exact huncalled ha
  case handling =>
    intro y hy hy'
    rcases hback y hy with rfl | hy
    · exact List.mem_append_right _ List.mem_cons_self
    · exact List.mem_append_left _ (h.handling y hy hy')
  case loud =>
    intro y hy hy'
    rcases hback y hy with rfl | hy
    · exact hloud
    · exact h.loud y hy hy'
  case notSilent =>
    intro task row hreg hid
    rw [List.map_append, List.mem_append] at hid
    rcases hid with hid | hid
    · exact h.notSilent task row hreg hid
    · have hkeys : (l.registered.map (·.2.taskId)).Nodup := by
        have hrows := h.registered
        rwa [Ledger.rows, List.map_map] at hrows
      have hid' : row.taskId = x.row.taskId := by simpa using hid
      obtain ⟨rfl, -⟩ := Prod.mk.inj (eq_of_key_eq hkeys hreg hregistered hid')
      exact hloud
  case settled =>
    intro row outcome hsettled
    obtain ⟨task, hreg, hcalled⟩ := h.settled row outcome hsettled
    exact ⟨task, hreg, fun hloud => List.mem_append_left _ (hcalled hloud)⟩

/-- **A settlement ends: its task is removed, and the event has the outcome of the settlement.** -/
theorem Sound.remove (h : Sound s l) {position : Nat} {x : Settlement}
    (hx : s.settlements[position]? = some x) (hover : x.task.silent = true ∨ x.point = .handling)
    (completionError : Option String) :
    Sound (s.remove position x completionError).1
      { l with settled := l.settled ++ [(x.row, x.outcome)] } := by
  have hmem := List.mem_of_getElem? hx
  have herase : ∀ y, y ∈ s.settlements.eraseIdx position ↔
      y ∈ s.settlements ∧ y.row.taskId ≠ x.row.taskId := fun y => mem_eraseIdx_iff h.underWay hx
  -- every other settlement is still under way
  have hkeep : ∀ y ∈ s.settlements, y ∈ s.settlements.eraseIdx position ∨ y = x := by
    intro y hy
    by_cases hid : y.row.taskId = x.row.taskId
    · exact Or.inr (eq_of_key_eq h.underWay hy hmem hid)
    · exact Or.inl ((herase y).mpr ⟨hy, hid⟩)
  obtain ⟨entry, hentry, hrow, htask, -⟩ := h.marked x hmem
  have hunsettled : x.row.taskId ∉ l.settledIds := hrow ▸ h.listed hentry
  have hlist : (s.remove position x completionError).1.list =
      s.list.filter fun row => row.taskId != x.row.taskId := by
    rw [Supervisor.list, Supervisor.list, List.filter_map]
    rfl
  refine { h with
    tags := ?tags, rows := ?rows, entries := ?entries, settledOnce := ?settledOnce
    changes := ?changes, underWay := ?underWay, marked := ?marked, taken := ?taken
    called := ?called, handling := ?handling, loud := ?loud, settled := ?settled
    cancelled := ?cancelled }
  case tags =>
    rw [hlist]
    exact h.tags.sublist (List.filter_sublist.map _)
  case rows =>
    rw [hlist, h.rows, List.filter_filter]
    refine List.filter_congr fun row _ => ?_
    rw [Bool.eq_iff_iff, Bool.and_eq_true, bne_iff_ne, decide_eq_true_iff, decide_eq_true_iff,
      Ledger.settledIds, Ledger.settledIds, List.map_append, List.mem_append, not_or, and_comm]
    exact and_congr_right fun _ => not_congr List.mem_singleton.symm
  case entries =>
    intro other hother
    exact h.entries other (List.mem_filter.mp hother).1
  case settledOnce =>
    rw [Ledger.settledIds, List.map_append]
    refine List.nodup_append.mpr ⟨h.settledOnce, List.nodup_singleton _, ?_⟩
    rintro a ha b hb rfl
    obtain rfl : a = x.row.taskId := by simpa using hb
    exact hunsettled ha
  case changes =>
    rw [List.length_append]
    exact congrArg (· + 1) h.changes
  case underWay => exact h.underWay.sublist ((List.eraseIdx_sublist _ _).map _)
  case marked =>
    intro y hy
    obtain ⟨hy, hne⟩ := (herase y).mp hy
    obtain ⟨other, hother, heq, hother'⟩ := h.marked y hy
    refine ⟨other, List.mem_filter.mpr ⟨hother, ?_⟩, heq, hother'⟩
    rw [heq]
    exact bne_iff_ne.mpr hne
  case taken =>
    intro settler taskId htaken
    rcases h.taken settler taskId htaken with hid | hid
    · obtain ⟨y, hy, rfl⟩ := List.mem_map.mp hid
      rcases hkeep y hy with hy | rfl
      · exact Or.inl (List.mem_map_of_mem hy)
      · refine Or.inr (List.mem_map.mpr ⟨(y.row, y.outcome), ?_, rfl⟩)
        exact List.mem_append_right _ List.mem_cons_self
    · refine Or.inr ?_
      rw [Ledger.settledIds, List.map_append]
      exact List.mem_append_left _ hid
  case called =>
    intro taskId outcome hcalled
    rcases h.called taskId outcome hcalled with ⟨y, hy, hid, hout, hy'⟩ | ⟨row, hsettled, hid⟩
    · rcases hkeep y hy with hy | rfl
      · exact Or.inl ⟨y, hy, hid, hout, hy'⟩
      · exact Or.inr ⟨y.row, List.mem_append_right _ (hout ▸ List.mem_cons_self), hid⟩
    · exact Or.inr ⟨row, List.mem_append_left _ hsettled, hid⟩
  case handling =>
    intro y hy hy'
    exact h.handling y ((herase y).mp hy).1 hy'
  case loud =>
    intro y hy hy'
    exact h.loud y ((herase y).mp hy).1 hy'
  case settled =>
    intro row outcome hsettled
    rcases List.mem_append.mp hsettled with hsettled | hsettled
    · exact h.settled row outcome hsettled
    · obtain ⟨rfl, rfl⟩ := Prod.mk.inj (List.mem_singleton.mp hsettled)
      refine ⟨x.task, ?_, fun hloud => ?_⟩
      · rw [← hrow, ← htask]
        exact h.entries entry hentry
      · rcases hover with hsilent | hpoint
        · rw [hsilent] at hloud
          cases hloud
        · exact h.handling x hmem hpoint
  case cancelled =>
    intro call taskId htaken
    rcases h.cancelled call taskId htaken with ⟨y, hy, hid, hstatus⟩ | ⟨row, o, hrow, hid⟩
    · rcases hkeep y hy with hy | rfl
      · exact Or.inl ⟨y, hy, hid, hstatus⟩
      · exact Or.inr ⟨y.row, y.outcome, List.mem_append_right _ List.mem_cons_self, hid, hstatus⟩
    · exact Or.inr ⟨row, o, List.mem_append_left _ hrow, hid⟩

end Sound

end EphemeralAgent.Background
