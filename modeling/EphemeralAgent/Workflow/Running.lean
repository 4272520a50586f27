import EphemeralAgent.Workflow.Labelled
import EphemeralAgent.Workflow.Serial

/-!
# The entries that run

* `runningNodes_eq_nil_iff` — nothing runs when no entry has the status
* `ShownIn.runningLabels_length` — a settlement that is accepted closes one entry that ran
* `Interrupted.runningNodes` — an interrupt closes all of them
-/

namespace EphemeralAgent.Workflow

open EphemeralAgent.Lib

variable {X : Type} {c : WorkflowStartRequest X} {s t u : WorkflowRunInstance X}

theorem statusOf_eq_some_iff {entry : Nat} {status : NodeRunStatus} :
    s.statusOf entry = some status ↔ ∃ e, s.nodes[entry]? = some e ∧ e.status = status := by
  unfold WorkflowRunInstance.statusOf
  rw [Option.map_eq_some_iff]

theorem runningNodes_eq_nil_iff :
    s.runningNodes = [] ↔ ∀ entry, s.statusOf entry ≠ some .running := by
  unfold WorkflowRunInstance.runningNodes
  rw [List.map_eq_nil_iff, List.filter_eq_nil_iff]
  refine ⟨fun h entry hrunning => ?_, fun h e he => ?_⟩
  · obtain ⟨e, he, hstatus⟩ := statusOf_eq_some_iff.mp hrunning
    exact h e (List.mem_of_getElem? he) (by simpa using hstatus)
  · obtain ⟨entry, hentry⟩ := List.mem_iff_getElem?.mp he
    intro hstatus
    exact h entry (statusOf_eq_some_iff.mpr ⟨e, hentry, by simpa using hstatus⟩)

theorem runningLabels_eq_nil_iff : s.runningLabels = [] ↔ s.runningNodes = [] :=
  List.map_eq_nil_iff

theorem mem_runningLabels {entry : Nat} {e : WorkflowNodeRunEntry} (he : s.nodes[entry]? = some e)
    (hrunning : e.status = .running) : e.metadata ∈ s.runningLabels := by
  rw [runningLabels_eq]
  exact List.mem_map_of_mem
    (List.mem_filter.mpr ⟨List.mem_of_getElem? he, by simpa using hrunning⟩)

theorem ShownIn.runningLabels_length {sh : Shown X} (h : ShownIn s sh) :
    sh.closed.runningLabels.length + 1 = s.runningLabels.length := by
  obtain ⟨e, he, hrunning⟩ := h.running
  obtain ⟨clock, events, close, hclosed, hclose⟩ := h.closed
  obtain ⟨hlt, hget⟩ := List.getElem?_eq_some_iff.mp he
  obtain ⟨before, x, after, hnodes, hlength, hmodify⟩ := List.exists_of_modify close hlt
  have hx : x = e := by
    rw [hnodes, List.getElem?_append_right (by omega), hlength, Nat.sub_self] at he
    exact Option.some.inj he
  subst hx
  have hclosedStatus : (close x).status ≠ .running := by
    rw [(hclose x).1]
    exact h.closes
  rw [hclosed, runningLabels_eq, runningLabels_eq]
  simp only [hmodify]
  rw [hnodes, List.filter_append, List.filter_append, List.filter_cons_of_neg (by simpa),
    List.filter_cons_of_pos (by simpa)]
  simp only [List.length_map, List.length_append, List.length_cons]
  omega

/-- An interrupt leaves nothing running that it has found. -/
theorem Interrupted.runningNodes {reason : String} {running : List Nat} {state : WorkflowState X}
    {r : Except Fault Unit} (h : Interrupted reason running state s r t)
    (hall : ∀ entry, s.statusOf entry = some .running → entry ∈ running) : t.runningNodes = [] := by
  rw [runningNodes_eq_nil_iff]
  intro entry hstatus
  rw [h.statusOf] at hstatus
  split at hstatus
  · obtain ⟨e, -, hcancelled⟩ := Option.map_eq_some_iff.mp hstatus
    cases hcancelled
  · next hnot => exact hnot (hall entry hstatus)

end EphemeralAgent.Workflow
