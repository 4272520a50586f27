import EphemeralAgent.Workflow.Handles

/-!
# What nodes are launched with

An implementation launches only what its `dispatch` returns, with the metadata and the outcome
contract that `dispatch` gives.  So what holds of every dispatch holds of every node, and a
settlement that is shown carries the metadata of its node.

* `Labelled`, `labelled_of_run` — nodes, dispatches still to be launched and queued settlements
* `Labelled.of_shown` — where a settlement that is shown comes from
-/

namespace EphemeralAgent.Workflow

open EphemeralAgent.Lib

variable {X : Type} {c : WorkflowStartRequest X} {s t u : WorkflowRunInstance X}

/-- The start and the metadata that a dispatch gives its node. -/
def labelOf (next : WorkflowNodeDispatch) : NodeStartSpec × Option JsonObject :=
  (next.start, next.metadata)

/-- Every node meets `p`, and so does every dispatch that is still to be launched; settlements in
the queue carry the metadata of their node. -/
structure Labelled (p : NodeStartSpec × Option JsonObject → Prop) (s : WorkflowRunInstance X) :
    Prop where
  nodes : ∀ label ∈ s.labels, p label
  frames : ∀ flow, ∀ frame ∈ s.frames flow, ∀ next ∈ frame.remaining, p (labelOf next)
  queue : ∀ index settlement, .settle index settlement ∈ s.queue →
    s.labels[index]?.map (·.2) = some settlement.metadata

/-- The implementation dispatches nothing else. -/
def Dispatches (c : WorkflowStartRequest X) (p : NodeStartSpec × Option JsonObject → Prop) : Prop :=
  ∀ stamp state runtime dispatches,
    c.implementation.dispatch stamp c.definition state runtime = .ok dispatches →
      ∀ next ∈ dispatches, p (labelOf next)

theorem labelled_initial (p : NodeStartSpec × Option JsonObject → Prop) :
    Labelled p (initial : WorkflowRunInstance X) := by
  refine ⟨fun label hlabel => ?_, fun flow frame hframe => ?_, fun index settlement hmem => ?_⟩
  · cases hlabel
  · cases flow <;> cases hframe
  · cases hmem

theorem framesLeft_remaining {frames frames' : List Frame} (h : FramesLeft frames frames')
    {p : WorkflowNodeDispatch → Prop} (hp : ∀ frame ∈ frames, ∀ next ∈ frame.remaining, p next) :
    ∀ frame ∈ frames', ∀ next ∈ frame.remaining, p next := by
  cases h with
  | same => exact hp
  | dropped => simp
  | resolved entry remaining outer =>
    intro frame hframe next hnext
    rcases List.mem_cons.mp hframe with rfl | hframe
    · exact hp _ List.mem_cons_self next hnext
    · exact hp frame (List.mem_cons_of_mem _ hframe) next hnext
  | popped outer => exact fun frame hframe => hp frame (List.mem_cons_of_mem _ hframe)

theorem framesTo_remaining {flow : FlowId} {frames : List Frame} (h : FramesTo flow frames s t)
    {p : WorkflowNodeDispatch → Prop}
    (hs : ∀ flow, ∀ frame ∈ s.frames flow, ∀ next ∈ frame.remaining, p next)
    (hframes : ∀ frame ∈ frames, ∀ next ∈ frame.remaining, p next) :
    ∀ flow, ∀ frame ∈ t.frames flow, ∀ next ∈ frame.remaining, p next := by
  intro other
  by_cases hother : other = flow
  · subst hother
    rw [h.1]
    exact hframes
  · rw [h.2 other hother]
    exact hs other

section Labelled

variable {p : NodeStartSpec × Option JsonObject → Prop}

/-- The queue keeps its settlements in order while entries are only added. -/
theorem Labelled.queued (h : Labelled p s) (hqueue : QueuedFrom s t)
    {more : List (NodeStartSpec × Option JsonObject)} (hlabels : t.labels = s.labels ++ more) :
    ∀ index settlement, .settle index settlement ∈ t.queue →
      t.labels[index]?.map (·.2) = some settlement.metadata := by
  intro index settlement hmem
  have hs : s.labels[index]?.map (·.2) = some settlement.metadata := by
    rcases hqueue index settlement hmem with hmem | ⟨entry, hentry, -, hmetadata⟩
    · exact h.queue index settlement hmem
    · simp [WorkflowRunInstance.labels, hentry, hmetadata]
  obtain ⟨label, hlabel, hmetadata⟩ := Option.map_eq_some_iff.mp hs
  have hlt : index < s.labels.length := (List.getElem?_eq_some_iff.mp hlabel).1
  rw [hlabels, List.getElem?_append_left hlt, hs]

/-- What the code after a snapshot adds to the entries and leaves to launch. -/
theorem Ended.labelled (hdispatches : Dispatches c p) {state : WorkflowState X}
    {r : Except Fault (Option Frame)} (h : Ended c state s r t) :
    (∃ more, t.labels = s.labels ++ more ∧ ∀ label ∈ more, p label) ∧
      ∀ (outer : List Frame),
        (∀ frame ∈ outer, ∀ next ∈ frame.remaining, p (labelOf next)) →
        ∀ frame ∈ callFrames r outer, ∀ next ∈ frame.remaining, p (labelOf next) := by
  have hnothing : (r = .ok none ∨ ∃ fault, r = .error fault) → ∀ (outer : List Frame),
      (∀ frame ∈ outer, ∀ next ∈ frame.remaining, p (labelOf next)) →
      ∀ frame ∈ callFrames r outer, ∀ next ∈ frame.remaining, p (labelOf next) := by
    rintro (rfl | ⟨fault, rfl⟩) outer houter
    · exact houter
    · simp [callFrames]
  cases h with
  | quiet _ hnodes hr =>
    exact ⟨⟨[], by simp [labels_of_nodes hnodes]⟩, hnothing hr⟩
  | deadlocked _ _ _ _ _ _ _ _ hnodes hr =>
    exact ⟨⟨[], by simp [labels_of_nodes hnodes]⟩, hnothing hr⟩
  | launched _ stamp runtime _ first rest hdispatch startedAt _ hnodes hr =>
    have hall := hdispatches _ _ _ _ hdispatch
    refine ⟨⟨_, labels_launched hnodes, ?_⟩, fun outer houter frame hframe next hnext => ?_⟩
    · intro label hlabel
      obtain rfl := List.mem_singleton.mp hlabel
      exact hall first List.mem_cons_self
    · subst hr
      rcases List.mem_cons.mp hframe with rfl | hframe
      · exact hall next (List.mem_cons_of_mem _ hnext)
      · exact houter frame hframe next hnext

/-- What the runtime adds with an accepted settlement. -/
theorem Applied.labelled (hdispatches : Dispatches c p) {entry : Nat}
    {settlement : WorkflowNodeSettlement} {state : WorkflowState X}
    {r : Except Fault (Option Frame)} (h : Applied c entry settlement state s r t) :
    (∃ more, t.labels = s.labels ++ more ∧ ∀ label ∈ more, p label) ∧
      ∀ (outer : List Frame),
        (∀ frame ∈ outer, ∀ next ∈ frame.remaining, p (labelOf next)) →
        ∀ frame ∈ callFrames r outer, ∀ next ∈ frame.remaining, p (labelOf next) := by
  cases h with
  | applyThrew => exact ⟨⟨[], by simp [WorkflowRunInstance.labels]⟩, by simp [callFrames]⟩
  | evaluateThrew => exact ⟨⟨[], by simp [WorkflowRunInstance.labels]⟩, by simp [callFrames]⟩
  | evaluated _ _ _ _ _ _ _ _ _ _ _ _ ht => exact ht.ended.labelled hdispatches

theorem labelled_step (hdispatches : Dispatches c p) {l : Label} (hwell : WellStarted s)
    (h : Labelled p s) (hstep : step c s l = some t) : Labelled p t := by
  have hqueue := queue_step hwell hstep
  have hadd : ∀ more, t.labels = s.labels ++ more → (∀ label ∈ more, p label) →
      (∀ flow, ∀ frame ∈ t.frames flow, ∀ next ∈ frame.remaining, p (labelOf next)) →
        Labelled p t := by
    intro more hlabels hmore hframes
    refine ⟨fun label hlabel => ?_, hframes, h.queued hqueue hlabels⟩
    rw [hlabels] at hlabel
    rcases List.mem_append.mp hlabel with hlabel | hlabel
    · exact h.nodes label hlabel
    · exact hmore label hlabel
  cases stepped_of_step hwell hstep with
  | control faults hfaults ht hframes =>
    exact hadd [] (by rw [ht.labels, List.append_nil]) (by simp) fun flow =>
      framesLeft_remaining (hframes flow) (h.frames flow)
  | started hidle r u _ hu ht hcall =>
    cases hu with
    | threw message clock =>
      exact hadd [] (by rw [ht.labels, List.append_nil]; rfl) (by simp)
        (framesTo_remaining hcall h.frames (by simp [callFrames]))
    | created state hcreate clock events _ _ hu =>
      obtain ⟨⟨more, hmore, hp⟩, hframes⟩ := hu.ended.labelled hdispatches
      exact hadd more (ht.labels.trans hmore) hp
        (framesTo_remaining hcall h.frames (hframes [] (by simp)))
  | launched flow next rest outer hframes clock startedAt ht hcall =>
    have hremaining := h.frames flow _ (hframes ▸ List.mem_cons_self)
    refine hadd [labelOf next] ?_ ?_ (framesTo_remaining hcall h.frames ?_)
    · rw [ht.labels]
      simp [WorkflowRunInstance.labels, labelOf]
    · intro label hlabel
      obtain rfl := List.mem_singleton.mp hlabel
      exact hremaining next List.mem_cons_self
    · intro frame hframe other hother
      rcases List.mem_cons.mp hframe with rfl | hframe
      · exact hremaining other (List.mem_cons_of_mem _ hother)
      · exact h.frames flow frame (hframes ▸ List.mem_cons_of_mem _ hframe) other hother
  | settled sh hshown state hstate hverdict r u _ hu ht flow outer hcalls hcall =>
    obtain ⟨queue, hin⟩ := shownIn_of_shown hshown
    obtain ⟨⟨more, hmore, hp⟩, hframes⟩ := hu.labelled hdispatches
    refine hadd more ?_ hp (framesTo_remaining hcall h.frames (hframes outer ?_))
    · rw [ht.labels, hmore, hin.labels]
      rfl
    · cases hcalls with
      | queued => simp
      | rejected _ reason remaining outer hframes =>
        exact framesLeft_remaining (hframes ▸ .resolved sh.entry remaining outer) (h.frames flow)
  | interrupted reason running hactive state hstate r u _ hu ht hcall =>
    exact hadd [] (by rw [ht.labels, hu.view.2.1, List.append_nil]) (by simp)
      (framesTo_remaining hcall h.frames (by simp))

theorem labelled_of_run (hdispatches : Dispatches c p) {ok : WorkflowRunInstance X → Label → Prop}
    {ls : List Label} (run : Run (step c) ok initial ls s) : Labelled p s :=
  run.invariant_of wellStarted_of_run (labelled_initial p)
    fun _ _ _ _ hwell h hstep => labelled_step hdispatches hwell h hstep

/-- A settlement that is shown is one of its node: it carries the metadata of the node, and an
outcome is a value of the node's contract. -/
theorem Labelled.of_shown {l : Label} {sh : Shown X} (h : Labelled p s)
    (hshown : shown s l = some sh) :
    ∃ entry, s.nodes[sh.entry]? = some entry ∧ entry.status = .running ∧
      p (entry.start, entry.metadata) ∧ sh.settlement.metadata = entry.metadata ∧
      ∀ accepted, sh.settlement = .completed accepted →
        ∃ payload, entry.start.outcome.safeParse payload = .ok accepted.outcome := by
  obtain ⟨entry, hentry, hrunning, hfrom⟩ := shown_settlement hshown
  have hlabel : s.labels[sh.entry]? = some (entry.start, entry.metadata) := by
    simp [WorkflowRunInstance.labels, hentry]
  refine ⟨entry, hentry, hrunning, h.nodes _ (List.mem_of_getElem? hlabel), ?_, ?_⟩
  · rcases hfrom with ⟨payload, outcome, -, heq⟩ | ⟨-, heq | hqueued⟩
    · rw [heq]
      rfl
    · exact heq
    · have := h.queue _ _ hqueued
      rw [hlabel] at this
      exact (Option.some.inj this).symm
  · intro accepted haccepted
    rcases hfrom with ⟨payload, outcome, hparse, heq⟩ | ⟨hstatus, -⟩
    · rw [heq] at haccepted
      cases haccepted
      exact ⟨payload, hparse⟩
    · rw [haccepted] at hstatus
      exact absurd rfl hstatus

end Labelled

end EphemeralAgent.Workflow
