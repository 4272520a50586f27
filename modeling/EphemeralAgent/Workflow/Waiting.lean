import EphemeralAgent.Workflow.Handles
import EphemeralAgent.Workflow.Interrupt

/-!
# What a run waits for

A run that goes on waits for the nodes it lists as running.  So a node that has ended must leave
the list; the monitor hands its end to the queue, and the queue hands it to the implementation,
which may refuse it.

* `closes_iff_accepted` — the queued end of a node closes its entry exactly when it is accepted
* `Followed`, `followed_of_run` — a node that runs is launched, observed, or its end is queued
* `Busy`, `busy_of_run` — an unfinished run has a node that runs
* `no_zombie` — so no end is missed while every one of them is accepted
* `zombie` — a refused end leaves its node running for good
-/

namespace EphemeralAgent.Workflow

open EphemeralAgent.Lib

variable {X : Type} {c : WorkflowStartRequest X} {s t u : WorkflowRunInstance X}

/-! ## One settlement -/

theorem accepts_of_unaccepted {l : Label} (h : Unaccepted c s l) : accepts c s l = false := by
  unfold accepts
  cases hshown : shown s l with
  | none => rfl
  | some sh =>
    cases hstate : s.state with
    | none => rfl
    | some state =>
      simp only
      split
      · next hverdict => exact absurd hverdict (h sh state hshown hstate)
      · rfl

/-- What an accepted settlement closes. -/
theorem closed_of_accepts {l : Label} {sh : Shown X} (h : Stepped c s l t)
    (hshown : shown s l = some sh) (haccepts : accepts c s l = true) :
    Closed t sh.entry sh.settlement.status := by
  cases h with
  | control _ _ _ _ hunaccepted =>
    rw [accepts_of_unaccepted hunaccepted] at haccepts
    cases haccepts
  | settled sh' hsh' state hstate hverdict r u _ hu ht =>
    obtain rfl := Option.some.inj (hshown.symm.trans hsh')
    obtain ⟨queue, hin⟩ := shownIn_of_shown hshown
    obtain ⟨⟨hstatus, hne⟩, -⟩ := hu.closed hin
    exact ⟨(ht.statusOf _).trans hstatus, hne⟩
  | started => cases hshown
  | launched => cases hshown
  | interrupted => cases hshown

/-- The settlement at the head of the queue, if it gets as far as the implementation. -/
theorem shown_of_settle {index : Nat} {settlement : WorkflowNodeSettlement}
    {rest : List Operation} {sh : Shown X} (hqueue : s.queue = .settle index settlement :: rest)
    (hshown : shown s .dequeue = some sh) : sh.entry = index := by
  unfold shown at hshown
  simp only [hqueue] at hshown
  split at hshown
  · next heq => cases heq
  · next heq =>
    obtain ⟨⟨rfl, rfl⟩, rfl⟩ := by simpa using heq
    obtain ⟨entry, -, hsh⟩ := Option.bind_eq_some_iff.mp hshown
    exact shownSettlement_entry hsh
  · cases hshown

/-- **The end of a node closes its entry exactly when it is accepted**, unless the entry was
closed before. -/
theorem closes_iff_accepted {ls : List Label} {index : Nat} {settlement : WorkflowNodeSettlement}
    {rest : List Operation} (run : Run (step c) Free initial ls s)
    (hqueue : s.queue = .settle index settlement :: rest) (hstep : step c s .dequeue = some t) :
    t.statusOf index ≠ some .running ↔
      s.statusOf index ≠ some .running ∨ accepts c s .dequeue = true := by
  cases stepped_of_step (wellStarted_of_run run) hstep with
  | control _ _ ht _ hunaccepted =>
    rw [ht.statusOf, accepts_of_unaccepted hunaccepted]
    simp
  | settled sh hshown state hstate hverdict r u _ hu ht =>
    obtain ⟨queue, hin⟩ := shownIn_of_shown hshown
    have haccepts := accepts_of_shown hshown hstate hverdict
    have hclosed := (hu.closed hin).1
    rw [shown_of_settle hqueue hshown] at hclosed
    refine iff_of_true (fun hrunning => hclosed.2 ?_) (.inr haccepts)
    rw [ht.statusOf] at hrunning
    exact Option.some.inj (hclosed.1.symm.trans hrunning)

/-! ## What is heard of a node -/

/-- The ends of nodes are heard: none of them is refused, and a handle settles as completed only
when its entry is closed. -/
def heard (c : WorkflowStartRequest X) (s : WorkflowRunInstance X) (l : Label) : Bool :=
  match l, shown s l with
  | .nodeSettled index (.completed _), _ => s.statusOf index ≠ some .running
  | _, some sh => sh.settlement.status = .completed || accepts c s l
  | _, none => true

/-- `heard` as a condition on the steps of a run. -/
def Heard (c : WorkflowStartRequest X) (s : WorkflowRunInstance X) (l : Label) : Prop :=
  heard c s l = true

instance (s : WorkflowRunInstance X) (l : Label) : Decidable (Heard c s l) :=
  inferInstanceAs (Decidable (heard c s l = true))

theorem Heard.accepts {l : Label} {sh : Shown X} (h : Heard c s l) (hshown : shown s l = some sh)
    (hstatus : sh.settlement.status ≠ .completed) : accepts c s l = true := by
  unfold Heard heard at h
  rw [hshown] at h
  split at h
  · cases hshown
  · next sh' heq =>
    obtain rfl := Option.some.inj heq
    simpa [hstatus] using h
  · next heq => cases heq

theorem Heard.completed {index : Nat} {outcome : NodeOutcome}
    (h : Heard c s (.nodeSettled index (.completed outcome))) :
    s.statusOf index ≠ some .running := by
  simpa [Heard, heard] using h

/-- A thread waits for the launch of this entry. -/
def Awaits (s : WorkflowRunInstance X) (flow : FlowId) (index : Nat) : Prop :=
  ∃ remaining outer, s.frames flow = { awaiting := some index, remaining } :: outer

/-- The end of the node is queued. -/
def EndQueued (s : WorkflowRunInstance X) (index : Nat) : Prop :=
  ∃ settlement, .settle index settlement ∈ s.queue ∧ settlement.status ≠ .completed

/-- Only the innermost call of a thread waits for a launch, no two wait for the same one, and
what is waited for has no handle yet. -/
structure Launching (s : WorkflowRunInstance X) : Prop where
  handle : ∀ flow index, Awaits s flow index → s.handles[index]? = some (false, false)
  outer : ∀ flow frame outer, s.frames flow = frame :: outer → ∀ below ∈ outer, below.awaiting = none
  apart : ∀ flow flow' index, Awaits s flow index → Awaits s flow' index → flow = flow'

/-- A node that runs is launched, observed, or its end is queued. -/
structure Followed (s : WorkflowRunInstance X) : Prop extends Launching s where
  running : ∀ index, s.statusOf index = some .running →
    (∃ flow, Awaits s flow index) ∨ s.handles[index]? = some (true, false) ∨ EndQueued s index

theorem followed_initial : Followed (initial : WorkflowRunInstance X) := by
  have hframes : ∀ flow, (initial : WorkflowRunInstance X).frames flow = [] := by
    intro flow
    cases flow <;> rfl
  refine ⟨⟨?_, ?_, ?_⟩, ?_⟩
  · rintro flow index ⟨remaining, outer, h⟩
    simp [hframes] at h
  · intro flow frame outer h
    simp [hframes] at h
  · rintro flow flow' index ⟨remaining, outer, h⟩
    simp [hframes] at h
  · intro index h
    cases h

/-! ### Launches -/

/-- A thread goes on waiting for a launch until it is told how the launch went. -/
theorem awaits_step {l : Label} {flow : FlowId} {index : Nat} (hstep : step c s l = some t)
    (h : Stepped c s l t) (ha : Awaits s flow index) :
    Awaits t flow index ∨ l = .launchResolved flow ∨ ∃ reason, l = .launchRejected flow reason := by
  obtain ⟨remaining, outer, hframes⟩ := ha
  have hsame : t.frames flow = s.frames flow → Awaits t flow index :=
    fun heq => ⟨remaining, outer, heq.trans hframes⟩
  have hother : ∀ {flow' frames}, FramesTo flow' frames s t → flow ≠ flow' → Awaits t flow index :=
    fun hcall hne => hsame (hcall.2 flow hne)
  cases h with
  | control _ _ _ _ _ hkept =>
    by_cases hl : l.continues flow
    · rcases hl with rfl | ⟨reason, rfl⟩ | rfl
      · exact .inr (.inl rfl)
      · exact .inr (.inr ⟨reason, rfl⟩)
      · simp [step, hframes] at hstep
    · exact .inl (hsame (hkept flow hl))
  | started hidle _ _ _ _ _ hcall =>
    refine .inl (hother hcall fun heq => ?_)
    subst heq
    simp [WorkflowRunInstance.frames, hidle] at hframes
  | launched flow' next rest outer' hframes' _ _ _ hcall =>
    refine .inl (hother hcall fun heq => ?_)
    subst heq
    simp [hframes] at hframes'
  | settled sh _ _ _ _ _ _ _ _ _ flow' outer' hcalls hcall =>
    cases hcalls with
    | rejected _ reason _ _ _ =>
      by_cases heq : flow = flow'
      · exact .inr (.inr ⟨reason, by rw [heq]⟩)
      · exact .inl (hother hcall heq)
    | queued hactive =>
      refine .inl (hother hcall fun heq => ?_)
      subst heq
      simp [WorkflowRunInstance.frames, hactive] at hframes
  | interrupted reason running hactive _ _ _ _ _ _ _ hcall =>
    refine .inl (hother hcall fun heq => ?_)
    subst heq
    simp [WorkflowRunInstance.frames, hactive] at hframes

/-- Handles stay as they are where entries are only added. -/
theorem HandlesKept.get (h : HandlesKept s t) {index : Nat} {handle : Bool × Bool}
    (hs : s.handles[index]? = some handle) : t.handles[index]? = some handle := by
  obtain ⟨count, hcount⟩ := h
  rw [hcount, List.getElem?_append_left (List.getElem?_eq_some_iff.mp hs).1, hs]

theorem HandlesKept.fresh (h : HandlesKept s t) {index : Nat} (hle : s.nodes.length ≤ index)
    (hlt : index < t.nodes.length) : t.handles[index]? = some (false, false) := by
  obtain ⟨count, hcount⟩ := h
  have hlength : s.handles.length = s.nodes.length := List.length_map _
  have htlength : t.handles.length = t.nodes.length := List.length_map _
  have hget : index - s.handles.length < count := by
    have := congrArg List.length hcount
    rw [List.length_append, List.length_replicate] at this
    omega
  rw [hcount, List.getElem?_append_right (by omega), List.getElem?_replicate, if_pos hget]

/-- The suspended calls that a call leaves: none of them waits, or the first one waits for the
entry that was just added. -/
inductive CallFrames (s t : WorkflowRunInstance X) : List Frame → Prop
  | settled (frames : List Frame) (h : ∀ frame ∈ frames, frame.awaiting = none) :
      CallFrames s t frames
  | launched (remaining : List WorkflowNodeDispatch) (outer : List Frame)
      (h : ∀ frame ∈ outer, frame.awaiting = none) (hlt : s.nodes.length < t.nodes.length) :
      CallFrames s t ({ awaiting := some s.nodes.length, remaining } :: outer)

theorem CallFrames.outer {frame : Frame} {outer : List Frame} (h : CallFrames s t (frame :: outer)) :
    ∀ below ∈ outer, below.awaiting = none := by
  cases h with
  | settled _ h => exact fun below hbelow => h below (List.mem_cons_of_mem _ hbelow)
  | launched _ _ h => exact h

theorem CallFrames.awaits {index : Nat} {remaining : List WorkflowNodeDispatch}
    {outer : List Frame} (h : CallFrames s t ({ awaiting := some index, remaining } :: outer)) :
    index = s.nodes.length ∧ s.nodes.length < t.nodes.length := by
  cases h with
  | settled _ h => simp at h
  | launched _ _ _ hlt => exact ⟨rfl, hlt⟩

/-- A call of one thread. -/
theorem Launching.call {flow : FlowId} {frames : List Frame} (h : Launching s)
    (hhandles : HandlesKept s t) (hcall : FramesTo flow frames s t)
    (hframes : CallFrames s t frames) : Launching t := by
  have hsame : ∀ {other index}, other ≠ flow → Awaits t other index → Awaits s other index := by
    rintro other index hother ⟨remaining, outer, ht⟩
    exact ⟨remaining, outer, (hcall.2 other hother) ▸ ht⟩
  have hnew : ∀ {index}, Awaits t flow index →
      index = s.nodes.length ∧ s.nodes.length < t.nodes.length := by
    rintro index ⟨remaining, outer, ht⟩
    rw [hcall.1] at ht
    exact (ht ▸ hframes).awaits
  have hold : ∀ {other index}, Awaits s other index → index < s.nodes.length := by
    intro other index ha
    have := (List.getElem?_eq_some_iff.mp (h.handle other index ha)).1
    rwa [WorkflowRunInstance.handles, List.length_map] at this
  refine ⟨fun other index ha => ?_, fun other frame outer ht => ?_, fun flow₁ flow₂ index h₁ h₂ => ?_⟩
  · by_cases hother : other = flow
    · subst hother
      obtain ⟨rfl, hlt⟩ := hnew ha
      exact hhandles.fresh (le_refl _) hlt
    · exact hhandles.get (h.handle other index (hsame hother ha))
  · by_cases hother : other = flow
    · subst hother
      rw [hcall.1] at ht
      exact (ht ▸ hframes).outer
    · exact h.outer other frame outer ((hcall.2 other hother) ▸ ht)
  · by_cases hf₁ : flow₁ = flow <;> by_cases hf₂ : flow₂ = flow
    · rw [hf₁, hf₂]
    · subst hf₁
      have := hold (hsame hf₂ h₂)
      have := (hnew h₁).1
      omega
    · subst hf₂
      have := hold (hsame hf₁ h₁)
      have := (hnew h₂).1
      omega
    · exact h.apart flow₁ flow₂ index (hsame hf₁ h₁) (hsame hf₂ h₂)

theorem Ended.callFrames {state : WorkflowState X} {r : Except Fault (Option Frame)}
    {v : WorkflowRunInstance X} {outer : List Frame} (h : Ended c state u r v)
    (hs : u.nodes.length = s.nodes.length) (ht : t.nodes.length = v.nodes.length)
    (houter : ∀ frame ∈ outer, frame.awaiting = none) : CallFrames s t (callFrames r outer) := by
  have hnothing : (r = .ok none ∨ ∃ fault, r = .error fault) →
      CallFrames s t (Workflow.callFrames r outer) := by
    rintro (rfl | ⟨fault, rfl⟩)
    · exact .settled _ houter
    · exact .settled _ (by simp [Workflow.callFrames])
  cases h with
  | quiet _ _ hr => exact hnothing hr
  | deadlocked _ _ _ _ _ _ _ _ _ hr => exact hnothing hr
  | launched _ _ _ _ _ rest _ _ _ hnodes hr =>
    have hlength := congrArg List.length hnodes
    rw [List.length_append, List.length_singleton] at hlength
    subst hr
    rw [hs] at hlength ⊢
    exact .launched rest outer houter (by omega)

theorem Applied.callFrames {entry : Nat} {settlement : WorkflowNodeSettlement}
    {state : WorkflowState X} {r : Except Fault (Option Frame)} {v : WorkflowRunInstance X}
    {outer : List Frame} (h : Applied c entry settlement state u r v)
    (hs : u.nodes.length = s.nodes.length) (ht : t.nodes.length = v.nodes.length)
    (houter : ∀ frame ∈ outer, frame.awaiting = none) : CallFrames s t (callFrames r outer) := by
  cases h with
  | applyThrew => exact .settled _ (by simp [Workflow.callFrames])
  | evaluateThrew => exact .settled _ (by simp [Workflow.callFrames])
  | evaluated _ _ _ _ _ _ _ _ _ _ _ _ hv => exact hv.ended.callFrames hs ht houter

theorem Control.length {faults : List Fault} (h : Control faults s t) :
    t.nodes.length = s.nodes.length := by
  have := congrArg List.length h.nodes
  rwa [List.length_map, List.length_map] at this

theorem ShownIn.length {sh : Shown X} (h : ShownIn s sh) :
    sh.closed.nodes.length = s.nodes.length := by
  obtain ⟨_, _, close, hclosed, -⟩ := h.closed
  rw [hclosed]
  exact List.length_modify _ _ _

/-- Between two launches a thread waits for nothing new. -/
theorem framesLeft_awaits {frames frames' outer : List Frame} {index : Nat}
    {remaining : List WorkflowNodeDispatch} (h : FramesLeft frames frames')
    (houter : ∀ frame outer, frames = frame :: outer → ∀ below ∈ outer, below.awaiting = none)
    (hframes : frames' = { awaiting := some index, remaining } :: outer) : frames = frames' := by
  cases h with
  | same => rfl
  | dropped => cases hframes
  | resolved => cases hframes
  | popped =>
    subst hframes
    have := houter _ _ rfl { awaiting := some index, remaining } List.mem_cons_self
    cases this

theorem framesLeft_outer {frames frames' outer : List Frame} {frame : Frame}
    (h : FramesLeft frames frames')
    (houter : ∀ frame outer, frames = frame :: outer → ∀ below ∈ outer, below.awaiting = none)
    (hframes : frames' = frame :: outer) : ∀ below ∈ outer, below.awaiting = none := by
  cases h with
  | same => exact houter frame outer hframes
  | dropped => cases hframes
  | resolved entry remaining rest =>
    cases hframes
    exact houter _ _ rfl
  | popped =>
    subst hframes
    exact fun below hbelow => houter _ _ rfl below (List.mem_cons_of_mem _ hbelow)

/-- A step leaves the suspended calls to control, or it is a call of one thread. -/
theorem callFrames_step {l : Label} (h : Launching s) (hsur : Surroundings s l t)
    (hstep : Stepped c s l t) :
    ((∃ faults, Control faults s t) ∧ ∀ flow, FramesLeft (s.frames flow) (t.frames flow)) ∨
      ∃ flow frames, FramesTo flow frames s t ∧ CallFrames s t frames ∧ HandlesKept s t ∧
        ∀ other, l.continues other → other = flow := by
  cases hstep with
  | control faults _ ht hleft => exact .inl ⟨⟨faults, ht⟩, hleft⟩
  | started hidle r u _ hu ht hcall =>
    cases hsur with
    | kept _ hhandles =>
      refine .inr ⟨_, _, hcall, ?_, hhandles, by simp [Label.continues]⟩
      cases hu with
      | threw => exact .settled _ (by simp [Workflow.callFrames])
      | created _ _ _ _ _ _ hu => exact hu.ended.callFrames rfl ht.length (by simp)
  | launched flow next rest outer hframes _ _ ht hcall =>
    cases hsur with
    | kept _ hhandles =>
      refine .inr ⟨flow, _, hcall, .launched rest outer (h.outer flow _ outer hframes) ?_, hhandles,
        by simp [Label.continues]⟩
      rw [ht.length]
      simp
  | settled sh hshown _ _ _ r u _ hu ht flow outer hcalls hcall =>
    obtain ⟨queue, hin⟩ := shownIn_of_shown hshown
    cases hcalls with
    | rejected _ reason remaining outer hframes =>
      cases hsur with
      | kept _ hhandles =>
        refine .inr ⟨flow, _, hcall, hu.callFrames hin.length ht.length fun frame hframe => ?_,
          hhandles, by simp [Label.continues]⟩
        rcases List.mem_cons.mp hframe with rfl | hframe
        · rfl
        · exact h.outer flow _ outer hframes frame hframe
    | queued =>
      cases hsur with
      | kept hl => cases hl
      | taken _ hhandles =>
        exact .inr ⟨_, _, hcall, hu.callFrames hin.length ht.length (by simp), hhandles,
          by simp [Label.continues]⟩
  | interrupted _ _ _ _ _ _ _ _ _ _ hcall =>
    cases hsur with
    | kept _ hhandles =>
      exact .inr ⟨_, _, hcall, .settled _ (by simp), hhandles, by simp [Label.continues]⟩

/-- Control waits for nothing new. -/
theorem Launching.left {flow : FlowId} {index : Nat} (h : Launching s)
    (hleft : ∀ flow, FramesLeft (s.frames flow) (t.frames flow)) (ha : Awaits t flow index) :
    Awaits s flow index := by
  obtain ⟨remaining, outer, hframes⟩ := ha
  have heq := framesLeft_awaits (hleft flow) (h.outer flow) hframes
  exact ⟨remaining, outer, heq.trans hframes⟩

/-- A thread that waits for a launch waited for it before, or the entry is new. -/
theorem awaits_before {l : Label} {flow : FlowId} {index : Nat} (h : Launching s)
    (hsur : Surroundings s l t) (hstep : Stepped c s l t) (ha : Awaits t flow index) :
    Awaits s flow index ∨ index = s.nodes.length := by
  rcases callFrames_step h hsur hstep with ⟨-, hleft⟩ | ⟨flow', frames, hcall, hframes, -⟩
  · exact .inl (h.left hleft ha)
  · obtain ⟨remaining, outer, ht⟩ := ha
    by_cases hflow : flow = flow'
    · subst hflow
      rw [hcall.1] at ht
      exact .inr (ht ▸ hframes).awaits.1
    · exact .inl ⟨remaining, outer, (hcall.2 flow hflow) ▸ ht⟩

/-- An entry that is closed because its launch has thrown is not waited for any more. -/
theorem not_awaits_of_rejected {flow : FlowId} {reason : String} {index : Nat} (h : Launching s)
    (hsur : Surroundings s (.launchRejected flow reason) t)
    (hstep : Stepped c s (.launchRejected flow reason) t) (ha : Awaits s flow index)
    (hchanged : t.statusOf index ≠ s.statusOf index) (flow' : FlowId) : ¬ Awaits t flow' index := by
  intro ht
  rcases callFrames_step h hsur hstep with ⟨⟨_, hc⟩, -⟩ | ⟨called, frames, hcall, hframes, -, heq⟩
  · exact hchanged (hc.statusOf index)
  · obtain rfl := heq flow (.inr (.inl ⟨reason, rfl⟩))
    obtain ⟨remaining, outer, ht⟩ := ht
    by_cases hflow : flow' = flow
    · subst hflow
      rw [hcall.1] at ht
      have hnew := (ht ▸ hframes).awaits.1
      have hlt := (List.getElem?_eq_some_iff.mp (h.handle _ index ha)).1
      rw [WorkflowRunInstance.handles, List.length_map] at hlt
      omega
    · exact hflow (h.apart flow' flow index ⟨remaining, outer, (hcall.2 flow' hflow) ▸ ht⟩ ha)

theorem launching_step {l : Label} (h : Launching s) (hsur : Surroundings s l t)
    (hstep : Stepped c s l t) : Launching t := by
  rcases callFrames_step h hsur hstep with ⟨-, hleft⟩ | ⟨_, _, hcall, hframes, hhandles, -⟩
  rotate_left
  · exact h.call hhandles hcall hframes
  refine ⟨fun flow index ha => ?_, fun flow frame outer hframes =>
      framesLeft_outer (hleft flow) (h.outer flow) hframes, fun flow flow' index h₁ h₂ =>
      h.apart flow flow' index (h.left hleft h₁) (h.left hleft h₂)⟩
  have hs := h.handle flow index (h.left hleft ha)
  cases hsur with
  | kept _ hhandles => exact hhandles.get hs
  | taken _ hhandles => exact hhandles.get hs
  | submitted _ _ hhandles => exact hhandles.get hs
  | asked _ hhandles => exact hhandles.get hs
  | resolved flow' index' remaining outer hframes hhandles _ hcall =>
    have hne : index' ≠ index := by
      rintro rfl
      obtain rfl := h.apart flow flow' _ (h.left hleft ha) ⟨remaining, outer, hframes⟩
      obtain ⟨remaining', outer', hframes'⟩ := ha
      rw [hcall.1] at hframes'
      cases hframes'
    rw [hhandles, List.getElem?_modify, hs]
    simp [hne]
  | settled index' entry settlement hentry hhandle hhandles =>
    have hne : index' ≠ index := by
      rintro rfl
      simp [WorkflowRunInstance.handles, hentry, hhandle] at hs
    rw [hhandles, List.getElem?_modify, hs]
    simp [hne]

/-! ### Nodes that run -/

theorem Ended.running {state : WorkflowState X} {r : Except Fault (Option Frame)} {index : Nat}
    (h : Ended c state s r t) (ht : t.statusOf index = some .running) :
    s.statusOf index = some .running ∨
      ∃ rest, r = .ok (some { awaiting := some index, remaining := rest }) := by
  have hsame : t.nodes = s.nodes → s.statusOf index = some .running := by
    intro hnodes
    rwa [WorkflowRunInstance.statusOf, ← hnodes]
  cases h with
  | quiet _ hnodes => exact .inl (hsame hnodes)
  | deadlocked _ _ _ _ _ _ _ _ hnodes => exact .inl (hsame hnodes)
  | launched _ _ _ _ _ rest _ _ _ hnodes hr =>
    obtain ⟨e, he, hrunning⟩ := statusOf_eq_some_iff.mp ht
    rw [hnodes] at he
    by_cases hlt : index < s.nodes.length
    · rw [List.getElem?_append_left hlt] at he
      exact .inl (statusOf_eq_some_iff.mpr ⟨e, he, hrunning⟩)
    · have hindex := (List.getElem?_eq_some_iff.mp he).1
      rw [List.length_append, List.length_singleton] at hindex
      obtain rfl : index = s.nodes.length := by omega
      exact .inr ⟨rest, hr⟩

theorem Applied.running {entry : Nat} {settlement : WorkflowNodeSettlement}
    {state : WorkflowState X} {r : Except Fault (Option Frame)} {index : Nat}
    (h : Applied c entry settlement state s r t) (ht : t.statusOf index = some .running) :
    s.statusOf index = some .running ∨
      ∃ rest, r = .ok (some { awaiting := some index, remaining := rest }) := by
  cases h with
  | applyThrew => exact .inl ht
  | evaluateThrew => exact .inl ht
  | evaluated _ _ _ _ _ _ _ _ _ _ _ _ hv => exact hv.ended.running ht

/-- A node that runs after a step ran before, or it is being launched. -/
theorem running_step {l : Label} {index : Nat} (h : Stepped c s l t)
    (ht : t.statusOf index = some .running) :
    s.statusOf index = some .running ∨ ∃ flow, Awaits t flow index := by
  have hawaits : ∀ {flow outer rest} {r : Except Fault (Option Frame)},
      FramesTo flow (callFrames r outer) s t →
        r = .ok (some { awaiting := some index, remaining := rest }) → Awaits t flow index := by
    rintro flow outer rest r hcall rfl
    exact ⟨rest, outer, hcall.1⟩
  cases h with
  | control _ _ hc => exact .inl ((hc.statusOf index) ▸ ht)
  | started hidle r u _ hu hc hcall =>
    rw [hc.statusOf] at ht
    cases hu with
    | threw => exact .inl ht
    | created _ _ _ _ _ _ hu =>
      rcases hu.ended.running ht with hs | ⟨rest, hr⟩
      · exact .inl hs
      · exact .inr ⟨.start, hawaits hcall hr⟩
  | launched flow next rest outer hframes _ _ hc hcall =>
    rw [hc.statusOf] at ht
    obtain ⟨e, he, hrunning⟩ := statusOf_eq_some_iff.mp ht
    simp only at he
    by_cases hlt : index < s.nodes.length
    · rw [List.getElem?_append_left hlt] at he
      exact .inl (statusOf_eq_some_iff.mpr ⟨e, he, hrunning⟩)
    · have hindex := (List.getElem?_eq_some_iff.mp he).1
      rw [List.length_append, List.length_singleton] at hindex
      obtain rfl : index = s.nodes.length := by omega
      exact .inr ⟨flow, rest, outer, hcall.1⟩
  | settled sh hshown _ _ _ r u _ hu hc flow outer _ hcall =>
    obtain ⟨queue, hin⟩ := shownIn_of_shown hshown
    rw [hc.statusOf] at ht
    rcases hu.running ht with hs | ⟨rest, hr⟩
    · rw [hin.statusOf] at hs
      split at hs
      · exact absurd (Option.some.inj hs) hin.closes
      · exact .inl hs
    · exact .inr ⟨flow, hawaits hcall hr⟩
  | interrupted _ running _ _ _ _ _ _ hu hc =>
    rw [hc.statusOf, hu.statusOf] at ht
    split at ht
    · cases hnode : s.nodes[index]? <;> simp [hnode] at ht
    · exact .inl ht

theorem shownSettlement_of_running {index : Nat} {entry : WorkflowNodeRunEntry}
    {settlement : WorkflowNodeSettlement} (hentry : entry.status = .running)
    (hstatus : settlement.status ≠ .completed) :
    ∃ sh, shownSettlement index entry settlement s = some sh ∧ sh.entry = index ∧
      sh.settlement.status ≠ .completed := by
  unfold shownSettlement
  rw [if_neg (by simp [hstatus, hentry])]
  exact ⟨_, rfl, rfl, hstatus⟩

/-- A running entry whose launch is rejected is shown as failed. -/
theorem shown_of_launchRejected {flow : FlowId} {index : Nat} (reason : String)
    (ha : Awaits s flow index) (hrunning : s.statusOf index = some .running) :
    ∃ sh, shown s (.launchRejected flow reason) = some sh ∧ sh.entry = index ∧
      sh.settlement.status ≠ .completed := by
  obtain ⟨remaining, outer, hframes⟩ := ha
  obtain ⟨entry, hentry, hstatus⟩ := statusOf_eq_some_iff.mp hrunning
  simp only [shown, hframes, hentry, Option.bind_some]
  exact shownSettlement_of_running hstatus (by simp [failedLaunchSettlement,
    WorkflowNodeSettlement.status])

/-- The end of a node that runs is shown when its turn in the queue comes. -/
theorem shown_of_queued {index : Nat} {settlement : WorkflowNodeSettlement}
    {rest : List Operation} (hactive : s.active = none)
    (hqueue : s.queue = .settle index settlement :: rest)
    (hrunning : s.statusOf index = some .running) (hstatus : settlement.status ≠ .completed) :
    ∃ sh, shown s .dequeue = some sh ∧ sh.entry = index ∧ sh.settlement.status ≠ .completed := by
  obtain ⟨entry, hentry, hentryStatus⟩ := statusOf_eq_some_iff.mp hrunning
  simp only [shown, hactive, hqueue, hentry, Option.bind_some]
  exact shownSettlement_of_running hentryStatus hstatus

theorem monitored_status {entry : WorkflowNodeRunEntry} {settlement : NodeSettlement}
    {monitored : WorkflowNodeSettlement} (h : monitoredSettlement entry settlement = some monitored) :
    monitored.status ≠ .completed := by
  cases settlement <;> simp only [monitoredSettlement, Option.some.injEq, reduceCtorEq] at h <;>
    (subst h; simp [WorkflowNodeSettlement.status])

theorem active_of_dequeue (hstep : step c s .dequeue = some t) : s.active = none := by
  cases hactive : s.active with
  | none => rfl
  | some active => simp [step, stepDequeue, hactive] at hstep

/-- The end of this node is heard. -/
structure HeardOf (c : WorkflowStartRequest X) (index : Nat) (s : WorkflowRunInstance X)
    (l : Label) : Prop where
  accepts : ∀ sh, shown s l = some sh → sh.entry = index → sh.settlement.status ≠ .completed →
    accepts c s l = true
  completed : ∀ outcome, l = .nodeSettled index (.completed outcome) →
    s.statusOf index ≠ some .running

theorem Heard.of (h : Heard c s l) (index : Nat) : HeardOf c index s l where
  accepts _ hshown _ hstatus := h.accepts hshown hstatus
  completed _ heq := by
    subst heq
    exact h.completed

/-- A handle that is observed, or an end that is queued, until the end has been dealt with. -/
theorem observed_step {l : Label} {index : Nat} (hheard : HeardOf c index s l)
    (hstep : step c s l = some t) (hstepped : Stepped c s l t) (hsur : Surroundings s l t)
    (hs : s.statusOf index = some .running) (ht : t.statusOf index = some .running)
    (h : s.handles[index]? = some (true, false) ∨ EndQueued s index) :
    t.handles[index]? = some (true, false) ∨ EndQueued t index := by
  -- nothing is lost while the handle and the queued end are kept
  have hkept : HandlesKept s t → (∀ settlement, .settle index settlement ∈ s.queue →
      settlement.status ≠ .completed → .settle index settlement ∈ t.queue) →
      t.handles[index]? = some (true, false) ∨ EndQueued t index := by
    rintro hhandles hqueue
    rcases h with h | ⟨settlement, hmem, hstatus⟩
    · exact .inl (hhandles.get h)
    · exact .inr ⟨settlement, hqueue settlement hmem hstatus, hstatus⟩
  cases hsur with
  | kept _ hhandles hqueue => exact hkept hhandles fun _ hmem _ => hqueue ▸ hmem
  | submitted _ _ hhandles hqueue =>
    exact hkept hhandles fun _ hmem _ => hqueue ▸ List.mem_append_left _ hmem
  | asked _ hhandles hqueue =>
    exact hkept hhandles fun _ hmem _ => hqueue ▸ List.mem_append_left _ hmem
  | taken operation hhandles hqueue =>
    refine hkept hhandles fun settlement hmem hstatus => ?_
    rw [hqueue] at hmem
    rcases List.mem_cons.mp hmem with rfl | hmem
    · -- its turn has come: what is heard is accepted, so the entry is closed
      obtain ⟨sh, hshown, rfl, hsh⟩ := shown_of_queued (active_of_dequeue hstep) hqueue hs hstatus
      have hclosed := closed_of_accepts hstepped hshown (hheard.accepts sh hshown rfl hsh)
      exact absurd (Option.some.inj (hclosed.1.symm.trans ht)) hclosed.2
    · exact hmem
  | resolved flow index' _ _ _ hhandles hqueue =>
    rcases h with h | ⟨settlement, hmem, hstatus⟩
    · refine .inl ?_
      rw [hhandles, List.getElem?_modify, h]
      simp
    · exact .inr ⟨settlement, hqueue ▸ hmem, hstatus⟩
  | settled index' entry settlement hentry hhandle hhandles hqueue =>
    rcases h with h | ⟨queued, hmem, hstatus⟩
    · by_cases heq : index' = index
      · subst heq
        -- the handle settles: its end is put in the queue, for the entry is open
        have hrunning : entry.status = .running := by
          simpa [WorkflowRunInstance.statusOf, hentry] using hs
        rcases hqueue with ⟨-, hnone | hclosed⟩ | ⟨monitored, hmonitored, hqueue⟩
        · cases settlement with
          | completed outcome => exact absurd hs (hheard.completed outcome rfl)
          | _ => cases hnone
        · exact absurd hrunning hclosed
        · exact .inr ⟨monitored, by simp [hqueue], monitored_status hmonitored⟩
      · refine .inl ?_
        rw [hhandles, List.getElem?_modify, h]
        simp [heq]
    · refine .inr ⟨queued, ?_, hstatus⟩
      rcases hqueue with ⟨hqueue, -⟩ | ⟨monitored, -, hqueue⟩
      · rw [hqueue]
        exact hmem
      · rw [hqueue]
        exact List.mem_append_left _ hmem

/-- Where a node stands while its entry is running. -/
def FollowedAt (s : WorkflowRunInstance X) (index : Nat) : Prop :=
  s.statusOf index = some .running →
    (∃ flow, Awaits s flow index) ∨ s.handles[index]? = some (true, false) ∨ EndQueued s index

/-- A node is followed as long as its own end is heard. -/
theorem followedAt_step {l : Label} {index : Nat} (hwell : WellStarted s)
    (hlaunching : Launching s) (h : FollowedAt s index) (hheard : HeardOf c index s l)
    (hstep : step c s l = some t) : FollowedAt t index := by
  have hstepped := stepped_of_step hwell hstep
  have hsur := surroundings_step hwell hstep
  intro ht
  rcases running_step hstepped ht with hs | ha
  rotate_left
  · exact .inl ha
  rcases h hs with ⟨flow, ha⟩ | hobserved
  · rcases awaits_step hstep hstepped ha with hat | rfl | ⟨reason, rfl⟩
    · exact .inl ⟨flow, hat⟩
    · -- the launch has resolved: the handle is observed from now on
      cases hsur with
      | kept hl => cases hl
      | resolved _ index' remaining outer hframes hhandles =>
        obtain ⟨remaining', outer', hframes'⟩ := ha
        rw [hframes] at hframes'
        cases hframes'
        refine .inr (.inl ?_)
        rw [hhandles, List.getElem?_modify, hlaunching.handle flow index ⟨remaining, outer, hframes⟩]
        simp
    · -- the launch has thrown: the node is settled as failed at once
      obtain ⟨sh, hshown, rfl, hsh⟩ := shown_of_launchRejected reason ha hs
      have hclosed := closed_of_accepts hstepped hshown (hheard.accepts sh hshown rfl hsh)
      exact absurd (Option.some.inj (hclosed.1.symm.trans ht)) hclosed.2
  · exact .inr (observed_step hheard hstep hstepped hsur hs ht hobserved)

theorem followed_step {l : Label} (hwell : WellStarted s) (h : Followed s) (hheard : Heard c s l)
    (hstep : step c s l = some t) : Followed t :=
  ⟨launching_step h.toLaunching (surroundings_step hwell hstep) (stepped_of_step hwell hstep),
    fun index => followedAt_step hwell h.toLaunching (h.running index) (hheard.of index) hstep⟩

theorem followed_of_run {ls : List Label} (run : Run (step c) (Heard c) initial ls s) :
    Followed s :=
  run.invariant_of wellStarted_of_run followed_initial fun _ _ _ hheard hwell h hstep =>
    followed_step hwell h hheard hstep

/-! ## A run that goes on -/

/-- The implementation answers: only its validator may throw or refuse, and a state that is not
done in which nothing runs and nothing is dispatched is a deadlock. -/
structure Responds (c : WorkflowStartRequest X) : Prop where
  dispatch : ∀ stamp state runtime, ∃ dispatches,
    c.implementation.dispatch stamp c.definition state runtime = .ok dispatches
  applyNodeSettlement : ∀ stamp state settlement runtime, ∃ result,
    c.implementation.applyNodeSettlement stamp state settlement runtime = .ok result
  evaluateWorkflowProgress : ∀ stamp state runtime, ∃ result,
    c.implementation.evaluateWorkflowProgress stamp state runtime = .ok result
  deadlock : ∀ stamp state runtime, state.isWorkflowDone = false → runtime.runningNodes = [] →
    ∃ report, c.implementation.deadlock stamp state runtime [] = .ok (some report)
  getWorkflowOutcome : ∀ stamp state, ∃ answer,
    c.implementation.getWorkflowOutcome stamp state = .ok answer
  toJsonObject : ∀ state, ∃ json, c.toJsonObject state = .ok json

/-- The run has ended, or some node runs. -/
def Busy (s : WorkflowRunInstance X) : Prop :=
  s.finished = true ∨ ∃ index, s.statusOf index = some .running

theorem Finished.busy {outcome : WorkflowOutcome} (h : Finished outcome s t) : Busy t := by
  cases h with
  | already hfinished => exact .inl hfinished
  | finished => exact .inl rfl

theorem Busy.launched {entry : WorkflowNodeRunEntry} (h : t.nodes = s.nodes ++ [entry])
    (hrunning : entry.status = .running) : Busy t := by
  refine .inr ⟨s.nodes.length, statusOf_eq_some_iff.mpr ⟨entry, ?_, hrunning⟩⟩
  rw [h]
  exact List.getElem?_concat_length

theorem Dispatched.busy (hresponds : Responds c) {state : WorkflowState X}
    {r : Except Fault (Option Frame)} (h : Dispatched c state s r t)
    (hdone : state.isWorkflowDone = false) : Busy t := by
  cases h with
  | done h => exact absurd (hdone.symm.trans h) (by simp)
  | threw _ message _ hdispatch =>
    obtain ⟨dispatches, hok⟩ := hresponds.dispatch s.clock state s.runtimeSnapshot
    cases hdispatch.symm.trans hok
  | launched => exact .launched rfl rfl
  | idle _ _ _ _ _ hidled =>
    cases hidled with
    | waiting hrunning =>
      rw [Ne, runningNodes_eq_nil_iff] at hrunning
      push Not at hrunning
      exact .inr hrunning
    | noReport _ hrunning hnone =>
      obtain ⟨report, hreport⟩ := hresponds.deadlock _ state
        (WorkflowRunInstance.runtimeSnapshot _) hdone hrunning
      cases hnone.symm.trans hreport
    | deadlocked _ _ _ _ _ _ hfinished => exact hfinished.busy
  | idleThrew _ _ _ _ _ _ hidled =>
    cases hidled with
    | threw _ _ hrunning hthrew =>
      obtain ⟨report, hreport⟩ := hresponds.deadlock _ state
        (WorkflowRunInstance.runtimeSnapshot _) hdone hrunning
      cases hthrew.symm.trans hreport
    | snapshotThrew _ _ _ _ _ hthrew =>
      obtain ⟨json, hjson⟩ := hresponds.toJsonObject (deadlockState state _)
      cases hthrew.symm.trans hjson

theorem Concluded.busy (hresponds : Responds c) {state : WorkflowState X}
    {r : Except Fault (Option Frame)} (h : Concluded c state s r t) : Busy t := by
  cases h with
  | snapshotThrew _ _ hthrew =>
    obtain ⟨json, hjson⟩ := hresponds.toJsonObject state
    cases hthrew.symm.trans hjson
  | outcomeThrew _ _ _ _ _ hthrew =>
    obtain ⟨stamp, hthrew⟩ := hthrew
    obtain ⟨answer, hanswer⟩ := hresponds.getWorkflowOutcome stamp state
    cases hthrew.symm.trans hanswer
  | finished _ _ _ _ _ _ _ hfinished => exact hfinished.busy
  | continued hdone _ _ _ _ _ hdispatched => exact hdispatched.busy hresponds hdone

theorem Applied.busy (hresponds : Responds c) {entry : Nat} {settlement : WorkflowNodeSettlement}
    {state : WorkflowState X} {r : Except Fault (Option Frame)}
    (h : Applied c entry settlement state s r t) : Busy t := by
  cases h with
  | applyThrew _ _ hthrew =>
    obtain ⟨result, hresult⟩ := hresponds.applyNodeSettlement s.clock state settlement
      s.runtimeSnapshot
    cases hthrew.symm.trans hresult
  | evaluateThrew applied _ stamp _ runtime _ _ hthrew =>
    obtain ⟨result, hresult⟩ := hresponds.evaluateWorkflowProgress stamp applied.state runtime
    cases hthrew.symm.trans hresult
  | evaluated _ _ _ _ _ _ _ _ _ _ _ _ hconcluded => exact hconcluded.busy hresponds

theorem Control.busy {faults : List Fault} (h : Control faults s t) (hs : Busy s) : Busy t := by
  rcases hs with hfinished | ⟨index, hrunning⟩
  · exact .inl (h.finished.trans hfinished)
  · exact .inr ⟨index, (h.statusOf index).trans hrunning⟩

theorem busy_step (hresponds : Responds c) {l : Label} (hthreads : Threads s)
    (hwell : WellStarted s) (h : s.state.isSome → Busy s) (hstep : step c s l = some t) :
    t.state.isSome → Busy t := by
  intro ht
  cases stepped_of_step hwell hstep with
  | control _ _ hc => exact hc.busy (h (hc.state ▸ ht))
  | started hidle r u _ hu hc =>
    cases hu with
    | threw =>
      have hs : s.state = none := by rw [hthreads.idle hidle]; rfl
      rw [hc.state, hs] at ht
      cases ht
    | created _ _ _ _ _ _ hu => exact hc.busy (hu.busy hresponds)
  | launched flow next rest outer hframes _ _ hc =>
    exact hc.busy (.launched rfl rfl)
  | settled sh _ _ _ _ _ _ _ hu hc => exact hc.busy (hu.busy hresponds)
  | interrupted reason running hactive state hstate =>
    have hend := interrupted_step hthreads hactive hstate hstep
    exact .inl (hend.1 (hresponds.toJsonObject _)).2.finished

theorem busy_of_run (hresponds : Responds c) {ok : WorkflowRunInstance X → Label → Prop}
    {ls : List Label} (run : Run (step c) ok initial ls s) : s.state.isSome → Busy s :=
  run.invariant_of (J := fun s => Threads s ∧ WellStarted s)
    (fun r => ⟨threads_of_run r, wellStarted_of_run r⟩) (fun h => by cases h)
    fun _ _ _ _ hJ h hstep => busy_step hresponds hJ.1 hJ.2 h hstep

/-! ## No end is missed -/

/-- The handle of the node has settled, and the queue has been through with it. -/
def EndHandled (s : WorkflowRunInstance X) (index : Nat) : Prop :=
  s.handles[index]? = some (true, true) ∧ ¬ EndQueued s index

theorem Followed.not_running (h : Followed s) {index : Nat} (hended : EndHandled s index) :
    s.statusOf index ≠ some .running := by
  intro hrunning
  rcases h.running index hrunning with ⟨flow, ha⟩ | hhandle | hqueued
  · have hhandle := h.handle flow index ha
    simp [hended.1] at hhandle
  · simp [hended.1] at hhandle
  · exact hended.2 hqueued

/-- Nothing is under way: `start()` has returned and the queue is through. -/
structure Resting (s : WorkflowRunInstance X) : Prop where
  returned : s.startFlow = .returned
  active : s.active = none
  queue : s.queue = []

theorem Resting.frames (h : Resting s) (flow : FlowId) : s.frames flow = [] := by
  cases flow <;> simp [WorkflowRunInstance.frames, h.returned, h.active]

/-- Every node that was launched has ended. -/
def AllSettled (s : WorkflowRunInstance X) : Prop :=
  ∀ entry ∈ s.nodes, entry.handle = true → entry.settled = true

/-- A run at rest whose nodes have all ended has nothing that runs. -/
theorem Followed.nothing_runs (h : Followed s) (hrest : Resting s) (hsettled : AllSettled s)
    (index : Nat) : s.statusOf index ≠ some .running := by
  intro hrunning
  obtain ⟨entry, hentry, -⟩ := statusOf_eq_some_iff.mp hrunning
  rcases h.running index hrunning with ⟨flow, remaining, outer, hframes⟩ | hhandle | ⟨_, hmem, -⟩
  · rw [hrest.frames flow] at hframes
    cases hframes
  · rw [WorkflowRunInstance.handles, List.getElem?_map, hentry, Option.map_some,
      Option.some.injEq, Prod.mk.injEq] at hhandle
    have := hsettled entry (List.mem_of_getElem? hentry) hhandle.1
    simp [hhandle.2] at this
  · rw [hrest.queue] at hmem
    cases hmem

/-- **No node is listed as running once its end has been dealt with**, exactly as far as the
implementation accepts the ends of nodes.  While it accepts them all, a run that is not finished
is never at rest with all its nodes ended. -/
theorem no_zombie :
    (∀ ls (s t : WorkflowRunInstance X) index settlement rest, Run (step c) Free initial ls s →
      s.queue = .settle index settlement :: rest → step c s .dequeue = some t →
        (t.statusOf index ≠ some .running ↔
          s.statusOf index ≠ some .running ∨ accepts c s .dequeue = true)) ∧
    ∀ ls s, Run (step c) (Heard c) initial ls s →
      (∀ index, EndHandled s index → s.statusOf index ≠ some .running) ∧
        (Responds c → AllSettled s → Resting s → s.finished = true) := by
  refine ⟨fun ls s t index settlement rest run hqueue hstep =>
    closes_iff_accepted run hqueue hstep, fun ls s run => ?_⟩
  have hfollowed := followed_of_run run
  refine ⟨fun index => hfollowed.not_running, fun hresponds hsettled hrest => ?_⟩
  have hstate : s.state.isSome := by
    rw [Option.isSome_iff_ne_none]
    intro hnone
    rcases (wellStarted_of_run run hnone).startFlow with hidle | ⟨fault, hfailed⟩
    · exact absurd (hrest.returned.symm.trans hidle) (by simp)
    · exact absurd (hrest.returned.symm.trans hfailed) (by simp)
  rcases busy_of_run hresponds run hstate with hfinished | ⟨index, hrunning⟩
  · exact hfinished
  · exact absurd hrunning (hfollowed.nothing_runs hrest hsettled index)

/-- One node; when it has failed there is nothing left to do. -/
def stranded (validate : WorkflowState Unit → ValidationResult) : WorkflowStartRequest Unit :=
  { batchRequest [anyNode "only"] validate .ok with
    implementation :=
      { batchImplementation [anyNode "only"] validate .ok with
        deadlock := fun _ _ _ _ => .ok (some { reason := "nothing to do" }) } }

/-- Start and launch the node, which fails. -/
def onlyFails : List Label :=
  [.start, .launchResolved .start, .resume .start, .nodeSettled 0 (.failed "crashed"), .dequeue]

/-- The end of the node, of its launch, and of the operation of the queue. -/
def atRest (s : WorkflowRunInstance Unit) : Bool :=
  s.startFlow matches .returned && s.active.isNone && s.queue.isEmpty &&
    s.nodes.all fun entry => !entry.handle || entry.settled

theorem resting_of_atRest {s : WorkflowRunInstance Unit} (h : atRest s = true) :
    Resting s ∧ AllSettled s := by
  simp only [atRest, Bool.and_eq_true, Option.isNone_iff_eq_none, List.isEmpty_iff,
    List.all_eq_true, Bool.or_eq_true, Bool.not_eq_true'] at h
  obtain ⟨⟨⟨hflow, hactive⟩, hqueue⟩, hsettled⟩ := h
  refine ⟨⟨?_, hactive, hqueue⟩, fun entry hentry hhandle => ?_⟩
  · split at hflow
    · next heq => exact heq
    · cases hflow
  · rcases hsettled entry hentry with hnot | hsettled
    · simp [hhandle] at hnot
    · exact hsettled

theorem no_zombie_stranded :
    ∃ s, Run (step (stranded acceptAll)) (Heard (stranded acceptAll)) initial onlyFails s ∧
      s.statusOf 0 ≠ some .running ∧ s.finished = true := by
  obtain ⟨s, hs, hp⟩ := exists_run (step (stranded acceptAll)) (Heard (stranded acceptAll)) initial
    onlyFails (fun s => atRest s && s.handles == [(true, true)]) (by decide +kernel)
  rw [Bool.and_eq_true, beq_iff_eq] at hp
  obtain ⟨hrest, hsettled⟩ := resting_of_atRest hp.1
  obtain ⟨hended, hfinished⟩ := no_zombie.2 _ s hs
  refine ⟨s, hs, hended 0 ⟨by rw [hp.2]; rfl, fun ⟨_, hmem, _⟩ => ?_⟩,
    hfinished ?_ hsettled hrest⟩
  · rw [hrest.queue] at hmem
    cases hmem
  · exact ⟨fun _ _ _ => ⟨_, rfl⟩, fun _ _ _ _ => ⟨_, rfl⟩, fun _ _ _ => ⟨_, rfl⟩,
      fun _ _ _ _ _ => ⟨_, rfl⟩, fun _ _ => ⟨_, rfl⟩, fun _ => ⟨_, rfl⟩⟩

/-- The implementation refuses the end of its only node: the operation of the queue has run, the
node is still listed as running, and the run waits for nothing. -/
theorem zombie :
    ∃ s, Run (step (stranded fun _ => .refused "not now")) Free initial onlyFails s ∧
      Resting s ∧ AllSettled s ∧ EndHandled s 0 ∧ s.statusOf 0 = some .running ∧
      s.runningNodes ≠ [] ∧ s.finished = false ∧ s.isDone = false := by
  obtain ⟨s, hs, hp⟩ := exists_run (step (stranded fun _ => .refused "not now")) Free initial
    onlyFails (fun s => atRest s && s.handles == [(true, true)] &&
      s.statusOf 0 == some .running && !s.finished && !s.isDone) (by decide +kernel)
  simp only [Bool.and_eq_true, beq_iff_eq, Bool.not_eq_true'] at hp
  obtain ⟨⟨⟨⟨hrest, hhandles⟩, hrunning⟩, hfinished⟩, hdone⟩ := hp
  obtain ⟨hrest, hsettled⟩ := resting_of_atRest hrest
  refine ⟨s, hs, hrest, hsettled, ⟨by rw [hhandles]; rfl, fun ⟨_, hmem, _⟩ => ?_⟩, hrunning,
    fun hnil => runningNodes_eq_nil_iff.mp hnil 0 hrunning, hfinished, hdone⟩
  rw [hrest.queue] at hmem
  cases hmem

end EphemeralAgent.Workflow
