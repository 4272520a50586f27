import EphemeralAgent.Workflow.Frozen

/-!
# Settlements are applied once and in order

Three paths settle a node: a submission and a settlement from the queue, and a launch that throws.
Each closes its entry and applies the settlement without an await in between.

* `replay` — the state that follows from the history alone
* `serial_settlement` — an entry is applied at most once and closed for good, and the state is the
  replay of the history exactly as long as no transition of the implementation throws
* `lost_settlement` — a settlement that is accepted but not evaluated
-/

namespace EphemeralAgent.Workflow

open EphemeralAgent.Lib

variable {X : Type} {c : WorkflowStartRequest X} {s t u : WorkflowRunInstance X}

/-! ## Entries -/

/-- The entry has left `running`. -/
def Closed (s : WorkflowRunInstance X) (entry : Nat) (status : NodeRunStatus) : Prop :=
  s.statusOf entry = some status ∧ status ≠ .running

/-- Entries are only appended, and they start running. -/
def Grown (s t : WorkflowRunInstance X) : Prop :=
  ∃ more, t.nodes = s.nodes ++ more ∧ ∀ entry ∈ more, entry.status = .running

theorem Grown.statusOf (h : Grown s t) {entry : Nat} {status : NodeRunStatus}
    (hs : s.statusOf entry = some status) : t.statusOf entry = some status := by
  obtain ⟨more, hmore, -⟩ := h
  unfold WorkflowRunInstance.statusOf at hs ⊢
  obtain ⟨e, he, hstatus⟩ := Option.map_eq_some_iff.mp hs
  have hlt : entry < s.nodes.length := (List.getElem?_eq_some_iff.mp he).1
  rw [hmore, List.getElem?_append_left hlt, he, Option.map_some, hstatus]

theorem Grown.closed_of_closed (h : Grown s t) {entry : Nat} {status : NodeRunStatus}
    (ht : Closed t entry status) : Closed s entry status := by
  obtain ⟨more, hmore, hrunning⟩ := h
  obtain ⟨hstatus, hne⟩ := ht
  refine ⟨?_, hne⟩
  unfold WorkflowRunInstance.statusOf at hstatus ⊢
  obtain ⟨e, he, rfl⟩ := Option.map_eq_some_iff.mp hstatus
  rw [hmore] at he
  by_cases hlt : entry < s.nodes.length
  · rw [List.getElem?_append_left hlt] at he
    rw [he, Option.map_some]
  · rw [List.getElem?_append_right (by omega)] at he
    exact absurd (hrunning e (List.mem_of_getElem? he)) hne

theorem Grown.of_eq (h : t.nodes = s.nodes) : Grown s t :=
  ⟨[], by simp [h]⟩

theorem Grown.launch {entry : WorkflowNodeRunEntry} (h : t.nodes = s.nodes ++ [entry])
    (hrunning : entry.status = .running) : Grown s t :=
  ⟨[entry], h, by simpa using hrunning⟩

theorem Finished.nodes {outcome : WorkflowOutcome} (h : Finished outcome s t) :
    t.nodes = s.nodes := by
  cases h <;> rfl

theorem Idled.nodes {state : WorkflowState X} {r : Except Fault Unit} (h : Idled c state s r t) :
    t.nodes = s.nodes := by
  cases h with
  | deadlocked _ _ _ _ _ _ hu => exact hu.nodes
  | _ => rfl

theorem Dispatched.grown {state : WorkflowState X} {r : Except Fault (Option Frame)}
    (h : Dispatched c state s r t) : Grown s t := by
  cases h with
  | launched => exact .launch rfl rfl
  | idle _ _ _ _ _ hu => exact .of_eq hu.nodes
  | idleThrew _ _ _ _ _ _ hu => exact .of_eq hu.nodes
  | _ => exact .of_eq rfl

theorem Concluded.grown {state : WorkflowState X} {r : Except Fault (Option Frame)}
    (h : Concluded c state s r t) : Grown s t := by
  cases h with
  | finished _ _ _ _ _ _ _ hu => exact .of_eq hu.nodes
  | continued _ _ _ _ _ _ hu => exact hu.grown
  | _ => exact .of_eq rfl

theorem Applied.grown {entry : Nat} {settlement : WorkflowNodeSettlement} {state : WorkflowState X}
    {r : Except Fault (Option Frame)} (h : Applied c entry settlement state s r t) : Grown s t := by
  cases h with
  | evaluated _ _ _ _ _ _ _ _ _ _ _ _ hu => exact hu.grown
  | _ => exact .of_eq rfl

theorem Started.grown {r : Except Fault (Option Frame)} (h : Started c s r t) : Grown s t := by
  cases h with
  | threw => exact .of_eq rfl
  | created _ _ _ _ _ _ hu => exact hu.grown

theorem ShownIn.statusOf {sh : Shown X} (h : ShownIn s sh) (entry : Nat) :
    sh.closed.statusOf entry =
      if entry = sh.entry then some sh.settlement.status else s.statusOf entry := by
  obtain ⟨clock, events, close, hclosed, hclose⟩ := h.closed
  obtain ⟨e, he, -⟩ := h.running
  rw [hclosed]
  unfold WorkflowRunInstance.statusOf
  simp only [List.getElem?_modify]
  by_cases heq : entry = sh.entry
  · subst heq
    simp [he, hclose]
  · rw [if_neg heq]
    cases s.nodes[entry]? with
    | none => rfl
    | some e' => simp [Ne.symm heq]

theorem ShownIn.statusOf_entry {sh : Shown X} (h : ShownIn s sh) :
    s.statusOf sh.entry = some .running := by
  obtain ⟨e, he, hrunning⟩ := h.running
  simp [WorkflowRunInstance.statusOf, he, hrunning]

/-- An interrupt closes the entries it has found running, and no others. -/
theorem statusOf_cancelEntries (completedAt : Stamp) (running : List Nat)
    (nodes : List WorkflowNodeRunEntry) (entry : Nat) :
    ((cancelEntries completedAt running nodes)[entry]?).map (·.status) =
      if entry ∈ running then (nodes[entry]?).map fun _ => .cancelled
      else (nodes[entry]?).map (·.status) := by
  unfold cancelEntries
  induction running generalizing nodes with
  | nil => simp
  | cons index rest ih =>
    rw [List.foldl_cons, ih]
    simp only [List.getElem?_modify, List.mem_cons]
    by_cases heq : entry = index
    · subst heq
      cases nodes[entry]? <;> simp
    · cases nodes[entry]? <;> simp [heq, Ne.symm heq]

theorem Interrupted.statusOf {reason : String} {running : List Nat} {state : WorkflowState X}
    {r : Except Fault Unit} (h : Interrupted reason running state s r t) (entry : Nat) :
    t.statusOf entry =
      if entry ∈ running then (s.nodes[entry]?).map fun _ => .cancelled else s.statusOf entry := by
  cases h with
  | threw => exact statusOf_cancelEntries _ _ _ _
  | done _ _ _ _ _ hu =>
    unfold WorkflowRunInstance.statusOf
    rw [hu.nodes]
    exact statusOf_cancelEntries _ _ _ _

theorem Grown.closed_iff (h : Grown s t) (entry : Nat) (status : NodeRunStatus) :
    Closed s entry status ↔ Closed t entry status :=
  ⟨fun hs => ⟨h.statusOf hs.1, hs.2⟩, h.closed_of_closed⟩

/-- An accepted settlement closes its own entry and reopens none. -/
theorem Applied.closed {sh : Shown X} {state : WorkflowState X} {r : Except Fault (Option Frame)}
    (hin : ShownIn s sh) (hu : Applied c sh.entry sh.settlement state sh.closed r t) :
    Closed t sh.entry sh.settlement.status ∧
      ∀ entry status, Closed s entry status → Closed t entry status := by
  refine ⟨?_, fun entry status hs => ?_⟩
  · rw [← hu.grown.closed_iff, Closed, hin.statusOf, if_pos rfl]
    exact ⟨rfl, hin.closes⟩
  · have hne : entry ≠ sh.entry := by
      rintro rfl
      exact hs.2 (Option.some.inj (hs.1.symm.trans hin.statusOf_entry))
    rw [← hu.grown.closed_iff, Closed, hin.statusOf, if_neg hne]
    exact hs

/-- **A status other than `running` never changes.** -/
theorem closed_step {l : Label} {entry : Nat} {status : NodeRunStatus} (hthreads : Threads s)
    (h : Stepped c s l t) (hs : Closed s entry status) : Closed t entry status := by
  cases h with
  | control _ _ hc => exact ⟨(hc.statusOf entry).trans hs.1, hs.2⟩
  | started _ _ u _ hu hc => exact ⟨(hc.statusOf entry).trans (hu.grown.statusOf hs.1), hs.2⟩
  | launched _ _ _ _ _ _ _ hc =>
    exact ⟨(hc.statusOf entry).trans ((Grown.launch rfl rfl).statusOf hs.1), hs.2⟩
  | settled sh hshown _ _ _ _ u _ hu hc =>
    obtain ⟨queue, hin⟩ := shownIn_of_shown hshown
    exact ⟨(hc.statusOf entry).trans ((hu.closed hin).2 entry status hs).1, hs.2⟩
  | interrupted reason running hactive _ _ _ u _ hu hc =>
    have hne : entry ∉ running := by
      intro hmem
      have := ((hthreads.interrupting reason running hactive).2.2 entry).mp hmem
      exact hs.2 (Option.some.inj (hs.1.symm.trans this))
    refine ⟨?_, hs.2⟩
    rw [hc.statusOf, hu.statusOf, if_neg hne, hs.1]

/-! ## Calls of `applyNodeSettlement` -/

/-- What the code after a transition adds to the history. -/
def HistoryItem.concluding : HistoryItem X → Bool
  | .launched _ | .deadlocked _ | .finished _ => true
  | _ => false

/-- The history goes on with items that satisfy `p`. -/
def Extends (p : HistoryItem X → Bool) (s t : WorkflowRunInstance X) : Prop :=
  ∃ items, t.history = s.history ++ items ∧ ∀ item ∈ items, p item = true

section Extends

variable {p q : HistoryItem X → Bool}

theorem Extends.of_eq (h : t.history = s.history) : Extends p s t :=
  ⟨[], by simp [h]⟩

theorem Extends.single {item : HistoryItem X} (h : t.history = s.history ++ [item])
    (hp : p item = true) : Extends p s t :=
  ⟨[item], h, by simpa using hp⟩

theorem Extends.trans (h₁ : Extends p s t) (h₂ : Extends p t u) : Extends p s u := by
  obtain ⟨items, hitems, hp⟩ := h₁
  obtain ⟨items', hitems', hp'⟩ := h₂
  refine ⟨items ++ items', by rw [hitems', hitems, List.append_assoc], fun item hitem => ?_⟩
  rcases List.mem_append.mp hitem with h | h
  · exact hp item h
  · exact hp' item h

theorem Extends.mono (h : Extends p s t) (hpq : ∀ item, p item = true → q item = true) :
    Extends q s t := by
  obtain ⟨items, hitems, hp⟩ := h
  exact ⟨items, hitems, fun item hitem => hpq item (hp item hitem)⟩

theorem Extends.mem (h : Extends p s t) {item : HistoryItem X} (hmem : item ∈ s.history) :
    item ∈ t.history := by
  obtain ⟨items, hitems, -⟩ := h
  rw [hitems]
  exact List.mem_append_left _ hmem

/-- Items that do not satisfy `q` leave the number of those that do as it is. -/
theorem Extends.countP (h : Extends p s t) (hq : ∀ item, p item = true → q item = false) :
    t.history.countP q = s.history.countP q := by
  obtain ⟨items, hitems, hp⟩ := h
  have hzero : items.countP q = 0 := by
    rw [List.countP_eq_zero]
    intro item hitem
    simp [hq item (hp item hitem)]
  rw [hitems, List.countP_append, hzero, Nat.add_zero]

end Extends

theorem Control.extends {faults : List Fault} (h : Control faults s t) :
    Extends HistoryItem.bookkeeping s t := by
  obtain ⟨items, hitems, -, hbook⟩ := h.history
  exact ⟨items, hitems, hbook⟩

theorem Finished.extends {outcome : WorkflowOutcome} (h : Finished outcome s t) :
    Extends HistoryItem.concluding s t := by
  cases h with
  | already => exact .of_eq rfl
  | finished => exact .single rfl rfl

theorem Idled.extends {state : WorkflowState X} {r : Except Fault Unit}
    (h : Idled c state s r t) : Extends HistoryItem.concluding s t := by
  cases h with
  | deadlocked _ _ _ _ _ _ hu => exact (Extends.single rfl rfl).trans hu.extends
  | snapshotThrew => exact .single rfl rfl
  | _ => exact .of_eq rfl

theorem Dispatched.extends {state : WorkflowState X} {r : Except Fault (Option Frame)}
    (h : Dispatched c state s r t) : Extends HistoryItem.concluding s t := by
  cases h with
  | launched => exact .single rfl rfl
  | idle _ _ _ _ _ hu => exact hu.extends
  | idleThrew _ _ _ _ _ _ hu => exact hu.extends
  | _ => exact .of_eq rfl

theorem Concluded.extends {state : WorkflowState X} {r : Except Fault (Option Frame)}
    (h : Concluded c state s r t) : Extends HistoryItem.concluding s t := by
  cases h with
  | finished _ _ _ _ _ _ _ hu => exact hu.extends
  | continued _ _ _ _ _ _ hu => exact hu.extends
  | _ => exact .of_eq rfl

/-- The item is a call of `applyNodeSettlement` for the entry. -/
def HistoryItem.appliesTo (entry : Nat) : HistoryItem X → Bool
  | .applyCalled index _ _ _ => index = entry
  | _ => false

/-- How often `applyNodeSettlement` was called for the entry. -/
def applies (s : WorkflowRunInstance X) (entry : Nat) : Nat :=
  s.history.countP (HistoryItem.appliesTo entry)

theorem concluding_appliesTo (entry : Nat) (item : HistoryItem X)
    (h : item.concluding = true) : item.appliesTo entry = false := by
  cases item <;> first | rfl | cases h

theorem bookkeeping_appliesTo (entry : Nat) (item : HistoryItem X)
    (h : item.bookkeeping = true) : item.appliesTo entry = false := by
  cases item <;> first | rfl | cases h

theorem concluding_not_bookkeeping (item : HistoryItem X) (h : item.concluding = true) :
    (!item.bookkeeping) = true := by
  cases item <;> first | rfl | cases h

/-- One call of `applyNodeSettlement`, with the settlement that was accepted. -/
theorem Applied.called {entry : Nat} {settlement : WorkflowNodeSettlement}
    {state : WorkflowState X} {r : Except Fault (Option Frame)}
    (h : Applied c entry settlement state s r t) :
    (∃ stamp runtime, .applyCalled entry settlement stamp runtime ∈ t.history) ∧
      (∀ index, applies t index = applies s index + if index = entry then 1 else 0) ∧
      Extends (fun item => !item.bookkeeping) s t := by
  have hcount : ∀ index (item : HistoryItem X) stamp runtime,
      item = .applyCalled entry settlement stamp runtime →
        [item].countP (HistoryItem.appliesTo index) = if index = entry then 1 else 0 := by
    rintro index _ stamp runtime rfl
    by_cases heq : index = entry
    · simp [HistoryItem.appliesTo, heq]
    · simp [HistoryItem.appliesTo, heq, Ne.symm heq]
  cases h with
  | applyThrew message clock =>
    refine ⟨⟨s.clock, s.runtimeSnapshot, by simp⟩, fun index => ?_, .single rfl rfl⟩
    unfold applies
    rw [List.countP_append, hcount index _ _ _ rfl]
  | evaluateThrew =>
    refine ⟨⟨s.clock, s.runtimeSnapshot, by simp⟩, fun index => ?_,
      ⟨_, List.append_assoc .., by simp [HistoryItem.bookkeeping]⟩⟩
    unfold applies
    rw [List.countP_append, List.countP_append, hcount index _ _ _ rfl]
    rfl
  | evaluated _ _ stamp _ runtime _ _ _ _ _ _ _ hu =>
    refine ⟨⟨s.clock, s.runtimeSnapshot, hu.extends.mem (by simp)⟩, fun index => ?_, ?_⟩
    · unfold applies
      rw [hu.extends.countP (concluding_appliesTo index), List.countP_append, List.countP_append,
        hcount index _ _ _ rfl]
      rfl
    · exact Extends.trans ⟨_, List.append_assoc .., by simp [HistoryItem.bookkeeping]⟩
        (hu.extends.mono concluding_not_bookkeeping)

/-- Entries are applied at most once, while they are closed, and closed entries are accounted
for. -/
structure Once (s : WorkflowRunInstance X) : Prop where
  atMost : ∀ entry, applies s entry ≤ 1
  closed : ∀ entry, applies s entry ≠ 0 → ∃ status, Closed s entry status
  applied : ∀ entry status, Closed s entry status →
    (∃ settlement stamp runtime, .applyCalled entry settlement stamp runtime ∈ s.history ∧
      settlement.status = status) ∨
    (status = .cancelled ∧ ∃ reason, .interrupted reason ∈ s.history)

/-- A step that applies nothing and closes nothing. -/
theorem Once.quiet (h : Once s) (happlies : ∀ entry, applies t entry = applies s entry)
    (hextends : Extends (fun _ => true) s t)
    (hclosed : ∀ entry status, Closed s entry status ↔ Closed t entry status) : Once t := by
  refine ⟨fun entry => ?_, fun entry hne => ?_, fun entry status ht => ?_⟩
  · rw [happlies]
    exact h.atMost entry
  · rw [happlies] at hne
    obtain ⟨status, hs⟩ := h.closed entry hne
    exact ⟨status, (hclosed entry status).mp hs⟩
  · rcases h.applied entry status ((hclosed entry status).mpr ht) with
      ⟨settlement, stamp, runtime, hmem, hstatus⟩ | ⟨hcancelled, reason, hmem⟩
    · exact .inl ⟨settlement, stamp, runtime, hextends.mem hmem, hstatus⟩
    · exact .inr ⟨hcancelled, reason, hextends.mem hmem⟩

theorem Once.control {faults : List Fault} (h : Once s) (hc : Control faults s t) : Once t :=
  h.quiet (fun entry => hc.extends.countP (bookkeeping_appliesTo entry))
    (hc.extends.mono fun _ _ => rfl)
    fun entry status => by unfold Closed; rw [hc.statusOf]

theorem Started.once {r : Except Fault (Option Frame)} (hu : Started c s r t) (h : Once s) :
    Once t := by
  have hgrown := hu.grown
  cases hu with
  | threw => exact h.quiet (fun _ => rfl) (.of_eq rfl) hgrown.closed_iff
  | created state _ _ _ _ _ hu =>
    refine h.quiet (fun entry => ?_) ?_ hgrown.closed_iff
    · unfold applies
      rw [hu.extends.countP (concluding_appliesTo entry), List.countP_append]
      rfl
    · exact Extends.trans (.single rfl rfl) (hu.extends.mono fun _ _ => rfl)

theorem Interrupted.once {reason : String} {running : List Nat} {state : WorkflowState X}
    {r : Except Fault Unit} (hu : Interrupted reason running state s r t)
    (hrunning : ∀ entry ∈ running, s.statusOf entry = some .running) (h : Once s) : Once t := by
  have hstatus := hu.statusOf
  have hextends : Extends (fun item => item.concluding || item matches .interrupted _) s t ∧
      .interrupted reason ∈ t.history := by
    cases hu with
    | threw => exact ⟨.single rfl rfl, by simp⟩
    | done _ _ _ _ _ hu =>
      refine ⟨Extends.trans (.single rfl rfl) (hu.extends.mono fun item hitem => by simp [hitem]),
        hu.extends.mem (by simp)⟩
  obtain ⟨hextends, hmem⟩ := hextends
  have happlies : ∀ entry, applies t entry = applies s entry := fun entry =>
    hextends.countP fun item hitem => by
      cases item <;> first | rfl | simp [HistoryItem.concluding] at hitem
  refine ⟨fun entry => ?_, fun entry hne => ?_, fun entry status ht => ?_⟩
  · rw [happlies]
    exact h.atMost entry
  · rw [happlies] at hne
    obtain ⟨status, hs⟩ := h.closed entry hne
    refine ⟨status, ?_, hs.2⟩
    rw [hstatus, if_neg, hs.1]
    intro hrun
    exact hs.2 (Option.some.inj (hs.1.symm.trans (hrunning entry hrun)))
  · obtain ⟨ht, hne⟩ := ht
    rw [hstatus] at ht
    by_cases hrun : entry ∈ running
    · rw [if_pos hrun] at ht
      obtain ⟨_, -, rfl⟩ := Option.map_eq_some_iff.mp ht
      exact .inr ⟨rfl, reason, hmem⟩
    · rw [if_neg hrun] at ht
      rcases h.applied entry status ⟨ht, hne⟩ with
        ⟨settlement, stamp, runtime, hm, hst⟩ | ⟨hcancelled, reason', hm⟩
      · exact .inl ⟨settlement, stamp, runtime, hextends.mem hm, hst⟩
      · exact .inr ⟨hcancelled, reason', hextends.mem hm⟩

theorem Applied.once {sh : Shown X} {state : WorkflowState X} {r : Except Fault (Option Frame)}
    (hin : ShownIn s sh) (hu : Applied c sh.entry sh.settlement state sh.closed r t)
    (h : Once s) : Once t := by
  obtain ⟨⟨stamp, runtime, hmem⟩, hcount, hextends⟩ := hu.called
  have hhistory : sh.closed.history = s.history := by
    obtain ⟨_, _, _, hclosed, -⟩ := hin.closed
    rw [hclosed]
  have happlies : ∀ entry, applies t entry = applies s entry + if entry = sh.entry then 1 else 0 :=
    fun entry => by rw [hcount entry, applies, hhistory, applies]
  have hzero : applies s sh.entry = 0 := by
    by_contra hne
    obtain ⟨status, hs, hstatus⟩ := h.closed sh.entry hne
    exact hstatus (Option.some.inj (hs.symm.trans hin.statusOf_entry))
  have hclosed := hu.grown.closed_iff
  refine ⟨fun entry => ?_, fun entry hne => ?_, fun entry status ht => ?_⟩
  · rw [happlies]
    by_cases heq : entry = sh.entry
    · rw [heq, if_pos rfl]
      omega
    · rw [if_neg heq]
      exact h.atMost entry
  · by_cases heq : entry = sh.entry
    · refine ⟨sh.settlement.status, (hclosed entry _).mp ⟨?_, hin.closes⟩⟩
      rw [hin.statusOf, if_pos heq]
    · rw [happlies, if_neg heq] at hne
      obtain ⟨status, hs, hstatus⟩ := h.closed entry hne
      refine ⟨status, (hclosed entry _).mp ⟨?_, hstatus⟩⟩
      rw [hin.statusOf, if_neg heq, hs]
  · obtain ⟨ht, hne⟩ := (hclosed entry status).mpr ht
    rw [hin.statusOf] at ht
    by_cases heq : entry = sh.entry
    · rw [if_pos heq] at ht
      exact .inl ⟨sh.settlement, stamp, runtime, heq ▸ hmem, Option.some.inj ht⟩
    · rw [if_neg heq] at ht
      have hmono : ∀ item ∈ s.history, item ∈ t.history := fun item hitem =>
        hextends.mem (hhistory ▸ hitem)
      rcases h.applied entry status ⟨ht, hne⟩ with
        ⟨settlement, stamp, runtime, hm, hst⟩ | ⟨hcancelled, reason, hm⟩
      · exact .inl ⟨settlement, stamp, runtime, hmono _ hm, hst⟩
      · exact .inr ⟨hcancelled, reason, hmono _ hm⟩

theorem once_step {l : Label} (hthreads : Threads s) (hstep : Stepped c s l t) (h : Once s) :
    Once t := by
  cases hstep with
  | control _ _ hc => exact h.control hc
  | started _ _ u _ hu hc => exact (hu.once h).control hc
  | launched _ _ _ _ _ _ _ hc =>
    refine Once.control (h.quiet (fun entry => ?_) (.single rfl rfl)
      (Grown.launch rfl rfl).closed_iff) hc
    exact (Extends.single (p := HistoryItem.concluding) rfl rfl).countP (concluding_appliesTo entry)
  | settled sh hshown _ _ _ _ u _ hu hc =>
    obtain ⟨queue, hin⟩ := shownIn_of_shown hshown
    refine Once.control (hu.once hin ?_) hc
    exact h.quiet (fun _ => rfl) (.of_eq rfl) fun _ _ => Iff.rfl
  | interrupted reason running hactive _ _ _ u _ hu hc =>
    have hrunning := (hthreads.interrupting reason running hactive).2.2
    exact (hu.once (fun entry => (hrunning entry).mp) h).control hc

/-! ## The state is the replay of the history -/

/-- What the history says about the state: nothing yet, the state between two settlements, the
state between `applyNodeSettlement` and `evaluateWorkflowProgress`, or no state at all. -/
inductive Replay (X : Type) where
  | empty
  | settled (state : WorkflowState X)
  | applied (state : WorkflowState X)
  | stuck

/-- Items that stand for a transition of the state. -/
def HistoryItem.isTransition : HistoryItem X → Bool
  | .created _ | .applyCalled .. | .evaluateCalled .. | .deadlocked _ | .interrupted _ => true
  | _ => false

/-- One item of the history: `applyNodeSettlement` on the current state, then
`evaluateWorkflowProgress` on its answer, then the next settlement. -/
def Replay.next (c : WorkflowStartRequest X) : Replay X → HistoryItem X → Replay X
  | .empty, .created state => .settled state
  | .settled state, .applyCalled _ settlement stamp runtime =>
    match c.implementation.applyNodeSettlement stamp state settlement runtime with
    | .ok result => .applied result.state
    | .error _ => .stuck
  | .applied state, .evaluateCalled stamp runtime =>
    match c.implementation.evaluateWorkflowProgress stamp state runtime with
    | .ok result => .settled result.state
    | .error _ => .stuck
  | .settled state, .deadlocked report => .settled (deadlockState state report)
  | .settled state, .interrupted reason => .settled (interruptState state reason)
  | replay, item => if item.isTransition then .stuck else replay

/-- The fold of the transitions over the history. -/
def replay (c : WorkflowStartRequest X) (history : List (HistoryItem X)) : Replay X :=
  history.foldl (Replay.next c) .empty

/-- The replay that a state amounts to. -/
def Replay.ofState : Option (WorkflowState X) → Replay X
  | none => .empty
  | some state => .settled state

/-- The history accounts for the state. -/
def Tracks (c : WorkflowStartRequest X) (s : WorkflowRunInstance X) : Prop :=
  replay c s.history = .ofState s.state

theorem replay_append (history items : List (HistoryItem X)) :
    replay c (history ++ items) = items.foldl (Replay.next c) (replay c history) :=
  List.foldl_append

theorem next_of_not_isTransition (r : Replay X) {item : HistoryItem X}
    (h : item.isTransition = false) : r.next c item = r := by
  cases item <;> cases r <;> first | rfl | cases h

theorem foldl_next_of_not_isTransition (r : Replay X) {items : List (HistoryItem X)}
    (h : ∀ item ∈ items, item.isTransition = false) : items.foldl (Replay.next c) r = r := by
  induction items with
  | nil => rfl
  | cons item items ih =>
    rw [List.foldl_cons, next_of_not_isTransition r (h item List.mem_cons_self)]
    exact ih fun item hitem => h item (List.mem_cons_of_mem _ hitem)

theorem foldl_next_stuck (items : List (HistoryItem X)) :
    items.foldl (Replay.next c) .stuck = .stuck := by
  induction items with
  | nil => rfl
  | cons item items ih =>
    rw [List.foldl_cons]
    cases item <;> exact ih

theorem Extends.stuck {p : HistoryItem X → Bool} (h : Extends p s t)
    (hs : replay c s.history = .stuck) : replay c t.history = .stuck := by
  obtain ⟨items, hitems, -⟩ := h
  rw [hitems, replay_append, hs, foldl_next_stuck]

theorem Tracks.of_eq (h : Tracks c s) (hhistory : t.history = s.history)
    (hstate : t.state = s.state) : Tracks c t := by
  unfold Tracks
  rw [hhistory, hstate]
  exact h

/-- One more item. -/
theorem Tracks.push (h : Tracks c s) {item : HistoryItem X}
    (hhistory : t.history = s.history ++ [item])
    (hnext : (Replay.ofState s.state).next c item = .ofState t.state) : Tracks c t := by
  unfold Tracks
  rw [hhistory, replay_append, h, ← hnext]
  rfl

theorem Tracks.control {faults : List Fault} (h : Tracks c s) (hc : Control faults s t) :
    Tracks c t := by
  obtain ⟨items, hitems, -, hbook⟩ := hc.history
  unfold Tracks
  rw [hitems, replay_append, hc.state, foldl_next_of_not_isTransition]
  · exact h
  · intro item hitem
    have := hbook item hitem
    cases item <;> first | rfl | cases this

theorem Finished.tracks {outcome : WorkflowOutcome} (hu : Finished outcome s t)
    (h : Tracks c s) : Tracks c t := by
  cases hu with
  | already => exact h
  | finished => exact h.push rfl (next_of_not_isTransition _ rfl)

theorem Idled.tracks {state : WorkflowState X} {r : Except Fault Unit} (hu : Idled c state s r t)
    (hstate : s.state = some state) (h : Tracks c s) : Tracks c t := by
  cases hu with
  | snapshotThrew => exact h.push rfl (by rw [hstate]; rfl)
  | deadlocked _ _ _ _ _ _ hu => exact hu.tracks (h.push rfl (by rw [hstate]; rfl))
  | _ => exact h.of_eq rfl rfl

theorem Dispatched.tracks {state : WorkflowState X} {r : Except Fault (Option Frame)}
    (hu : Dispatched c state s r t) (hstate : s.state = some state) (h : Tracks c s) :
    Tracks c t := by
  cases hu with
  | launched => exact h.push rfl (next_of_not_isTransition _ rfl)
  | idle _ _ _ _ _ hu => exact hu.tracks hstate (h.of_eq rfl rfl)
  | idleThrew _ _ _ _ _ _ hu => exact hu.tracks hstate (h.of_eq rfl rfl)
  | _ => exact h.of_eq rfl rfl

theorem Concluded.tracks {state : WorkflowState X} {r : Except Fault (Option Frame)}
    (hu : Concluded c state s r t) (hstate : s.state = some state) (h : Tracks c s) :
    Tracks c t := by
  cases hu with
  | finished _ _ _ _ _ _ _ hu => exact hu.tracks (h.of_eq rfl rfl)
  | continued _ _ _ _ _ _ hu => exact hu.tracks hstate (h.of_eq rfl rfl)
  | _ => exact h.of_eq rfl rfl

theorem Started.tracks {r : Except Fault (Option Frame)} (hu : Started c s r t)
    (hs : s = initial) : Tracks c t := by
  subst hs
  cases hu with
  | threw => rfl
  | created _ _ _ _ _ _ hu => exact hu.tracks rfl rfl

theorem Interrupted.tracks {reason : String} {running : List Nat} {state : WorkflowState X}
    {r : Except Fault Unit} (hu : Interrupted reason running state s r t)
    (hstate : s.state = some state) (h : Tracks c s) : Tracks c t := by
  cases hu with
  | threw => exact h.push rfl (by rw [hstate]; rfl)
  | done _ _ _ _ _ hu => exact hu.tracks (h.push rfl (by rw [hstate]; rfl))

/-! ### Exceptions of the transitions -/

/-- The exception comes from `applyNodeSettlement` or from `evaluateWorkflowProgress`. -/
def Fault.ofTransition (fault : Fault) : Bool :=
  fault.site = .applyNodeSettlement || fault.site = .evaluateWorkflowProgress

/-- Some call of `applyNodeSettlement` or of `evaluateWorkflowProgress` has thrown. -/
def transitionThrew (s : WorkflowRunInstance X) : Prop :=
  ∃ fault ∈ s.history.filterMap (·.asFault), fault.ofTransition = true

/-- What the code after a transition can throw. -/
def Site.concluding : Site → Bool
  | .toJsonObject | .getWorkflowOutcome | .dispatch | .deadlock => true
  | _ => false

theorem not_ofTransition {fault : Fault} (h : fault.site.concluding = true) :
    fault.ofTransition = false := by
  unfold Fault.ofTransition
  cases hsite : fault.site <;> rw [hsite] at h <;> first | rfl | cases h

theorem Idled.fault_site {state : WorkflowState X} {fault : Fault}
    (h : Idled c state s (.error fault) t) : fault.site.concluding = true := by
  cases h <;> rfl

theorem Dispatched.fault_site {state : WorkflowState X} {fault : Fault}
    (h : Dispatched c state s (.error fault) t) : fault.site.concluding = true := by
  cases h with
  | threw => rfl
  | idleThrew _ _ _ _ _ _ hu => exact hu.fault_site

theorem Concluded.fault_site {state : WorkflowState X} {fault : Fault}
    (h : Concluded c state s (.error fault) t) : fault.site.concluding = true := by
  cases h with
  | continued _ _ _ _ _ _ hu => exact hu.fault_site
  | _ => rfl

theorem Started.fault_site {fault : Fault} (h : Started c s (.error fault) t) :
    fault.ofTransition = false := by
  cases h with
  | threw => rfl
  | created _ _ _ _ _ _ hu => exact not_ofTransition hu.fault_site

theorem Interrupted.fault_site {reason : String} {running : List Nat} {state : WorkflowState X}
    {fault : Fault} (h : Interrupted reason running state s (.error fault) t) :
    fault.ofTransition = false := by
  cases h
  rfl

/-- After an accepted settlement the history accounts for the state, unless the exception that
ends the code comes from a transition; then it accounts for no state any more. -/
theorem Applied.tracks {entry : Nat} {settlement : WorkflowNodeSettlement}
    {state : WorkflowState X} {r : Except Fault (Option Frame)}
    (hu : Applied c entry settlement state s r t) (hstate : s.state = some state)
    (h : Tracks c s) :
    if ∃ fault ∈ faultsOf r, fault.ofTransition = true then replay c t.history = .stuck
    else Tracks c t := by
  unfold Tracks at h
  rw [hstate] at h
  cases hu with
  | applyThrew message clock happly =>
    rw [if_pos ⟨_, List.mem_singleton_self _, rfl⟩, replay_append, h]
    simp [Replay.ofState, Replay.next, happly]
  | evaluateThrew applied happly _ _ _ _ _ hevaluate =>
    rw [if_pos ⟨_, List.mem_singleton_self _, rfl⟩, replay_append, replay_append, h]
    simp [Replay.ofState, Replay.next, happly, hevaluate]
  | evaluated applied happly _ _ _ _ evaluated hevaluate _ _ _ _ hu =>
    rw [if_neg]
    · refine hu.tracks rfl ?_
      unfold Tracks
      rw [replay_append, replay_append, h]
      simp [Replay.ofState, Replay.next, happly, hevaluate]
    · rintro ⟨fault, hfault, htransition⟩
      cases r with
      | ok frame => cases hfault
      | error thrown =>
        obtain rfl := List.mem_singleton.mp hfault
        rw [not_ofTransition hu.fault_site] at htransition
        cases htransition

theorem Started.extends {r : Except Fault (Option Frame)} (h : Started c s r t) :
    Extends (fun item => !item.bookkeeping) s t := by
  cases h with
  | threw => exact .of_eq rfl
  | created _ _ _ _ _ _ hu =>
    exact (Extends.single rfl rfl).trans (hu.extends.mono concluding_not_bookkeeping)

theorem Interrupted.extends {reason : String} {running : List Nat} {state : WorkflowState X}
    {r : Except Fault Unit} (h : Interrupted reason running state s r t) :
    Extends (fun item => !item.bookkeeping) s t := by
  cases h with
  | threw => exact .single rfl rfl
  | done _ _ _ _ _ hu =>
    exact (Extends.single rfl rfl).trans (hu.extends.mono concluding_not_bookkeeping)

/-- The history accounts for the state until a transition throws. -/
def Accounts (c : WorkflowStartRequest X) (s : WorkflowRunInstance X) : Prop :=
  (transitionThrew s ∧ replay c s.history = .stuck) ∨ (¬ transitionThrew s ∧ Tracks c s)

theorem Extends.transitionThrew_iff (h : Extends (fun item => !item.bookkeeping) s t) :
    transitionThrew t ↔ transitionThrew s := by
  obtain ⟨items, hitems, hp⟩ := h
  have hnone : items.filterMap (·.asFault) = [] := by
    rw [List.filterMap_eq_nil_iff]
    intro item hitem
    have := hp item hitem
    cases item <;> first | rfl | simp [HistoryItem.bookkeeping] at this
  unfold transitionThrew
  rw [hitems, List.filterMap_append, hnone, List.append_nil]

theorem Control.transitionThrew_iff {faults : List Fault} (h : Control faults s t) :
    transitionThrew t ↔ transitionThrew s ∨ ∃ fault ∈ faults, fault.ofTransition = true := by
  obtain ⟨items, hitems, hfaults, -⟩ := h.history
  unfold transitionThrew
  rw [hitems, List.filterMap_append, hfaults]
  simp only [List.mem_append, or_and_right, exists_or]

/-- The code of a step, followed by control. -/
theorem Accounts.then {faults : List Fault} (hextends : Extends (fun item => !item.bookkeeping) s u)
    (hc : Control faults u t) (h : Accounts c s)
    (hcode : Tracks c s → if ∃ fault ∈ faults, fault.ofTransition = true
      then replay c u.history = .stuck else Tracks c u) : Accounts c t := by
  have hthrew : transitionThrew t ↔
      transitionThrew s ∨ ∃ fault ∈ faults, fault.ofTransition = true := by
    rw [hc.transitionThrew_iff, hextends.transitionThrew_iff]
  rcases h with ⟨hs, hstuck⟩ | ⟨hs, htracks⟩
  · exact .inl ⟨hthrew.mpr (.inl hs), hc.extends.stuck (hextends.stuck hstuck)⟩
  · have hu := hcode htracks
    split at hu
    · next hfaults => exact .inl ⟨hthrew.mpr (.inr hfaults), hc.extends.stuck hu⟩
    · next hfaults =>
      refine .inr ⟨?_, hu.control hc⟩
      rw [hthrew, not_or]
      exact ⟨hs, hfaults⟩

/-- Code that does not call a transition. -/
theorem tracks_or_stuck {faults : List Fault} (hfaults : ∀ fault ∈ faults, fault.ofTransition = false)
    (h : Tracks c u) : if ∃ fault ∈ faults, fault.ofTransition = true
      then replay c u.history = .stuck else Tracks c u := by
  rw [if_neg]
  · exact h
  · rintro ⟨fault, hfault, htransition⟩
    rw [hfaults fault hfault] at htransition
    cases htransition

theorem mem_faultsOf {α : Type} {r : Except Fault α} {fault : Fault} (h : fault ∈ faultsOf r) :
    r = .error fault := by
  cases r with
  | ok _ => cases h
  | error thrown => rw [List.mem_singleton.mp h]

theorem accounts_step {l : Label} (hthreads : Threads s) (hstep : Stepped c s l t)
    (h : Accounts c s) : Accounts c t := by
  cases hstep with
  | control faults hfaults hc =>
    refine h.then (.of_eq rfl) hc (tracks_or_stuck fun fault hfault => ?_)
    simp [Fault.ofTransition, hfaults fault hfault]
  | started hidle r u _ hu hc =>
    refine h.then hu.extends hc fun _ => tracks_or_stuck (fun fault hfault => ?_)
      (hu.tracks (hthreads.idle hidle))
    exact (mem_faultsOf hfault ▸ hu).fault_site
  | launched _ _ _ _ _ _ _ hc =>
    refine h.then (.single rfl rfl) hc fun hs => tracks_or_stuck (fun _ hfault => by cases hfault)
      (hs.push rfl (next_of_not_isTransition _ rfl))
  | settled sh hshown state hstate hverdict r u _ hu hc =>
    obtain ⟨queue, hin⟩ := shownIn_of_shown hshown
    have hhistory : sh.closed.history = s.history := by
      obtain ⟨_, _, _, hclosed, -⟩ := hin.closed
      rw [hclosed]
    refine h.then (Extends.trans (.of_eq hhistory) hu.called.2.2) hc fun hs => ?_
    exact hu.tracks (hin.state.trans hstate) (hs.of_eq hhistory hin.state)
  | interrupted _ _ _ state hstate r u _ hu hc =>
    refine h.then hu.extends hc fun hs => tracks_or_stuck (fun fault hfault => ?_)
      (hu.tracks hstate hs)
    exact (mem_faultsOf hfault ▸ hu).fault_site

theorem accounts_iff (h : Accounts c s) : Tracks c s ↔ ¬ transitionThrew s := by
  rcases h with ⟨hs, hstuck⟩ | ⟨hs, htracks⟩
  · refine ⟨fun htracks => ?_, fun hnot => absurd hs hnot⟩
    unfold Tracks at htracks
    rw [hstuck] at htracks
    cases hstate : s.state <;> rw [hstate] at htracks <;> cases htracks
  · exact ⟨fun _ => hs, fun _ => htracks⟩

/-- **Every entry is applied at most once and closed for good, and the state is the replay of the
history as long as no transition throws.** -/
theorem serial_settlement {ls : List Label} (run : Run (step c) Free initial ls s) :
    (∀ entry, applies s entry ≤ 1) ∧
    (∀ entry status, Closed s entry status →
      ((∃ settlement stamp runtime, .applyCalled entry settlement stamp runtime ∈ s.history ∧
        settlement.status = status) ∨
      (status = .cancelled ∧ ∃ reason, .interrupted reason ∈ s.history)) ∧
      ∀ ms t, Run (step c) Free s ms t → Closed t entry status) ∧
    (replay c s.history = .ofState s.state ↔ ¬ transitionThrew s) := by
  have hJ : ∀ {ms u}, Run (step c) Free initial ms u → WellStarted u ∧ Threads u :=
    fun r => ⟨wellStarted_of_run r, threads_of_run r⟩
  have honce : Once s := by
    refine run.invariant_of hJ ⟨fun _ => Nat.zero_le 1, fun _ hne => absurd rfl hne, ?_⟩
      fun s l t _ hJ h hstep => once_step hJ.2 (stepped_of_step hJ.1 hstep) h
    rintro entry status ⟨hstatus, -⟩
    simp [WorkflowRunInstance.statusOf, initial] at hstatus
  have haccounts : Accounts c s := by
    refine run.invariant_of hJ (.inr ⟨?_, rfl⟩)
      fun s l t _ hJ h hstep => accounts_step hJ.2 (stepped_of_step hJ.1 hstep) h
    rintro ⟨fault, hfault, -⟩
    cases hfault
  refine ⟨honce.atMost, fun entry status hclosed => ⟨honce.applied entry status hclosed, ?_⟩,
    accounts_iff haccounts⟩
  intro ms t later
  exact later.invariant_of (fun r => hJ (run.trans r)) hclosed
    fun s l t _ hJ h hstep => closed_step hJ.2 (stepped_of_step hJ.1 hstep) h

theorem serial_settlement_pair :
    ∃ s, Run (step (pair refuseDone)) Free initial pairFinishes s ∧
      applies s 0 = 1 ∧ Closed s 0 .completed ∧
      replay (pair refuseDone) s.history = .ofState s.state := by
  obtain ⟨s, hs, hp⟩ := exists_run (step (pair refuseDone)) Free initial pairFinishes
    (fun s => applies s 0 == 1 && s.statusOf 0 == some .completed &&
      (s.history.filterMap (·.asFault)).all fun fault => !fault.ofTransition) (by decide)
  simp only [Bool.and_eq_true, beq_iff_eq, List.all_eq_true, Bool.not_eq_true'] at hp
  obtain ⟨⟨happlies, hstatus⟩, hfaults⟩ := hp
  refine ⟨s, hs, happlies, ⟨hstatus, by simp⟩, (serial_settlement hs).2.2.mpr ?_⟩
  rintro ⟨fault, hfault, htransition⟩
  rw [hfaults fault hfault] at htransition
  cases htransition

/-- One node, and an implementation whose `evaluateWorkflowProgress` throws. -/
def failing : WorkflowStartRequest Unit :=
  batchRequest [anyNode "only"] refuseDone fun _ => .error "progress failed"

/-- Start, launch the node, submit its outcome. -/
def failingSubmits : List Label :=
  [.start, .launchResolved .start, .resume .start, .submit 0 .null, .dequeue]

/-- `evaluateWorkflowProgress` throws after the settlement was accepted and applied: the entry is
completed, the state is the one between the two transitions, and no fold yields it. -/
theorem lost_settlement :
    ∃ s, Run (step failing) Free initial failingSubmits s ∧
      Closed s 0 .completed ∧ applies s 0 = 1 ∧ s.state.map (·.version) = some 1 ∧
      replay failing s.history ≠ .ofState s.state := by
  obtain ⟨s, hs, hp⟩ := exists_run (step failing) Free initial failingSubmits
    (fun s => s.statusOf 0 == some .completed && applies s 0 == 1 &&
      s.state.map (·.version) == some 1 &&
      match replay failing s.history with
      | .stuck => true
      | _ => false) (by decide)
  simp only [Bool.and_eq_true, beq_iff_eq] at hp
  obtain ⟨⟨⟨hstatus, happlies⟩, hversion⟩, hstuck⟩ := hp
  refine ⟨s, hs, ⟨hstatus, by simp⟩, happlies, hversion, fun heq => ?_⟩
  rw [heq] at hstuck
  cases hstate : s.state with
  | none => simp [hstate] at hversion
  | some state =>
    rw [hstate] at hstuck
    cases hstuck

end EphemeralAgent.Workflow
