import EphemeralAgent.Workflow.Stepped

/-!
# What a step means to an implementation

The view that the invariants of one implementation need: the state, the entries, the outcome, and
what is still to be launched or settled.

* `Concluded.ended` — what is left after a snapshot: nothing new, a deadlock, or a launch
* `Concluded.viewed` — what becomes of the state and the outcome meanwhile
* `shown_settlement` — where a settlement that is shown comes from
-/

namespace EphemeralAgent.Workflow

open EphemeralAgent.Lib

variable {X : Type} {c : WorkflowStartRequest X} {s t u : WorkflowRunInstance X}

/-! ## The end of an operation -/

/-- What the code after a snapshot leaves. -/
inductive Ended (c : WorkflowStartRequest X) (state : WorkflowState X) (s : WorkflowRunInstance X)
    (r : Except Fault (Option Frame)) (t : WorkflowRunInstance X) : Prop
  | quiet (hstate : t.state = s.state) (hnodes : t.nodes = s.nodes)
      (hr : r = .ok none ∨ ∃ fault, r = .error fault)
      (houtcome : t.outcome = s.outcome ∨ state.isWorkflowDone = true ∧ ∃ stamp answer,
        c.implementation.getWorkflowOutcome stamp state = .ok answer ∧
          t.outcome = some (answer.getD (defaultOutcome state)))
  | deadlocked (hdone : state.isWorkflowDone = false) (hrunning : s.runningNodes = [])
      (stamp : Stamp) (runtime : RuntimeSnapshot) (hruntime : runtime.runningNodes = [])
      (hdispatch : c.implementation.dispatch stamp c.definition state runtime = .ok [])
      (report : DeadlockReport) (hstate : t.state = some (deadlockState state report))
      (hnodes : t.nodes = s.nodes) (hr : r = .ok none ∨ ∃ fault, r = .error fault)
  | launched (hdone : state.isWorkflowDone = false) (stamp : Stamp) (runtime : RuntimeSnapshot)
      (hruntime : runtime.runningNodes = s.runningNodes) (first : WorkflowNodeDispatch)
      (rest : List WorkflowNodeDispatch)
      (hdispatch : c.implementation.dispatch stamp c.definition state runtime = .ok (first :: rest))
      (startedAt : Stamp) (hstate : t.state = s.state)
      (hnodes : t.nodes = s.nodes ++
        [{ start := first.start, metadata := first.metadata, status := .running, startedAt }])
      (hr : r = .ok (some { awaiting := some s.nodes.length, remaining := rest }))
      (houtcome : t.outcome = s.outcome)

theorem Finished.view {outcome : WorkflowOutcome} (h : Finished outcome s t) :
    t.state = s.state ∧ t.nodes = s.nodes ∧ (t.outcome = s.outcome ∨ t.outcome = some outcome) := by
  cases h with
  | already => exact ⟨rfl, rfl, .inl rfl⟩
  | finished => exact ⟨rfl, rfl, .inr rfl⟩

theorem Dispatched.ended {state : WorkflowState X} {r : Except Fault (Option Frame)}
    (h : Dispatched c state s r t) : Ended c state s r t := by
  cases h with
  | done => exact .quiet rfl rfl (.inl rfl) (.inl rfl)
  | threw => exact .quiet rfl rfl (.inr ⟨_, rfl⟩) (.inl rfl)
  | launched hdone stamp first rest hdispatch clock startedAt events =>
    exact .launched hdone stamp _ rfl first rest hdispatch startedAt rfl rfl rfl rfl
  | idle hdone stamp hdispatch clock _ hidled =>
    cases hidled with
    | waiting => exact .quiet rfl rfl (.inl rfl) (.inl rfl)
    | noReport => exact .quiet rfl rfl (.inl rfl) (.inl rfl)
    | deadlocked hrunning report snapshot clock events _ ht =>
      obtain ⟨hstate, hnodes, -⟩ := ht.view
      exact .deadlocked hdone hrunning stamp _ hrunning hdispatch report hstate hnodes (.inl rfl)
  | idleThrew hdone stamp hdispatch clock fault _ hidled =>
    cases hidled with
    | threw => exact .quiet rfl rfl (.inr ⟨_, rfl⟩) (.inl rfl)
    | snapshotThrew hrunning report =>
      exact .deadlocked hdone hrunning stamp _ hrunning hdispatch report rfl rfl (.inr ⟨_, rfl⟩)

theorem Ended.of_eq {state : WorkflowState X} {r : Except Fault (Option Frame)}
    (h : Ended c state u r t) (hstate : u.state = s.state) (hnodes : u.nodes = s.nodes)
    (houtcome : u.outcome = s.outcome) : Ended c state s r t := by
  have hrunning : u.runningNodes = s.runningNodes := by
    unfold WorkflowRunInstance.runningNodes
    rw [hnodes]
  cases h with
  | quiet hs hn hr ho => exact .quiet (hs.trans hstate) (hn.trans hnodes) hr (houtcome ▸ ho)
  | deadlocked hdone hidle stamp runtime hruntime hdispatch report hs hn hr =>
    exact .deadlocked hdone (hrunning ▸ hidle) stamp runtime hruntime hdispatch report hs
      (hn.trans hnodes) hr
  | launched hdone stamp runtime hruntime first rest hdispatch startedAt hs hn hr ho =>
    exact .launched hdone stamp runtime (hruntime.trans hrunning) first rest hdispatch startedAt
      (hs.trans hstate) (hnodes ▸ hn) (hnodes ▸ hr) (ho.trans houtcome)

theorem Concluded.ended {state : WorkflowState X} {r : Except Fault (Option Frame)}
    (h : Concluded c state s r t) : Ended c state s r t := by
  cases h with
  | snapshotThrew => exact .quiet rfl rfl (.inr ⟨_, rfl⟩) (.inl rfl)
  | outcomeThrew => exact .quiet rfl rfl (.inr ⟨_, rfl⟩) (.inl rfl)
  | finished hdone snapshot clock events outcome houtcome _ ht =>
    obtain ⟨stamp, answer, hanswer, rfl⟩ := houtcome
    obtain ⟨hstate, hnodes, hout⟩ := ht.view
    exact .quiet hstate hnodes (.inl rfl) (hout.imp id fun h => ⟨hdone, stamp, answer, hanswer, h⟩)
  | continued hdone snapshot clock events _ _ ht => exact ht.ended.of_eq rfl rfl rfl

/-- How the code after a snapshot can leave the state and the outcome. -/
inductive Viewed (c : WorkflowStartRequest X) (state : WorkflowState X)
    (s t : WorkflowRunInstance X) : Prop
  | kept (hstate : t.state = s.state) (houtcome : t.outcome = s.outcome)
  | finished (hdone : state.isWorkflowDone = true) (hstate : t.state = s.state) (stamp : Stamp)
      (answer : Option WorkflowOutcome)
      (hanswer : c.implementation.getWorkflowOutcome stamp state = .ok answer)
      (houtcome : t.outcome = some (answer.getD (defaultOutcome state)))
  | deadlocked (hdone : state.isWorkflowDone = false) (report : DeadlockReport)
      (hstate : t.state = some (deadlockState state report))
      (houtcome : t.outcome = s.outcome ∨
        t.outcome = some (.deadlocked report.reason report.details))

theorem Dispatched.viewed {state : WorkflowState X} {r : Except Fault (Option Frame)}
    (h : Dispatched c state s r t) : Viewed c state s t := by
  have hidled : ∀ {r : Except Fault Unit} {u : WorkflowRunInstance X},
      Idled c state u r t → state.isWorkflowDone = false → u.state = s.state →
        u.outcome = s.outcome → Viewed c state s t := by
    intro r u hidled hdone hstate houtcome
    cases hidled with
    | deadlocked _ report snapshot clock events _ ht =>
      obtain ⟨ht, -, hout⟩ := ht.view
      exact .deadlocked hdone report ht (hout.imp (·.trans houtcome) id)
    | snapshotThrew _ report => exact .deadlocked hdone report rfl (.inl houtcome)
    | _ => exact .kept hstate houtcome
  cases h with
  | idle hdone _ _ _ _ ht => exact hidled ht hdone rfl rfl
  | idleThrew hdone _ _ _ _ _ ht => exact hidled ht hdone rfl rfl
  | _ => exact .kept rfl rfl

theorem Concluded.viewed {state : WorkflowState X} {r : Except Fault (Option Frame)}
    (h : Concluded c state s r t) : Viewed c state s t := by
  cases h with
  | snapshotThrew => exact .kept rfl rfl
  | outcomeThrew => exact .kept rfl rfl
  | finished hdone snapshot clock events outcome houtcome _ ht =>
    obtain ⟨stamp, answer, hanswer, rfl⟩ := houtcome
    obtain ⟨hstate, -, hout | hout⟩ := ht.view
    · exact .kept hstate hout
    · exact .finished hdone hstate stamp answer hanswer hout
  | continued hdone snapshot clock events _ _ ht =>
    cases ht.viewed with
    | kept hstate houtcome => exact .kept hstate houtcome
    | finished hdone hstate stamp answer hanswer houtcome =>
      exact .finished hdone hstate stamp answer hanswer houtcome
    | deadlocked hdone report hstate houtcome => exact .deadlocked hdone report hstate houtcome

/-! ## Entries -/

/-- What the entries were launched with; it never changes. -/
def WorkflowRunInstance.labels (s : WorkflowRunInstance X) :
    List (NodeStartSpec × Option JsonObject) :=
  s.nodes.map fun entry => (entry.start, entry.metadata)

/-- The metadata of the entries that run. -/
def WorkflowRunInstance.runningLabels (s : WorkflowRunInstance X) : List (Option JsonObject) :=
  s.runningNodes.map (·.metadata)

theorem labels_of_nodes (h : t.nodes = s.nodes) : t.labels = s.labels := by
  rw [WorkflowRunInstance.labels, WorkflowRunInstance.labels, h]

theorem runningLabels_of_nodes (h : t.nodes = s.nodes) : t.runningLabels = s.runningLabels := by
  rw [WorkflowRunInstance.runningLabels, WorkflowRunInstance.runningLabels,
    WorkflowRunInstance.runningNodes, WorkflowRunInstance.runningNodes, h]

theorem runningLabels_eq (s : WorkflowRunInstance X) :
    s.runningLabels = (s.nodes.filter (·.status = .running)).map (·.metadata) := by
  rw [WorkflowRunInstance.runningLabels, WorkflowRunInstance.runningNodes, List.map_map]
  rfl

theorem Control.labels {faults : List Fault} (h : Control faults s t) : t.labels = s.labels := by
  have hrecord := congrArg (List.map fun entry => (entry.start, entry.metadata)) h.nodes
  rw [List.map_map, List.map_map] at hrecord
  exact hrecord

theorem Control.runningLabels {faults : List Fault} (h : Control faults s t) :
    t.runningLabels = s.runningLabels := by
  have hrecord := congrArg
    (fun nodes => (nodes.filter (·.status = .running)).map (·.metadata)) h.nodes
  simp only [List.filter_map, List.map_map] at hrecord
  rw [runningLabels_eq, runningLabels_eq]
  exact hrecord

/-- A change that a reading does not see. -/
theorem map_modify_of_eq {α β : Type} {f : α → α} {g : α → β} (h : ∀ a, g (f a) = g a)
    (as : List α) (index : Nat) : (as.modify index f).map g = as.map g := by
  apply List.ext_getElem?
  intro position
  simp only [List.getElem?_map, List.getElem?_modify]
  cases as[position]? with
  | none => rfl
  | some a =>
    simp only [Option.map_some, Functor.map]
    split
    · rw [h]
    · rfl

theorem ShownIn.labels {sh : Shown X} (h : ShownIn s sh) : sh.closed.labels = s.labels := by
  obtain ⟨clock, events, close, hclosed, hclose⟩ := h.closed
  rw [hclosed]
  exact map_modify_of_eq (fun entry => by rw [(hclose entry).2.1, (hclose entry).2.2.1]) _ _

theorem labels_launched {entry : WorkflowNodeRunEntry} (h : t.nodes = s.nodes ++ [entry]) :
    t.labels = s.labels ++ [(entry.start, entry.metadata)] := by
  rw [WorkflowRunInstance.labels, WorkflowRunInstance.labels, h, List.map_append]
  rfl

theorem runningLabels_launched {entry : WorkflowNodeRunEntry} (h : t.nodes = s.nodes ++ [entry])
    (hrunning : entry.status = .running) :
    t.runningLabels = s.runningLabels ++ [entry.metadata] := by
  rw [runningLabels_eq, runningLabels_eq, h, List.filter_append, List.map_append]
  simp [hrunning]

theorem map_cancelEntries {β : Type} {g : WorkflowNodeRunEntry → β}
    (h : ∀ (entry : WorkflowNodeRunEntry) completedAt,
      g { entry with status := .cancelled, completedAt } = g entry)
    (completedAt : Stamp) (running : List Nat) (nodes : List WorkflowNodeRunEntry) :
    (cancelEntries completedAt running nodes).map g = nodes.map g := by
  unfold cancelEntries
  induction running generalizing nodes with
  | nil => rfl
  | cons index rest ih =>
    rw [List.foldl_cons, ih]
    exact map_modify_of_eq (fun entry => h entry _) nodes index

theorem Interrupted.view {reason : String} {running : List Nat} {state : WorkflowState X}
    {r : Except Fault Unit} (h : Interrupted reason running state s r t) :
    t.state = some (interruptState state reason) ∧ t.labels = s.labels ∧
      (t.outcome = s.outcome ∨ t.outcome = some (.cancelled reason)) := by
  cases h with
  | threw => exact ⟨rfl, map_cancelEntries (fun _ _ => rfl) _ _ _, .inl rfl⟩
  | done snapshot completedAt clock events _ ht =>
    obtain ⟨hstate, hnodes, houtcome⟩ := ht.view
    exact ⟨hstate, (labels_of_nodes hnodes).trans (map_cancelEntries (fun _ _ => rfl) _ _ _),
      houtcome⟩

/-! ## Settlements -/

/-- A settlement that is shown is a payload that its node has submitted, or a failure of that
node. -/
theorem shown_settlement {l : Label} {sh : Shown X} (h : shown s l = some sh) :
    ∃ entry, s.nodes[sh.entry]? = some entry ∧ entry.status = .running ∧
      ((∃ payload outcome, entry.start.outcome.safeParse payload = .ok outcome.outcome ∧
          sh.settlement = completedSettlement entry outcome) ∨
        sh.settlement.status ≠ .completed ∧
          (sh.settlement.metadata = entry.metadata ∨ .settle sh.entry sh.settlement ∈ s.queue)) := by
  -- a payload is shown once it has been parsed
  have hsubmission : ∀ {s : WorkflowRunInstance X} {index entry payload},
      shownSubmission index entry payload s = some sh → entry.status = .running ∧
        ∃ payload outcome, entry.start.outcome.safeParse payload = .ok outcome.outcome ∧
          sh.settlement = completedSettlement entry outcome := by
    intro s index entry payload hsh
    unfold shownSubmission at hsh
    split at hsh
    · next hrunning =>
      cases hparse : entry.start.outcome.safeParse payload with
      | error issues => simp [hparse] at hsh
      | ok parsed =>
        simp only [hparse, Option.some.injEq] at hsh
        subst hsh
        exact ⟨hrunning, payload, _, hparse, rfl⟩
    · cases hsh
  -- an end that is not a completion is shown as it is
  have hsettlement : ∀ {s : WorkflowRunInstance X} {index entry settlement},
      shownSettlement index entry settlement s = some sh →
        entry.status = .running ∧ sh.settlement = settlement ∧ settlement.status ≠ .completed := by
    intro s index entry settlement hsh
    unfold shownSettlement at hsh
    split at hsh
    · cases hsh
    · next hnot =>
      rw [not_or, not_not] at hnot
      simp only [Option.some.injEq] at hsh
      subst hsh
      exact ⟨hnot.2, rfl, hnot.1⟩
  unfold shown at h
  split at h
  · split at h
    · next hactive hqueue =>
      obtain ⟨entry, hentry, hsh⟩ := Option.bind_eq_some_iff.mp h
      -- the head of the queue is a submission
      obtain ⟨hrunning, hpayload⟩ := hsubmission hsh
      exact ⟨entry, by rw [shownSubmission_entry hsh]; exact hentry, hrunning, .inl hpayload⟩
    · next hactive hqueue =>
      obtain ⟨entry, hentry, hsh⟩ := Option.bind_eq_some_iff.mp h
      obtain ⟨hrunning, hsettled, hstatus⟩ := hsettlement hsh
      have hindex := shownSettlement_entry hsh
      refine ⟨entry, by rw [hindex]; exact hentry, hrunning, .inr ⟨by rw [hsettled]; exact hstatus,
        .inr ?_⟩⟩
      rw [hqueue, hsettled, hindex]
      exact List.mem_cons_self
    · cases h
  · split at h
    · obtain ⟨entry, hentry, hsh⟩ := Option.bind_eq_some_iff.mp h
      obtain ⟨hrunning, hsettled, hstatus⟩ := hsettlement hsh
      have hindex := shownSettlement_entry hsh
      refine ⟨entry, by rw [hindex]; exact hentry, hrunning, .inr ⟨by rw [hsettled]; exact hstatus,
        .inl ?_⟩⟩
      rw [hsettled]
      rfl
    · cases h
  · cases h

end EphemeralAgent.Workflow
