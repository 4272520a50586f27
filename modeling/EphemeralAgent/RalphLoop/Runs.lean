import EphemeralAgent.RalphLoop.Settle
import EphemeralAgent.Workflow.Running

/-!
# Ralph loops under the workflow runtime

The launches and the applied settlements of a run of the ralph loop are a run of its protocol, and
the outcome of the run is the one that belongs to the position that the protocol has reached.

* `journal` — what the history of a run says to the protocol
* `Standing`, `inLoop_of_run` — where a run stands
* `ralph_protocol` — the protocol of the loop, for every run
-/

namespace EphemeralAgent.RalphLoop

open EphemeralAgent.Lib EphemeralAgent.Workflow
open EphemeralAgent.Pursuit (onlyKeys optionalField_positiveInt)

/-- A run of the ralph loop.  Its states are plain data, so their JSON projection never fails. -/
def ralphRequest (zodMessage : Json → String) (definition : WorkflowDefinition) (args : JsonObject)
    (toJson : RalphState → Json) : WorkflowStartRequest RalphFields where
  definition := definition
  implementation := ralphImplementation zodMessage
  args := args
  toJsonObject state := .ok (toJson state)

/-! ## The journal of a run -/

def eventOf (labels : List (NodeStartSpec × Option JsonObject)) :
    HistoryItem RalphFields → Option RalphEvent
  | .launched entry => (labels[entry]?.bind fun label => RalphNode.parse label.2).map .launched
  | .applyCalled _ settlement _ _ =>
    (RalphNode.parse settlement.metadata).map (.settled · (passes settlement))
  | _ => none

/-- The launches and the applied settlements, in order. -/
def journal (s : WorkflowRunInstance RalphFields) : List RalphEvent :=
  s.history.filterMap (eventOf s.labels)

/-- The item is a launch or a call of `applyNodeSettlement`. -/
def isTurn : HistoryItem RalphFields → Bool
  | .launched _ | .applyCalled .. => true
  | _ => false

/-- The item is a call of `applyNodeSettlement`. -/
def isApplied : HistoryItem RalphFields → Bool
  | .applyCalled .. => true
  | _ => false

/-- The journal has every launch and every applied settlement, and the protocol accepts it. -/
structure Journaled (maxAttempts : Nat) (s : WorkflowRunInstance RalphFields)
    (position : Position) : Prop where
  follows : follow maxAttempts (journal s) = some position
  complete : ∀ item ∈ s.history, isTurn item = true → (eventOf s.labels item).isSome = true
  launched : ∀ entry, .launched entry ∈ s.history → entry < s.labels.length

section Journal

variable {maxAttempts : Nat} {s t : WorkflowRunInstance RalphFields} {position : Position}

/-- Entries that are added do not change what the history says. -/
theorem eventOf_append (h : Journaled maxAttempts s position)
    {more : List (NodeStartSpec × Option JsonObject)} (hlabels : t.labels = s.labels ++ more)
    {item : HistoryItem RalphFields} (hitem : item ∈ s.history) :
    eventOf t.labels item = eventOf s.labels item := by
  cases item with
  | launched entry =>
    have hlt := h.launched entry hitem
    simp only [eventOf, hlabels, List.getElem?_append_left hlt]
  | _ => rfl

theorem journal_append {items : List (HistoryItem RalphFields)}
    {more : List (NodeStartSpec × Option JsonObject)} (h : Journaled maxAttempts s position)
    (hhistory : t.history = s.history ++ items) (hlabels : t.labels = s.labels ++ more) :
    journal t = journal s ++ items.filterMap (eventOf t.labels) := by
  unfold journal
  rw [hhistory, List.filterMap_append]
  exact congrArg (· ++ _) (List.filterMap_congr fun item hitem => eventOf_append h hlabels hitem)

/-- Other items say nothing to the protocol. -/
theorem Journaled.quiet (h : Journaled maxAttempts s position)
    (hextends : Extends (fun item => !isTurn item) s t) (hlabels : t.labels = s.labels) :
    Journaled maxAttempts t position := by
  obtain ⟨items, hitems, hall⟩ := hextends
  have hall : ∀ item ∈ items, isTurn item = false := fun item hitem => by simpa using hall item hitem
  have hnone : items.filterMap (eventOf t.labels) = [] := by
    rw [List.filterMap_eq_nil_iff]
    intro item hitem
    have := hall item hitem
    cases item <;> first | rfl | cases this
  have hjournal : journal t = journal s := by
    rw [journal_append h hitems (hlabels.trans (List.append_nil _).symm), hnone, List.append_nil]
  refine ⟨hjournal ▸ h.follows, fun item hitem hturn => ?_, fun entry hentry => ?_⟩
  · rw [hitems] at hitem
    rw [hlabels]
    rcases List.mem_append.mp hitem with hitem | hitem
    · exact h.complete item hitem hturn
    · rw [hall item hitem] at hturn
      cases hturn
  · rw [hitems] at hentry
    rw [hlabels]
    rcases List.mem_append.mp hentry with hentry | hentry
    · exact h.launched entry hentry
    · cases hall _ hentry

/-- One more event. -/
theorem Journaled.turn (h : Journaled maxAttempts s position)
    (item : HistoryItem RalphFields) (event : RalphEvent) {next : Position}
    {more : List (NodeStartSpec × Option JsonObject)}
    (hhistory : t.history = s.history ++ [item]) (hlabels : t.labels = s.labels ++ more)
    (hevent : eventOf t.labels item = some event)
    (hnext : position.next maxAttempts event = some next)
    (hlaunched : ∀ entry, item = .launched entry → entry < t.labels.length) :
    Journaled maxAttempts t next := by
  have hjournal : journal t = journal s ++ [event] := by
    rw [journal_append h hhistory hlabels, List.filterMap_cons_some hevent, List.filterMap_nil]
  refine ⟨?_, fun other hother hturn => ?_, fun entry hentry => ?_⟩
  · rw [hjournal, follow_append_singleton, h.follows]
    exact hnext
  · rw [hhistory] at hother
    rcases List.mem_append.mp hother with hother | hother
    · rw [eventOf_append h hlabels hother]
      exact h.complete other hother hturn
    · rw [List.mem_singleton.mp hother, hevent]
      rfl
  · rw [hhistory] at hentry
    rcases List.mem_append.mp hentry with hentry | hentry
    · rw [hlabels, List.length_append]
      exact Nat.lt_add_right _ (h.launched entry hentry)
    · exact hlaunched entry (List.mem_singleton.mp hentry).symm

/-- Nothing is left out of the journal. -/
theorem Journaled.counts (h : Journaled maxAttempts s position) :
    (journal s).length = s.history.countP isTurn ∧
      (journal s).countP (·.isSettled) = s.history.countP isApplied := by
  refine ⟨?_, ?_⟩
  · unfold journal
    rw [List.length_filterMap_eq_countP]
    refine List.countP_congr fun item hitem => ⟨fun hsome => ?_, h.complete item hitem⟩
    cases item <;> first | rfl | cases hsome
  · unfold journal
    rw [List.countP_filterMap]
    refine List.countP_congr fun item hitem => ?_
    have hcomplete := h.complete item hitem
    cases item with
    | launched entry =>
      simp only [eventOf, isApplied]
      cases s.labels[entry]?.bind _ <;> simp [RalphEvent.isSettled]
    | applyCalled entry settlement stamp runtime =>
      obtain ⟨event, hevent⟩ := Option.isSome_iff_exists.mp (hcomplete rfl)
      obtain ⟨node, -, rfl⟩ := Option.map_eq_some_iff.mp hevent
      rw [hevent]
      exact Iff.rfl
    | _ => exact Iff.rfl

end Journal

/-! ## Where a run stands -/

/-- The run belongs to the position: one node runs, or none and the run is over. -/
inductive Standing (definition : WorkflowDefinition) (maxAttempts : Nat)
    (s : WorkflowRunInstance RalphFields) : Position → Prop
  | running {node : RalphNode} {state : RalphState} (hstate : s.state = some state)
      (hloops : Loops maxAttempts state node) (hrunning : s.runningLabels = [node.metadata])
      (hfinished : s.finished = false) (houtcome : s.outcome = none) :
      Standing definition maxAttempts s (.running node)
  | stopped {position : Position} {node : RalphNode} {state : RalphState}
      (hposition : position = .idle node ∨ position = .running node)
      (hstate : s.state = some state) (hattempt : state.ext.attempt = node.attempt)
      (hrunning : s.runningLabels = [])
      (hsuccess : ∀ output, s.outcome ≠ some (.success output))
      (hfailure : ∀ reason output, s.outcome ≠ some (.failure reason output))
      (hbound : AllBound definition → ∀ reason report, s.outcome ≠ some (.deadlocked reason report)) :
      Standing definition maxAttempts s position
  | succeeded {attempt : Nat} {state : RalphState} (hstate : s.state = some state)
      (hends : Ends state attempt .success) (hrunning : s.runningLabels = [])
      (hfinished : s.finished = true) (output : Option Json)
      (houtcome : s.outcome = some (.success output)) :
      Standing definition maxAttempts s (.succeeded attempt)
  | failed {attempt : Nat} {state : RalphState} (hstate : s.state = some state)
      (hends : Ends state attempt .failure) (hrunning : s.runningLabels = [])
      (hfinished : s.finished = true) (reason : Option String) (output : Option Json)
      (houtcome : s.outcome = some (.failure reason output)) :
      Standing definition maxAttempts s (.failed attempt)

/-- The run has not begun, or it stands at the position that its journal reaches. -/
inductive Begun (definition : WorkflowDefinition) (maxAttempts : Nat)
    (s : WorkflowRunInstance RalphFields) : Prop
  | notYet (hstate : s.state = none) (houtcome : s.outcome = none)
      (hhistory : s.history.countP isTurn = 0) : Begun definition maxAttempts s
  | reached (position : Position) (hjournal : Journaled maxAttempts s position)
      (hstanding : Standing definition maxAttempts s position) : Begun definition maxAttempts s

/-- No suspended call has anything left to launch. -/
def NothingLeft (s : WorkflowRunInstance RalphFields) : Prop :=
  ∀ flow, ∀ frame ∈ s.frames flow, ∀ next ∈ frame.remaining, False

section Standing

variable {zodMessage : Json → String} {definition : WorkflowDefinition} {args : JsonObject}
  {toJson : RalphState → Json} {maxAttempts : Nat} {s t u : WorkflowRunInstance RalphFields}
  {position : Position}

theorem Standing.control {faults : List Fault} (h : Standing definition maxAttempts s position)
    (ht : Control faults s t) : Standing definition maxAttempts t position := by
  cases h with
  | running hstate hloops hrunning hfinished houtcome =>
    exact .running (ht.state.trans hstate) hloops (ht.runningLabels.trans hrunning)
      (ht.finished.trans hfinished) (ht.outcome.trans houtcome)
  | stopped hposition hstate hattempt hrunning hsuccess hfailure hbound =>
    rw [← ht.outcome] at hsuccess hfailure hbound
    exact .stopped hposition (ht.state.trans hstate) hattempt (ht.runningLabels.trans hrunning)
      hsuccess hfailure hbound
  | succeeded hstate hends hrunning hfinished output houtcome =>
    exact .succeeded (ht.state.trans hstate) hends (ht.runningLabels.trans hrunning)
      (ht.finished.trans hfinished) output (ht.outcome.trans houtcome)
  | failed hstate hends hrunning hfinished reason output houtcome =>
    exact .failed (ht.state.trans hstate) hends (ht.runningLabels.trans hrunning)
      (ht.finished.trans hfinished) reason output (ht.outcome.trans houtcome)

theorem quiet_of_bookkeeping (item : HistoryItem RalphFields) (h : item.bookkeeping = true) :
    (!isTurn item) = true := by
  cases item <;> first | rfl | cases h

theorem Begun.control {faults : List Fault} (h : Begun definition maxAttempts s)
    (ht : Control faults s t) : Begun definition maxAttempts t := by
  have hextends := ht.extends.mono quiet_of_bookkeeping
  cases h with
  | notYet hstate houtcome hhistory =>
    refine .notYet (ht.state.trans hstate) (ht.outcome.trans houtcome) ?_
    rw [hextends.countP fun item hitem => by simpa using hitem]
    exact hhistory
  | reached position hjournal hstanding =>
    exact .reached position (hjournal.quiet hextends ht.labels) (hstanding.control ht)

theorem finished_view {outcome : WorkflowOutcome} (h : Finished outcome s t)
    (hfinished : s.finished = false) :
    t.state = s.state ∧ t.nodes = s.nodes ∧ t.finished = true ∧ t.outcome = some outcome ∧
      Extends (fun item => !isTurn item) s t := by
  cases h with
  | already halready =>
    rw [hfinished] at halready
    cases halready
  | finished => exact ⟨rfl, rfl, rfl, rfl, .single rfl rfl⟩

/-- A dispatch of nothing, when not every role is bound. -/
theorem stopped_of_idled {node : RalphNode} {state : RalphState} {r : Except Fault Unit}
    (h : Idled (ralphRequest zodMessage definition args toJson) state s r t)
    (hbound : ¬ AllBound definition) (hstate : s.state = some state)
    (hloops : Loops maxAttempts state node) (hrunning : s.runningLabels = [])
    (hfinished : s.finished = false) (houtcome : s.outcome = none) :
    Standing definition maxAttempts t (.idle node) ∧ Extends (fun item => !isTurn item) s t ∧
      t.labels = s.labels := by
  have hquiet : ∀ {state' : RalphState}, t.state = some state' →
      state'.ext.attempt = state.ext.attempt → t.nodes = s.nodes →
      (t.outcome = none ∨ ∃ reason report, t.outcome = some (.deadlocked reason report)) →
        Standing definition maxAttempts t (.idle node) := by
    intro state' hstate' hattempt hnodes hout
    refine .stopped (.inl rfl) hstate' (hattempt.trans hloops.attempt)
      ((runningLabels_of_nodes hnodes).trans hrunning) ?_ ?_ fun hall => absurd hall hbound
    · intro output ho
      rcases hout with hout | ⟨_, _, hout⟩ <;> rw [hout] at ho <;> cases ho
    · intro reason output ho
      rcases hout with hout | ⟨_, _, hout⟩ <;> rw [hout] at ho <;> cases ho
  cases h with
  | waiting => exact ⟨hquiet hstate rfl rfl (.inl houtcome), .of_eq rfl, rfl⟩
  | threw => exact ⟨hquiet hstate rfl rfl (.inl houtcome), .of_eq rfl, rfl⟩
  | noReport => exact ⟨hquiet hstate rfl rfl (.inl houtcome), .of_eq rfl, rfl⟩
  | snapshotThrew => exact ⟨hquiet rfl rfl rfl (.inl houtcome), .single rfl rfl, rfl⟩
  | deadlocked _ report snapshot clock events _ hu =>
    obtain ⟨hstate', hnodes, -, hout, hextends⟩ := finished_view hu hfinished
    exact ⟨hquiet hstate' rfl hnodes (.inr ⟨_, _, hout⟩), (Extends.single rfl rfl).trans hextends,
      labels_of_nodes hnodes⟩

/-- **What is left after a snapshot**: the end of the run, or the launch of the next node. -/
theorem concluded_begun {state : RalphState} {r : Except Fault (Option Frame)}
    (h : Concluded (ralphRequest zodMessage definition args toJson) state s r t)
    (hstate : s.state = some state) (hjournal : Journaled maxAttempts s position)
    (hstands : Stands maxAttempts state position) (hposition : ∀ node, position ≠ .running node)
    (hrunning : s.runningLabels = []) (hfinished : s.finished = false) (houtcome : s.outcome = none) :
    Begun definition maxAttempts t ∧ ∀ frame ∈ callFrames r [], frame.remaining = [] := by
  cases h with
  | snapshotThrew message clock hjson => cases hjson
  | outcomeThrew hdone snapshot message clock events hanswer =>
    obtain ⟨stamp, hanswer⟩ := hanswer
    cases hanswer
  | finished hdone snapshot clock events outcome hanswer _ hu =>
    obtain ⟨stamp, answer, hanswer, rfl⟩ := hanswer
    obtain rfl : workflowOutcome state = answer := Except.ok.inj hanswer
    obtain ⟨hstate', hnodes, hfinished', hout, hextends⟩ := finished_view hu hfinished
    refine ⟨.reached position ?_ ?_, by simp [callFrames, pushFrame]⟩
    · exact hjournal.quiet hextends (labels_of_nodes hnodes)
    · have hrunning' : t.runningLabels = [] := (runningLabels_of_nodes hnodes).trans hrunning
      cases position with
      | idle node =>
        rw [hstands.notDone] at hdone
        cases hdone
      | running node => exact absurd rfl (hposition node)
      | succeeded attempt =>
        obtain ⟨output, houtput⟩ := workflowOutcome_success hstands
        rw [houtput] at hout
        exact .succeeded (hstate'.trans hstate) hstands hrunning' hfinished' output hout
      | failed attempt =>
        obtain ⟨reason, output, houtput⟩ := workflowOutcome_failure hstands
        rw [houtput] at hout
        exact .failed (hstate'.trans hstate) hstands hrunning' hfinished' reason output hout
  | continued hnotDone snapshot clock events _ _ hu =>
    obtain ⟨node, rfl⟩ : ∃ node, position = .idle node := by
      cases position with
      | idle node => exact ⟨node, rfl⟩
      | running node => exact absurd rfl (hposition node)
      | succeeded attempt =>
        rw [hstands.done] at hnotDone
        cases hnotDone
      | failed attempt =>
        rw [hstands.done] at hnotDone
        cases hnotDone
    have hidle := runningLabels_eq_nil_iff.mp hrunning
    -- with all roles bound there is one dispatch, that of the node
    have hdispatch : ∀ runtime dispatches, runtime.runningNodes = [] →
        dispatch zodMessage definition state runtime = dispatches →
          (∃ next, dispatches = [next] ∧ next.metadata = node.metadata) ∨
            dispatches = [] ∧ ¬ AllBound definition :=
      fun runtime dispatches hruntime => dispatch_stands hstands definition hruntime
    cases hu with
    | done hdone =>
      rw [hdone] at hnotDone
      cases hnotDone
    | threw _ message clock hthrew => cases hthrew
    | launched _ stamp first rest heq clock startedAt events =>
      rcases hdispatch _ _ (by exact hidle) (Except.ok.inj heq) with
        ⟨next, hnext, hmetadata⟩ | ⟨hnil, -⟩
      · obtain ⟨rfl, rfl⟩ := List.cons.inj hnext
        refine ⟨.reached (.running node) ?_ ?_, by simp [callFrames, pushFrame]⟩
        · refine hjournal.turn (.launched s.nodes.length) (.launched node) rfl
            (labels_launched rfl) ?_ ?_ ?_
          · simp [eventOf, WorkflowRunInstance.labels, hmetadata]
          · simp [Position.next]
          · intro entry hentry
            cases hentry
            simp [WorkflowRunInstance.labels]
        · refine .running hstate hstands ?_ hfinished houtcome
          rw [runningLabels_launched (s := s) rfl rfl, hrunning, List.nil_append, hmetadata]
      · cases hnil
    | idle _ stamp heq clock _ hidled =>
      rcases hdispatch _ _ (by exact hidle) (Except.ok.inj heq) with
        ⟨next, hnext, -⟩ | ⟨-, hbound⟩
      · cases hnext
      · obtain ⟨hstanding, hextends, hlabels⟩ := stopped_of_idled hidled hbound hstate hstands
          hrunning hfinished houtcome
        exact ⟨.reached _ (hjournal.quiet hextends hlabels) hstanding, by simp [callFrames, pushFrame]⟩
    | idleThrew _ stamp heq clock fault _ hidled =>
      rcases hdispatch _ _ (by exact hidle) (Except.ok.inj heq) with
        ⟨next, hnext, -⟩ | ⟨-, hbound⟩
      · cases hnext
      · obtain ⟨hstanding, hextends, hlabels⟩ := stopped_of_idled hidled hbound hstate hstands
          hrunning hfinished houtcome
        exact ⟨.reached _ (hjournal.quiet hextends hlabels) hstanding, by simp [callFrames]⟩

/-- A label of a node of the loop. -/
def IsNode (zodMessage : Json → String) (label : NodeStartSpec × Option JsonObject) : Prop :=
  ∃ node : RalphNode, label.2 = node.metadata ∧ label.1.outcome = outcomeFor zodMessage node.role

theorem ralph_dispatches :
    Dispatches (ralphRequest zodMessage definition args toJson) (IsNode zodMessage) := by
  intro stamp state runtime dispatches hdispatch next hnext
  obtain rfl : dispatch zodMessage definition state runtime = dispatches := Except.ok.inj hdispatch
  exact dispatch_for definition runtime hnext

/-- The settlement that is shown is one of the node that runs. -/
theorem settlementOf_shown {l : Label} {sh : Shown RalphFields} {node : RalphNode}
    (hlabelled : Labelled (IsNode zodMessage) s) (hshown : shown s l = some sh)
    (hrunning : s.runningLabels = [node.metadata]) : SettlementOf node sh.settlement := by
  obtain ⟨entry, hentry, hstatus, ⟨other, hother, hcontract⟩, hmetadata, hparses⟩ :=
    hlabelled.of_shown hshown
  have hnode : entry.metadata = node.metadata := by
    have hmem := mem_runningLabels hentry hstatus
    rw [hrunning] at hmem
    exact List.mem_singleton.mp hmem
  have heq : other = node := by
    have hparse : RalphNode.parse other.metadata = RalphNode.parse node.metadata :=
      congrArg RalphNode.parse (hother.symm.trans hnode)
    rw [RalphNode.parse_metadata, RalphNode.parse_metadata] at hparse
    exact Option.some.inj hparse
  subst heq
  refine ⟨hmetadata.trans hnode, fun accepted haccepted => ?_⟩
  obtain ⟨value, hvalue⟩ := hparses accepted haccepted
  have hcontract : entry.start.outcome = outcomeFor zodMessage other.role := hcontract
  rw [hcontract] at hvalue
  simp only [outcomeFor, parseOrThrow] at hvalue
  cases hpayload : Payload.parse other.role value with
  | none =>
    rw [hpayload] at hvalue
    cases hvalue
  | some payload =>
    rw [hpayload] at hvalue
    exact ⟨payload, (Except.ok.inj hvalue).symm⟩

/-- **An accepted settlement** is an event of the protocol, and the run goes on from there. -/
theorem applied_begun {sh : Shown RalphFields} {state : RalphState} {node : RalphNode}
    {r : Except Fault (Option Frame)} (hin : ShownIn s sh) (hof : SettlementOf node sh.settlement)
    (hu : Applied (ralphRequest zodMessage definition args toJson) sh.entry sh.settlement state
      sh.closed r u)
    (hjournal : Journaled maxAttempts s (.running node)) (hloops : Loops maxAttempts state node)
    (hrunning : s.runningLabels = [node.metadata]) (hfinished : s.finished = false)
    (houtcome : s.outcome = none) :
    Begun definition maxAttempts u ∧ ∀ frame ∈ callFrames r [], frame.remaining = [] := by
  obtain ⟨applied, happlied, hstands⟩ := settle_stands zodMessage hloops hof
  obtain ⟨clock', events', close, hclosed, -⟩ := hin.closed
  have hlabels := hin.labels
  have hidle : sh.closed.runningLabels = [] := by
    have hlength := hin.runningLabels_length
    rw [hrunning] at hlength
    exact List.length_eq_zero_iff.mp (Nat.succ.inj hlength)
  have hhistory : sh.closed.history = s.history := by rw [hclosed]
  cases hu with
  | applyThrew message clock happly =>
    have happly : applyNodeSettlement zodMessage state sh.settlement = .error message := happly
    rw [happlied] at happly
    cases happly
  | evaluateThrew _ _ _ _ _ _ _ hevaluate => cases hevaluate
  | evaluated result happly stamp _ runtime _ evaluated hevaluate clock events _ _ ht =>
    obtain rfl : applied = result := Except.ok.inj (happlied.symm.trans happly)
    obtain rfl : evaluateWorkflowProgress applied.state = evaluated := Except.ok.inj hevaluate
    -- the settlement is written to the journal before the state is evaluated
    have hturn : Journaled maxAttempts
        { sh.closed with
          history := sh.closed.history ++ [.applyCalled sh.entry sh.settlement sh.closed.clock
            sh.closed.runtimeSnapshot] }
        (node.settled maxAttempts (passes sh.settlement)) := by
      refine hjournal.turn (.applyCalled sh.entry sh.settlement sh.closed.clock
        sh.closed.runtimeSnapshot) (.settled node (passes sh.settlement)) ?_
        (hlabels.trans (List.append_nil _).symm) ?_ ?_ (fun entry hentry => by cases hentry)
      · rw [hhistory]
      · simp only [eventOf, hof.metadata, RalphNode.parse_metadata, Option.map_some]
      · simp only [Position.next, if_true, RalphNode.settled]
    refine concluded_begun ht rfl (hturn.quiet (.single rfl rfl) rfl) hstands ?_ hidle ?_ ?_
    · intro other
      unfold RalphNode.settled RalphNode.passed RalphNode.failed
      cases passes sh.settlement
      · simp only [Bool.false_eq_true, if_false]
        split <;> simp
      · simp only [if_true]
        split <;> simp
    · show sh.closed.finished = false
      rw [hclosed]
      exact hfinished
    · show sh.closed.outcome = none
      rw [hclosed]
      exact houtcome

/-- An interrupt stops the loop where it is. -/
theorem interrupted_begun {reason : String} {running : List Nat} {state : RalphState}
    {r : Except Fault Unit} (hu : Interrupted reason running state s r u)
    (hstate : s.state = some state) (hfinished : s.finished = false)
    (hall : ∀ entry, s.statusOf entry = some .running → entry ∈ running)
    (h : Begun definition maxAttempts s) : Begun definition maxAttempts u := by
  obtain ⟨hended, hlabels, houtcome⟩ := hu.view
  have hrunning := runningLabels_eq_nil_iff.mpr (hu.runningNodes hall)
  have hextends : Extends (fun item => !isTurn item) s u := by
    cases hu with
    | threw => exact .single rfl rfl
    | done snapshot completedAt clock events _ ht =>
      obtain ⟨-, -, -, -, hextends⟩ := finished_view ht hfinished
      exact (Extends.single rfl rfl).trans hextends
  cases h with
  | notYet hnone =>
    rw [hstate] at hnone
    cases hnone
  | reached position hjournal hstanding =>
    -- an interrupt ends an open run with an outcome of its own
    have hstop : ∀ {node : RalphNode}, position = .idle node ∨ position = .running node →
        state.ext.attempt = node.attempt → (∀ output, s.outcome ≠ some (.success output)) →
        (∀ reason output, s.outcome ≠ some (.failure reason output)) →
        (AllBound definition → ∀ reason report, s.outcome ≠ some (.deadlocked reason report)) →
          Standing definition maxAttempts u position := by
      intro node hposition hattempt hsuccess hfailure hbound
      refine .stopped hposition hended hattempt hrunning ?_ ?_ ?_
      · intro output ho
        rcases houtcome with hout | hout
        · exact hsuccess output (hout ▸ ho)
        · rw [hout] at ho
          cases ho
      · intro reason output ho
        rcases houtcome with hout | hout
        · exact hfailure reason output (hout ▸ ho)
        · rw [hout] at ho
          cases ho
      · intro hall reason report ho
        rcases houtcome with hout | hout
        · exact hbound hall reason report (hout ▸ ho)
        · rw [hout] at ho
          cases ho
    refine .reached position (hjournal.quiet hextends hlabels) ?_
    cases hstanding with
    | running hstate' hloops _ _ hnone =>
      obtain rfl := Option.some.inj (hstate.symm.trans hstate')
      refine hstop (.inr rfl) hloops.attempt ?_ ?_ ?_ <;> simp [hnone]
    | stopped hposition hstate' hattempt _ hsuccess hfailure hbound =>
      obtain rfl := Option.some.inj (hstate.symm.trans hstate')
      exact hstop hposition hattempt hsuccess hfailure hbound
    | succeeded _ _ _ hfinished' =>
      rw [hfinished] at hfinished'
      cases hfinished'
    | failed _ _ _ hfinished' =>
      rw [hfinished] at hfinished'
      cases hfinished'

end Standing

/-! ## Every run -/

section Run

variable {zodMessage : Json → String} {definition : WorkflowDefinition} {args : JsonObject}
  {toJson : RalphState → Json} {parsed : RalphArgs} {s t : WorkflowRunInstance RalphFields}

theorem nothingLeft_of_frames {frames : List Frame} (h : ∀ frame ∈ frames, frame.remaining = []) :
    ∀ frame ∈ frames, ∀ next ∈ frame.remaining, False := by
  intro frame hframe next hnext
  rw [h frame hframe] at hnext
  cases hnext

theorem callFrames_remaining {r : Except Fault (Option Frame)} {outer : List Frame}
    (hr : ∀ frame ∈ callFrames r [], frame.remaining = [])
    (houter : ∀ frame ∈ outer, ∀ next ∈ frame.remaining, False) :
    ∀ frame ∈ callFrames r outer, ∀ next ∈ frame.remaining, False := by
  cases r with
  | error => simp [callFrames]
  | ok frame =>
    intro other hother
    rcases List.mem_append.mp hother with hother | hother
    · exact nothingLeft_of_frames hr other (List.mem_append_left _ hother)
    · exact houter other hother

theorem begun_step (hargs : RalphArgs.parse args = some parsed) {l : Label} (hwell : WellStarted s)
    (hthreads : Threads s) (hlabelled : Labelled (IsNode zodMessage) s) (hnothing : NothingLeft s)
    (h : Begun definition parsed.maxAttempts s)
    (hstep : step (ralphRequest zodMessage definition args toJson) s l = some t) :
    NothingLeft t ∧ Begun definition parsed.maxAttempts t := by
  cases stepped_of_step hwell hstep with
  | control faults _ ht hframes =>
    exact ⟨fun flow => framesLeft_remaining (hframes flow) (hnothing flow), h.control ht⟩
  | started hidle r u _ hu ht hcall =>
    obtain rfl := hthreads.idle hidle
    cases hu with
    | threw message clock =>
      refine ⟨framesTo_remaining hcall hnothing (by simp [callFrames]), Begun.control ?_ ht⟩
      exact .notYet rfl rfl rfl
    | created state hcreate clock events _ _ hu =>
      have hcreated : createInitialState parsed = state := by
        unfold ralphRequest ralphImplementation at hcreate
        simp only [hargs] at hcreate
        exact Except.ok.inj hcreate
      subst hcreated
      have hcreated : ∀ item ∈ [HistoryItem.created (createInitialState parsed)],
          isTurn item = false := by simp [isTurn]
      obtain ⟨hbegun, hframes⟩ := concluded_begun hu rfl
        ⟨rfl, fun item hitem hturn => absurd hturn (by simp [hcreated item hitem]),
          fun _ h => by simp [initial] at h⟩
        (stands_createInitialState parsed) (by simp) rfl rfl rfl
      exact ⟨framesTo_remaining hcall hnothing (nothingLeft_of_frames hframes), hbegun.control ht⟩
  -- a dispatch is launched in the block that computes it
  | launched flow next rest outer hframes =>
    exact absurd (hnothing flow _ (hframes ▸ List.mem_cons_self) next List.mem_cons_self) id
  | settled sh hshown state hstate hverdict r u _ hu ht flow outer hcalls hcall =>
    obtain ⟨queue, hin⟩ := shownIn_of_shown hshown
    -- what settles was running, so the loop stands at a running node
    have hrunning : s.runningLabels ≠ [] := by
      intro hnil
      have hlength : _ = s.runningLabels.length := hin.runningLabels_length
      rw [hnil] at hlength
      cases hlength
    cases h with
    | notYet hnone =>
      rw [hstate] at hnone
      cases hnone
    | reached position hjournal hstanding =>
      cases hstanding with
      | running hstate' hloops hone hfinished houtcome =>
        obtain rfl := Option.some.inj (hstate.symm.trans hstate')
        obtain ⟨hbegun, hframes⟩ := applied_begun hin (settlementOf_shown hlabelled hshown hone) hu
          ⟨hjournal.follows, hjournal.complete, hjournal.launched⟩ hloops hone hfinished houtcome
        refine ⟨framesTo_remaining hcall hnothing (callFrames_remaining hframes ?_),
          hbegun.control ht⟩
        cases hcalls with
        | queued => simp
        | rejected _ reason remaining outer hrejected =>
          exact framesLeft_remaining (hrejected ▸ .resolved sh.entry remaining outer)
            (hnothing flow)
      | stopped _ _ _ hnil => exact absurd hnil hrunning
      | succeeded _ _ hnil => exact absurd hnil hrunning
      | failed _ _ hnil => exact absurd hnil hrunning
  | interrupted reason running hactive state hstate r u _ hu ht hcall =>
    obtain ⟨-, hfinished, hall⟩ := hthreads.interrupting reason running hactive
    refine ⟨framesTo_remaining hcall hnothing (by simp), Begun.control ?_ ht⟩
    exact interrupted_begun hu hstate hfinished (fun entry => (hall entry).mpr) h

theorem begun_of_run (hargs : RalphArgs.parse args = some parsed) {ls : List Label}
    (run : Run (step (ralphRequest zodMessage definition args toJson)) Free initial ls s) :
    Begun definition parsed.maxAttempts s := by
  have h : NothingLeft s ∧ Begun definition parsed.maxAttempts s := by
    refine run.invariant_of (I := fun s => NothingLeft s ∧ Begun definition parsed.maxAttempts s)
      (J := fun s => WellStarted s ∧ Threads s ∧ Labelled (IsNode zodMessage) s)
      (fun run => ⟨wellStarted_of_run run, threads_of_run run,
        labelled_of_run ralph_dispatches run⟩)
      ⟨fun flow frame hframe => ?_, .notYet rfl rfl rfl⟩
      fun s l t _ hJ hI hstep => begun_step hargs hJ.1 hJ.2.1 hJ.2.2 hI.1 hI.2 hstep
    cases flow <;> cases hframe
  exact h.2

theorem RalphArgs.parse_pos {object : JsonObject} (h : RalphArgs.parse object = some parsed) :
    0 < parsed.maxAttempts := by
  unfold RalphArgs.parse at h
  by_cases hkeys : onlyKeys object ["max_attempts"] = true
  · simp only [hkeys, Bool.not_true, Bool.false_eq_true, if_false] at h
    obtain ⟨maxAttempts, hmax, h⟩ := Option.bind_eq_some_iff.mp h
    obtain rfl := Option.some.inj h
    exact optionalField_positiveInt (Nat.succ_pos 2) hmax
  · simp [hkeys] at h

end Run

/-- What a run shows of the position where it stands. -/
theorem Standing.view {definition : WorkflowDefinition} {maxAttempts : Nat}
    {s : WorkflowRunInstance RalphFields} {position : Position}
    (h : Standing definition maxAttempts s position)
    (hreached : Reached maxAttempts (journal s) position) :
    s.runningNodes.length ≤ 1 ∧
    (∀ state, s.state = some state → state.ext.attempt ≤ maxAttempts) ∧
    ((∃ output, s.outcome = some (.success output)) ↔ ∃ attempt, position = .succeeded attempt) ∧
    (∀ reason output, s.outcome = some (.failure reason output) →
      ∀ state, s.state = some state → state.ext.attempt = maxAttempts) ∧
    (AllBound definition → ∀ reason report, s.outcome ≠ some (.deadlocked reason report)) := by
  have hlength : s.runningNodes.length = s.runningLabels.length := (List.length_map _).symm
  rw [hlength]
  cases h with
  | running hstate hloops hrunning hfinished houtcome =>
    rw [hrunning, hstate, houtcome]
    refine ⟨Nat.le_refl _, ?_, by simp, by simp, by simp⟩
    rintro _ ⟨⟩
    rw [hloops.attempt]
    exact hreached.bounded
  | stopped hposition hstate hattempt hrunning hsuccess hfailure hbound =>
    rw [hrunning, hstate]
    refine ⟨Nat.zero_le _, ?_, ?_, fun reason output ho => absurd ho (hfailure reason output),
      hbound⟩
    · rintro _ ⟨⟩
      rw [hattempt]
      rcases hposition with rfl | rfl
      · exact hreached.bounded
      · exact hreached.bounded
    · refine ⟨fun ⟨output, ho⟩ => absurd ho (hsuccess output), ?_⟩
      rintro ⟨attempt, rfl⟩
      rcases hposition with h | h <;> cases h
  | @succeeded attempt _ hstate hends hrunning _ output houtcome =>
    rw [hrunning, hstate, houtcome]
    refine ⟨Nat.zero_le _, ?_, ⟨fun _ => ⟨attempt, rfl⟩, fun _ => ⟨output, rfl⟩⟩, by simp, by simp⟩
    rintro _ ⟨⟩
    rw [hends.attempt]
    exact hreached.2.1
  | failed hstate hends hrunning _ reason output houtcome =>
    rw [hrunning, hstate, houtcome]
    refine ⟨Nat.zero_le _, ?_, by simp, ?_, by simp⟩
    · rintro _ ⟨⟩
      rw [hends.attempt]
      exact Nat.le_of_eq hreached.1
    · rintro _ _ - _ ⟨⟩
      rw [hends.attempt]
      exact hreached.1

/-- **The protocol of the ralph loop**, for every run of the workflow runtime, with any results of
its nodes.  At most one node runs; the launches and the applied settlements follow the protocol, so
that a role is launched only after the roles before it have passed in its attempt; they are bounded
by the attempts; the run succeeds when one attempt has passed all three roles, and only then; it
fails in the last attempt only; and it never deadlocks when every role is bound. -/
theorem ralph_protocol (zodMessage : Json → String) (definition : WorkflowDefinition)
    (toJson : RalphState → Json) {args : JsonObject} {parsed : RalphArgs}
    (hargs : RalphArgs.parse args = some parsed) {ls : List Label}
    {s : WorkflowRunInstance RalphFields}
    (run : Run (step (ralphRequest zodMessage definition args toJson)) Free initial ls s) :
    s.runningNodes.length ≤ 1 ∧
    (journal s).length = s.history.countP isTurn ∧
    (follow parsed.maxAttempts (journal s)).isSome = true ∧
    (∀ before node after, journal s = before ++ .launched node :: after →
      ∀ role, role.index < node.role.index →
        .settled { role, attempt := node.attempt } true ∈ before) ∧
    s.history.countP isApplied ≤ 3 * parsed.maxAttempts ∧
    (∀ state, s.state = some state → state.ext.attempt ≤ parsed.maxAttempts) ∧
    ((∃ output, s.outcome = some (.success output)) ↔
      ∃ attempt, ∀ role, role ≠ .done → .settled { role, attempt } true ∈ journal s) ∧
    (∀ reason output, s.outcome = some (.failure reason output) →
      ∀ state, s.state = some state → state.ext.attempt = parsed.maxAttempts) ∧
    (AllBound definition → ∀ reason report, s.outcome ≠ some (.deadlocked reason report)) := by
  have hmax := RalphArgs.parse_pos hargs
  cases begun_of_run hargs run with
  | notYet hstate houtcome hhistory =>
    -- before the first state there is neither a turn nor a node
    have hjournal : journal s = [] := by
      unfold journal
      rw [List.filterMap_eq_nil_iff]
      intro item hitem
      have := (List.countP_eq_zero.mp hhistory) item hitem
      cases item <;> first | rfl | exact absurd rfl this
    have happlied : s.history.countP isApplied = 0 := by
      rw [List.countP_eq_zero] at hhistory ⊢
      intro item hitem happlied
      refine hhistory item hitem ?_
      cases item <;> first | rfl | cases happlied
    have hnodes : s.runningNodes = [] := by
      rw [WorkflowRunInstance.runningNodes, (wellStarted_of_run run hstate).nodes]
      rfl
    rw [hjournal, hhistory, happlied, hnodes, hstate, houtcome]
    refine ⟨Nat.zero_le _, rfl, rfl, fun before node after h => ?_, Nat.zero_le _, by simp, ?_,
      by simp, by simp⟩
    · simp at h
    · constructor
      · rintro ⟨_, h⟩
        cases h
      · rintro ⟨_, h⟩
        simpa using h .planner (by simp)
  | reached position hjournal hstanding =>
    -- the journal fixes the position, and the standing what is seen there
    have hreached := reached_of_follow hmax hjournal.follows
    obtain ⟨hlength, hsettled⟩ := hjournal.counts
    obtain ⟨hrunning, hattempt, hsuccess, hfailure, hbound⟩ :=
      hstanding.view hreached
    refine ⟨hrunning, hlength, by rw [hjournal.follows]; rfl, fun before node after heq => ?_,
      hsettled ▸ hreached.settled_le, hattempt, hsuccess.trans hreached.succeeded_iff, hfailure,
      hbound⟩
    have hfollows := hjournal.follows
    rw [heq] at hfollows
    exact follow_launched hmax hfollows

/-- A loop whose three roles are agents. -/
def boundLoop : WorkflowDefinition where
  metadata := some
    [("nodeBindings", .obj
      [("planner", .obj [("kind", .str "agent"), ("name", .str "planner")]),
        ("reviewer", .obj [("kind", .str "agent"), ("name", .str "reviewer")]),
        ("critic", .obj [("kind", .str "agent"), ("name", .str "critic")])])]

def loopRequest : WorkflowStartRequest RalphFields :=
  ralphRequest (fun _ => "invalid") boundLoop [] fun _ => .null

/-- The payload of a role. -/
def payloadOf (role : Phase) (pass : Bool) : Json :=
  .obj [("pass", .bool pass), (role.textKey, .str "text"), ("summary", .str "summary")]

/-- The first planner does not pass; then all roles pass. -/
def secondAttempt : List Label :=
  [.start, .launchResolved .start, .resume .start, .submit 0 (payloadOf .planner false), .dequeue,
    .launchResolved .queue, .resume .queue, .submit 1 (payloadOf .planner true), .dequeue,
    .launchResolved .queue, .resume .queue, .submit 2 (payloadOf .reviewer true), .dequeue,
    .launchResolved .queue, .resume .queue, .submit 3 (payloadOf .critic true), .dequeue]

theorem ralph_protocol_second :
    ∃ s, Run (step loopRequest) Free initial secondAttempt s ∧
      s.history.countP isApplied = 4 ∧ s.history.countP isApplied ≤ 3 * 3 ∧
      ∃ output, s.outcome = some (.success output) := by
  obtain ⟨s, hs, hp⟩ := exists_run (step loopRequest) Free initial secondAttempt
    (fun s => s.history.countP isApplied = 4 ∧
      ∀ role ∈ [Phase.planner, .reviewer, .critic],
        RalphEvent.settled { role, attempt := 2 } true ∈ journal s)
    (by decide +kernel)
  obtain ⟨hcount, hall⟩ := of_decide_eq_true hp
  obtain ⟨-, -, -, -, hle, -, hsuccess, -⟩ :=
    ralph_protocol (fun _ => "invalid") boundLoop (fun _ => .null) rfl hs
  refine ⟨s, hs, hcount, hle, hsuccess.mpr ⟨2, fun role hrole => hall role ?_⟩⟩
  cases role <;> simp at hrole ⊢

end EphemeralAgent.RalphLoop
