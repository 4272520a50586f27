import EphemeralAgent.Engine.StreamedTurns
import EphemeralAgent.LlmClient.Kept

/-!
# What a run keeps of its turns is what it has shown of them

* `Recalls` — a message with the events that its turn has shown in front of it
* `KeptItem` — what an entry of the conversation and an outcome say of the turn before them
* `Stands`, `kept_step`, `kept_of_run` — the invariant, one block, and a run of the loop
* `kept_run_of_run` — the turns of the whole are completed as they have been shown
* `streamed_kept` — **an answer, a salvaged answer and the outcome repeat what has been shown**
-/

namespace EphemeralAgent.Engine

open Lib LlmClient StreamClient StreamingRun

/-! ## What is kept of a turn -/

section Kept

variable {T : Type}

/-- The last turn is completed by this message, which repeats what the turn has shown. -/
def Recalls (shown : List (List LlmStreamEvent)) (message : Message) : Prop :=
  ∃ before deltas usage stopReason,
    shown = before ++ [deltas ++ [.assistantMessageComplete message usage stopReason]] ∧
      Keeps deltas message

/-- What is kept, next to the turns that have been shown. -/
def KeptItem (shown : List (List LlmStreamEvent)) : RunItem T → Prop
  | .appended (.assistant message) => Recalls shown message.val
  | .appended (.assistantPartial _ message) =>
    ∃ before last, shown = before ++ [last] ∧
      message.content = AgentRun.salvaged (textOf last) (reasoningOf last)
  | .finished outcome _ =>
    ∀ text, outcome.status = .completed (.text text) →
      ∃ before last, shown = before ++ [last] ∧ text = textOf last
  | _ => True

/-- Whatever a run keeps is kept as it is at that point. -/
def KeptHistory (history : List (RunItem T)) : Prop :=
  ∀ before item after, history = before ++ item :: after → KeptItem (turns before) item

/-- The text of the message is the text that the turn has shown. -/
theorem Recalls.text {shown : List (List LlmStreamEvent)} {message : Message}
    (h : Recalls shown message) : ∃ before last, shown = before ++ [last] ∧
      assistantText message = textOf last := by
  obtain ⟨before, deltas, usage, stopReason, rfl, hkeeps⟩ := h
  exact ⟨before, _, rfl, (hkeeps.complete message usage stopReason).text⟩

theorem keptHistory_nil : KeptHistory ([] : List (RunItem T)) := by
  intro before item after heq
  simp at heq

/-- Nothing of a turn is shown in front of the last item of a block. -/
theorem KeptHistory.append {history items : List (RunItem T)} (h : KeptHistory history)
    (hsilent : Silent items.dropLast) (hitems : ∀ item ∈ items, KeptItem (turns history) item) :
    KeptHistory (history ++ items) := by
  intro before item after heq
  rcases List.append_eq_append_iff.mp heq with ⟨more, rfl, hmore⟩ | ⟨more, hbefore, hmore⟩
  · have hquiet : Silent more := by
      intro other hother
      refine hsilent other ?_
      rw [hmore, List.dropLast_append_cons]
      exact List.mem_append_left _ hother
    rw [turns_append_silent hquiet]
    refine hitems item ?_
    rw [hmore]
    simp
  · cases more with
    | nil =>
      rw [List.append_nil] at hbefore
      rw [List.nil_append] at hmore
      rw [← hbefore]
      refine hitems item ?_
      rw [← hmore]
      exact List.mem_cons_self
    | cons first rest =>
      rw [List.cons_append, List.cons.injEq] at hmore
      obtain ⟨rfl, -⟩ := hmore
      exact h before item rest hbefore

theorem Silent.dropLast {items : List (RunItem T)} (h : Silent items) : Silent items.dropLast :=
  fun item hitem => h item (List.dropLast_subset items hitem)

theorem AtTurn.silent {next : AgentRun T × List (RunItem T)} (h : AtTurn next) :
    Silent next.2.dropLast := by
  cases h with
  | outside hsilent => exact hsilent.dropLast
  | starts before messages hitems hsilent =>
    rw [hitems, List.dropLast_concat]
    exact hsilent

end Kept

/-! ## The loop -/

section Loop

variable {T : Type} {cfg : LoopConfig} {s : AgentRun T} {shown : List (List LlmStreamEvent)}
  {next : AgentRun T × List (RunItem T)}

/-- What the loop holds of its last turn. -/
def Stands (shown : List (List LlmStreamEvent)) (s : AgentRun T) : Prop :=
  match s.phase with
  | .streaming text reasoning =>
    s.pendingText = none ∧ ∃ before last, shown = before ++ [last] ∧ text = textOf last ∧
      reasoning = reasoningOf last
  | .completing text reasoning message _ =>
    s.pendingText = none ∧ Recalls shown message.val ∧ ∃ before last, shown = before ++ [last] ∧
      text = textOf last ∧ reasoning = reasoningOf last
  | .exited => True
  | _ => ∀ message, s.pendingText = some message → Recalls shown message.val

theorem kept_exit {status : FinishStatus T} (s : AgentRun T)
    (h : ∀ text, status = .completed (.text text) →
      ∃ before last, shown = before ++ [last] ∧ text = textOf last) :
    ∀ item ∈ (s.exit status).2, KeptItem shown item := by
  intro item hitem
  rcases mem_exit hitem with ⟨-, rfl⟩ | ⟨task, rfl⟩
  · exact h
  · trivial

theorem kept_fail (error : LoopError) (s : AgentRun T) :
    ∀ item ∈ (s.fail error).2, KeptItem shown item :=
  kept_exit s fun _ hstatus => absurd hstatus (classifyLoopError_ne_completed error _ _)

theorem kept_drain (cfg : LoopConfig) (s : AgentRun T) :
    ∀ item ∈ (s.drain cfg).2, KeptItem shown item := by
  obtain ⟨notes, -, -, heq⟩ := drain_conversation cfg s
  rw [heq]
  intro item hitem
  rcases List.mem_append.mp hitem with hitem | hitem
  · obtain ⟨message, -, rfl⟩ := List.mem_map.mp hitem
    trivial
  · obtain ⟨message, -, rfl⟩ := List.mem_map.mp hitem
    trivial

theorem kept_append {items more : List (RunItem T)} (h : ∀ item ∈ items, KeptItem shown item)
    (hmore : ∀ item ∈ more, KeptItem shown item) : ∀ item ∈ items ++ more, KeptItem shown item := by
  intro item hitem
  rcases List.mem_append.mp hitem with hitem | hitem
  · exact h item hitem
  · exact hmore item hitem

/-- A turn starts, or the budget is spent. -/
theorem kept_startTurn (cfg : LoopConfig) (s : AgentRun T) (history : List (RunItem T))
    (shown : List (List LlmStreamEvent)) :
    Stands (turns (history ++ (s.startTurn cfg).2)) (s.startTurn cfg).1 ∧
      ∀ item ∈ (s.startTurn cfg).2, KeptItem shown item := by
  unfold AgentRun.startTurn
  by_cases hturns : s.turns ≥ cfg.maxTurns
  · rw [if_pos hturns]
    exact ⟨trivial, kept_exit s fun _ hstatus => by cases hstatus⟩
  · rw [if_neg hturns]
    have hsilent : Silent [RunItem.turnStarted (T := T) (s.turns + 1)] := by
      intro item hitem
      rw [List.mem_singleton.mp hitem]
      rfl
    refine ⟨⟨rfl, turns history, [], ?_, rfl, rfl⟩, ?_⟩
    · exact turns_append_requested hsilent s.conversation
    · intro item hitem
      simp only [List.mem_cons, List.not_mem_nil, or_false] at hitem
      rcases hitem with rfl | rfl <;> trivial

/-- **From the head of the loop.** -/
theorem kept_head (history : List (RunItem T))
    (h : ∀ message, s.pendingText = some message → Recalls (turns history) message.val)
    (hnext : Head cfg s next) :
    Stands (turns (history ++ next.2)) next.1 ∧
      ∀ item ∈ next.2, KeptItem (turns history) item := by
  have hdrained : turns (history ++ (s.drain cfg).2) = turns history :=
    turns_append_silent (silent_drain cfg s)
  cases hnext with
  | cancelled => exact ⟨trivial, kept_exit s fun _ hstatus => by cases hstatus⟩
  | completed message hlive hmode htext =>
    refine ⟨trivial, kept_append (kept_drain cfg s) (kept_exit _ fun text hstatus => ?_)⟩
    cases hstatus
    exact (h message htext).text
  | parked =>
    refine ⟨?_, kept_drain cfg s⟩
    show ∀ message, s.pendingText = some message → Recalls (turns _) message.val
    rw [hdrained]
    exact h
  | turn =>
    obtain ⟨hstands, hitems⟩ := kept_startTurn cfg (s.drain cfg).1
      (history ++ (s.drain cfg).2) (turns history)
    rw [List.append_assoc] at hstands
    exact ⟨hstands, kept_append (kept_drain cfg s) hitems⟩

/-- A turn is committed. -/
theorem kept_commitTurn (cfg : LoopConfig) {history : List (RunItem T)} {message : AssistantMessage}
    {usage : UsageSnapshot} (hpending : s.pendingText = none)
    (h : Recalls (turns history) message.val) :
    Stands (turns (history ++ (s.commitTurn cfg message usage).2)) (s.commitTurn cfg message usage).1 ∧
      ∀ item ∈ (s.commitTurn cfg message usage).2, KeptItem (turns history) item := by
  rw [turns_append_silent atTurn_commitTurn.1]
  have hcommitted : ∀ rest : List (RunItem T), (∀ item ∈ rest, KeptItem (turns history) item) →
      ∀ item ∈ (s.appendAssistant message).2 ++ .committed usage :: rest,
        KeptItem (turns history) item := by
    intro rest hrest
    refine kept_append (fun item hitem => ?_) fun item hitem => ?_
    · rw [List.mem_singleton.mp hitem]
      exact h
    · rcases List.mem_cons.mp hitem with rfl | hitem
      · trivial
      · exact hrest item hitem
  have hboundary : ∀ facts : TurnFacts, ∀ item ∈ [RunItem.turnBoundary (T := T) facts],
      KeptItem (turns history) item := by
    intro facts item hitem
    rw [List.mem_singleton.mp hitem]
    trivial
  unfold AgentRun.commitTurn
  dsimp only
  split
  · split
    · refine ⟨trivial, hcommitted _ (kept_exit _ fun text hstatus => ?_)⟩
      cases hstatus
      exact h.text
    · refine ⟨fun other hother => ?_, hcommitted _ (hboundary _)⟩
      obtain ⟨-, heq⟩ := Option.ite_none_right_eq_some.mp hother
      cases heq
      exact h
  · refine ⟨fun other hother => ?_, hcommitted _ (hboundary _)⟩
    cases hpending.symm.trans hother

/-- A batch is committed. -/
theorem kept_commitBatch (cfg : LoopConfig) (history : List (RunItem T)) {calls : List ToolUseBlock}
    {results : List ToolCallResult} {accepted : Option T} {instant : Nat}
    (h : ∀ message, s.pendingText = some message → Recalls (turns history) message.val) :
    Stands (turns (history ++ (s.commitBatch cfg calls results accepted instant).2))
        (s.commitBatch cfg calls results accepted instant).1 ∧
      ∀ item ∈ (s.commitBatch cfg calls results accepted instant).2,
        KeptItem (turns history) item := by
  let blocks := (normalizeBatch calls results instant).map (projectToolResult cfg.stringify)
  have hsilent : Silent (s.appendToolResults blocks).2 := by
    intro item hitem
    rw [List.mem_singleton.mp hitem]
    rfl
  have happended : ∀ item ∈ (s.appendToolResults blocks).2, KeptItem (turns history) item := by
    intro item hitem
    rw [List.mem_singleton.mp hitem]
    trivial
  have hsame : turns (history ++ (s.appendToolResults blocks).2) = turns history :=
    turns_append_silent hsilent
  unfold AgentRun.commitBatch
  dsimp only
  split
  · split
    · exact ⟨trivial, kept_append happended (kept_exit _ fun _ hstatus => by cases hstatus)⟩
    · exact ⟨trivial, kept_append happended (kept_exit _ fun _ hstatus => by cases hstatus)⟩
  · split
    · exact ⟨trivial, kept_append happended (kept_exit _ fun _ hstatus => by cases hstatus)⟩
    · obtain ⟨hstands, hitems⟩ := kept_head (s := (s.appendToolResults blocks).1)
        (history ++ (s.appendToolResults blocks).2) (by rw [hsame]; exact h)
        (loopHead_head cfg _)
      rw [hsame] at hitems
      rw [List.append_assoc] at hstands
      exact ⟨hstands, kept_append happended hitems⟩

/-- A turn dies: what is salvaged is what it has shown. -/
theorem kept_died {text reasoning : String} {error : LoopError}
    (h : ∃ before last, shown = before ++ [last] ∧ text = textOf last ∧
      reasoning = reasoningOf last) :
    ∀ item ∈ AgentRun.salvage s.handle.aborted error text reasoning ++ (s.fail error).2,
      KeptItem shown item := by
  refine kept_append (fun item hitem => ?_) (kept_fail error s)
  obtain ⟨before, last, rfl, rfl, rfl⟩ := h
  unfold AgentRun.salvage at hitem
  dsimp only at hitem
  split at hitem
  · split at hitem
    · cases hitem
    · rw [List.mem_singleton.mp hitem]
      exact ⟨before, last, rfl, rfl⟩
  · cases hitem

/-- A turn is completed by a message that repeats what the turn has shown. -/
def RepeatsShown (r : AgentHistory T) : RunLabel T → Prop
  | .complete message _ _ => ∀ before deltas, turns r.history = before ++ [deltas] →
      Keeps deltas message.val
  | _ => True

/-- What is kept, and what the loop holds. -/
structure KeptRun (r : AgentHistory T) : Prop where
  stands : Stands (turns r.history) r.state
  kept : KeptHistory r.history

/-- One more event of the turn is shown. -/
theorem kept_streamed {history : List (RunItem T)} {text reasoning : String}
    (event : LlmStreamEvent) (hstands : Stands (turns history) s)
    (hphase : s.phase = .streaming text reasoning) :
    s.pendingText = none ∧ ∃ before last, turns history = before ++ [last] ∧
      turns (history ++ [.streamed event]) = before ++ [last ++ [event]] ∧
        text ++ event.asText.getD "" = textOf (last ++ [event]) ∧
          reasoning ++ event.asReasoning.getD "" = reasoningOf (last ++ [event]) := by
  unfold Stands at hstands
  rw [hphase] at hstands
  obtain ⟨hpending, before, last, hturns, rfl, rfl⟩ := hstands
  exact ⟨hpending, before, last, hturns, turns_append_streamed hturns event, by simp, by simp⟩

/-- A block that shows nothing of a turn, and keeps nothing of one. -/
theorem KeptRun.quiet {r : AgentHistory T} (h : KeptRun r) {state : AgentRun T}
    {items : List (RunItem T)} (hsilent : Silent items)
    (hitems : ∀ item ∈ items, KeptItem (turns r.history) item)
    (hstands : Stands (turns r.history) state) :
    KeptRun { state, history := r.history ++ items } where
  stands := by
    rw [turns_append_silent hsilent]
    exact hstands
  kept := h.kept.append hsilent.dropLast hitems

theorem KeptRun.shows {r : AgentHistory T} (h : KeptRun r) {state : AgentRun T}
    {event : LlmStreamEvent}
    (hstands : Stands (turns (r.history ++ [.streamed event])) state) :
    KeptRun { state, history := r.history ++ [.streamed event] } where
  stands := hstands
  kept := by
    refine h.kept.append (fun _ hitem => by cases hitem) fun item hitem => ?_
    rw [List.mem_singleton.mp hitem]
    trivial

/-- **One block of the loop.** -/
theorem kept_step {r : AgentHistory T} {label : RunLabel T} (h : KeptRun r)
    (hlabel : RepeatsShown r label) (hstep : r.state.step cfg label = some next) :
    KeptRun { state := next.1, history := r.history ++ next.2 } := by
  have hstands := h.stands
  cases fired_of_step hstep with
  | @textDelta text reasoning delta hphase =>
    obtain ⟨hpending, before, last, -, hturns, htext, hreasoning⟩ :=
      kept_streamed (.assistantTextDelta delta) hstands hphase
    refine h.shows ⟨hpending, before, _, hturns, htext, ?_⟩
    rw [← hreasoning]
    exact String.append_empty.symm
  | @reasoningDelta text reasoning delta hphase =>
    obtain ⟨hpending, before, last, -, hturns, htext, hreasoning⟩ :=
      kept_streamed (.reasoningDelta delta) hstands hphase
    refine h.shows ⟨hpending, before, _, hturns, ?_, hreasoning⟩
    rw [← htext]
    exact String.append_empty.symm
  | @toolUseDelta text reasoning toolUseId name input hphase =>
    obtain ⟨hpending, before, last, -, hturns, htext, hreasoning⟩ :=
      kept_streamed (.toolUseDelta toolUseId name input) hstands hphase
    refine h.shows ?_
    unfold Stands
    rw [hphase]
    refine ⟨hpending, before, _, hturns, ?_, ?_⟩
    · rw [← htext]
      exact String.append_empty.symm
    · rw [← hreasoning]
      exact String.append_empty.symm
  | @complete text reasoning message usage stopReason hphase =>
    obtain ⟨hpending, before, last, hlast, hturns, htext, hreasoning⟩ :=
      kept_streamed (.assistantMessageComplete message.val usage stopReason) hstands hphase
    refine h.shows ⟨hpending, ⟨before, last, usage, stopReason, hturns, hlabel before last hlast⟩,
      before, _, hturns, ?_, ?_⟩
    · rw [← htext]
      exact String.append_empty.symm
    · rw [← hreasoning]
      exact String.append_empty.symm
  | @streamEnded text reasoning error herror hphase =>
    unfold Stands at hstands
    rw [hphase] at hstands
    exact h.quiet silent_died (kept_died hstands.2) trivial
  | @turnThrows text reasoning error hphase =>
    have hshown : ∃ before last, turns r.history = before ++ [last] ∧ text = textOf last ∧
        reasoning = reasoningOf last := by
      unfold Stands at hstands
      rcases hphase with hphase | ⟨message, usage, hphase⟩
      · rw [hphase] at hstands
        exact hstands.2
      · rw [hphase] at hstands
        exact hstands.2.2
    exact h.quiet silent_died (kept_died hshown) trivial
  | turnReturns hphase =>
    unfold Stands at hstands
    rw [hphase] at hstands
    obtain ⟨hstands', hitems⟩ := kept_commitTurn cfg hstands.1 hstands.2.1
    exact ⟨hstands', h.kept.append atTurn_commitTurn.1.dropLast hitems⟩
  | batchThrows error hphase =>
    exact h.quiet (silent_exit r.state _) (kept_fail error r.state) trivial
  | rested hphase =>
    unfold Stands at hstands
    rw [hphase] at hstands
    have hhead := loopHead_head cfg r.state
    obtain ⟨hstands', hitems⟩ := kept_head r.history hstands hhead
    exact ⟨hstands', h.kept.append (atTurn_head hhead).silent hitems⟩
  | dispatched hcalls hphase =>
    unfold Stands at hstands
    rw [hphase] at hstands
    refine h.quiet (fun item hitem => ?_) (fun item hitem => ?_) hstands
    · rw [List.mem_singleton.mp hitem]
      rfl
    · rw [List.mem_singleton.mp hitem]
      trivial
  | batchReturns results accepted instant hphase =>
    unfold Stands at hstands
    rw [hphase] at hstands
    obtain ⟨hstands', hitems⟩ := kept_commitBatch cfg r.history hstands
    exact ⟨hstands', h.kept.append atTurn_commitBatch.silent hitems⟩
  | @wakes since park hphase hresolved =>
    unfold Stands at hstands
    rw [hphase] at hstands
    have hhead := loopHead_head cfg (r.state.unhook park)
    obtain ⟨hstands', hitems⟩ := kept_head (s := r.state.unhook park) r.history hstands hhead
    exact ⟨hstands', h.kept.append (atTurn_head hhead).silent hitems⟩
  | _ =>
    obtain ⟨houtside, hitems⟩ := outside_step rfl hstep
    refine h.quiet (fun item hitem => ?_) (fun item hitem => ?_) ?_
    · have hinside := hitems item hitem
      cases item <;> first | rfl | cases hinside
    · have hinside := hitems item hitem
      cases item <;> trivial
    · unfold Stands
      rw [houtside.phase, houtside.pendingText]
      exact hstands

/-- **Every run** whose turns are completed by what they have shown. -/
theorem kept_of_run {messages : List UserMessage} {labels : List (RunLabel T)} {r : AgentHistory T}
    (run : Run (Recorded.step (AgentRun.step cfg)) RepeatsShown (AgentRun.start cfg messages) labels r) :
    KeptRun r := by
  refine run.invariant (I := KeptRun) ?_ ?_
  · have hseeds : Silent (messages.map fun message =>
        (.appended (.user .initial message) : RunItem T)) := by
      intro item hitem
      obtain ⟨message, -, rfl⟩ := List.mem_map.mp hitem
      rfl
    have hhead := loopHead_head cfg (AgentRun.fresh (T := T) messages)
    obtain ⟨hstands, hitems⟩ := kept_head (messages.map fun message =>
      (.appended (.user .initial message) : RunItem T)) (fun _ hpending => by cases hpending) hhead
    refine ⟨hstands, (keptHistory_nil.append hseeds.dropLast fun item hitem => ?_).append
      (atTurn_head hhead).silent hitems⟩
    obtain ⟨message, -, rfl⟩ := List.mem_map.mp hitem
    trivial
  · intro r label r' hlabel hr hstep
    obtain ⟨state, items, hstate, rfl⟩ := Recorded.step_cases hstep
    exact kept_step hr hlabel hstate

end Loop

/-! ## The whole -/

section Whole

variable {T E : Type}

theorem reads_of_step {wire : Wire} {cfg : StreamClient.Config E} {client client' : State wire E}
    {label : StreamClient.Label wire E} (h : StreamClient.step cfg client label = some client') :
    ∃ more, client'.reads = client.reads ++ more := by
  cases moved_of_step h with
  | read i d chunk => exact ⟨[(i, some chunk)], by rw [State.handle_reads]⟩
  | ended i d => exact ⟨[(i, none)], rfl⟩
  | pulled i d =>
    refine ⟨[], ?_⟩
    rw [List.append_nil]
    unfold State.loop
    split <;> rfl
  | released d exit =>
    refine ⟨[], ?_⟩
    rw [List.append_nil]
    cases exit <;> rfl
  | _ => exact ⟨[], (List.append_nil _).symm⟩

/-- The stream that a block leaves has read on. -/
theorem reads_of_follow {wire : Wire} {cfg : StreamingConfig E} {items : List (RunItem T)}
    (hsilent : Silent items) (client : State wire E) :
    ∃ client' ∈ follow cfg (some client) items, ∃ more, client'.reads = client.reads ++ more := by
  unfold follow
  rw [requests_of_silent hsilent]
  split
  · cases ‹false = true›
  · split
    · refine ⟨_, rfl, ?_⟩
      show ∃ more, ((StreamClient.step cfg.client client
        (.abort (.other cfg.abortError))).getD client).reads = client.reads ++ more
      cases habort : StreamClient.step cfg.client client (.abort (.other cfg.abortError)) with
      | none => exact ⟨[], (List.append_nil _).symm⟩
      | some client' => exact reads_of_step habort
    · exact ⟨client, rfl, [], (List.append_nil _).symm⟩

/-- **No stream is forgotten**, and what it has read stays. -/
theorem streams_step {wire : Wire} {cfg : StreamingConfig E} {r : StreamingHistory T wire E}
    {label : StreamingLabel T wire E} {state : StreamingRun T wire E} {items : List (RunItem T)}
    (h : Tuned cfg r) (hstep : r.state.step cfg label = some (state, items)) :
    ∀ client ∈ r.state.streams, ∃ client' ∈ state.streams,
      ∃ more, client'.reads = client.reads ++ more := by
  have hreplaced : ∀ (run : AgentRun T) (stream : Option (State wire E)),
      (∀ client ∈ r.state.stream, ∃ client' ∈ stream, ∃ more,
        client'.reads = client.reads ++ more) →
      ∀ client ∈ r.state.streams, ∃ client' ∈ streams { r.state with run, stream },
        ∃ more, client'.reads = client.reads ++ more := by
    intro run stream hstream client hclient
    rcases List.mem_append.mp hclient with hpast | hnow
    · exact ⟨client, List.mem_append_left _ hpast, [], (List.append_nil _).symm⟩
    · obtain ⟨client', hclient', hmore⟩ := hstream client (Option.mem_toList.mp hnow)
      exact ⟨client', List.mem_append_right _ (Option.mem_toList.mpr hclient'), hmore⟩
  have hover : ∀ {client : State wire E} (next : AgentRun T × List (RunItem T)),
      r.state.stream = some client → ∀ other ∈ r.state.streams,
        ∃ client' ∈ streams (r.state.finishTurn client next).1,
          ∃ more, client'.reads = other.reads ++ more := by
    intro client next hstream other hother
    refine ⟨other, ?_, [], (List.append_nil _).symm⟩
    rw [streams, hstream] at hother
    exact List.mem_append_left _ hother
  cases performed_of_step hstep with
  | loop label next hlabel hrun =>
    refine hreplaced _ _ fun client hclient => ?_
    rcases atTurn_step hlabel hrun with ⟨hsilent, -⟩ | ⟨houtside, -⟩
    · rw [hclient]
      exact reads_of_follow hsilent client
    · rw [(Position.outside houtside).mp h.position] at hclient
      cases hclient
  | client label client client' hlabel hstream hclient =>
    refine hreplaced _ _ fun other hother => ?_
    cases hstream.symm.trans hother
    exact ⟨client', rfl, reads_of_step hclient⟩
  | takes client client' event labels next hstream hheld htaking hrun hclient =>
    refine hreplaced _ _ fun other hother => ?_
    cases hstream.symm.trans hother
    exact ⟨client', rfl, reads_of_step hclient⟩
  | ended client next hstream | returned client next hstream => exact hover next hstream
  | threw client error next hstream => exact hover next hstream

variable {provider : Provider} {jsonParse : String → Option Json} {cfg : StreamingConfig E}
  {r : StreamingHistory T (provider.wire jsonParse) E}

/-- The chunks of every attempt of every turn come in the order of the provider. -/
def Sequenced (provider : Provider) (jsonParse : String → Option Json)
    (s : StreamingRun T (provider.wire jsonParse) E) : Prop :=
  ∀ client ∈ s.streams, ∀ i, provider.InSequence jsonParse (chunksOf client.reads i)

theorem Sequenced.before {state : StreamingRun T (provider.wire jsonParse) E}
    (h : Sequenced provider jsonParse state)
    (hstreams : ∀ client ∈ r.state.streams, ∃ client' ∈ state.streams,
      ∃ more, client'.reads = client.reads ++ more) : Sequenced provider jsonParse r.state := by
  intro client hclient i
  obtain ⟨client', hclient', more, hreads⟩ := hstreams client hclient
  have hlater := h client' hclient' i
  rw [hreads, chunksOf_append] at hlater
  exact hlater.of_append

/-- What the stream of a turn completes repeats what the turn has shown. -/
theorem repeats_of_held (h : Tuned cfg r) (hsequenced : Sequenced provider jsonParse r.state)
    {label : RunLabel T} (hheld : HeldBy r.state label) :
    RepeatsShown { state := r.state.run, history := r.history } label := by
  cases label with
  | complete message usage stopReason =>
    obtain ⟨client, hstream, hclient⟩ := hheld
    obtain ⟨i, deltas, hphase, hyielded, htaken⟩ := held_cases hclient
    obtain ⟨-, -, d, -, hdecode⟩ := (h.stream client hstream).followed.stands hphase
    have hmem : client ∈ r.state.streams :=
      List.mem_append_right _ (Option.mem_toList.mpr hstream)
    have hfinishes := keeps_of_decode (hsequenced client hmem i) hdecode
    intro before shown hshown
    rw [h.shown_apart, hstream] at hshown
    have hlast := (List.append_inj' hshown rfl).2
    rw [Option.map_some, Option.toList_some, List.singleton_inj, htaken] at hlast
    rw [← hlast]
    exact hfinishes deltas message.val usage stopReason hyielded
  | _ => trivial

/-- **The whole is a run of the loop** whose turns are completed by what they have shown. -/
theorem kept_run_of_run {messages : List UserMessage}
    {labels : List (StreamingLabel T (provider.wire jsonParse) E)}
    (run : Run (Recorded.step (StreamingRun.step cfg)) Free
      (StreamingRun.start cfg (provider.wire jsonParse) messages) labels r)
    (hsequenced : Sequenced provider jsonParse r.state) :
    ∃ runLabels, Run (Recorded.step (AgentRun.step cfg.loop)) RepeatsShown
      (AgentRun.start cfg.loop messages) runLabels
      { state := r.state.run, history := r.history } := by
  refine run.invariant_of (J := Tuned cfg)
    (I := fun r => Sequenced provider jsonParse r.state →
      ∃ runLabels, Run (Recorded.step (AgentRun.step cfg.loop)) RepeatsShown
        (AgentRun.start cfg.loop messages) runLabels
        { state := r.state.run, history := r.history })
    (fun hrun => tuned_of_run hrun.free) (fun _ => ⟨[], .nil _⟩) ?_ hsequenced
  rintro r label r' _ hr hbefore hstep hsequenced
  obtain ⟨state, items, hstate, rfl⟩ := Recorded.step_cases hstep
  have hearlier : Sequenced provider jsonParse r.state := hsequenced.before (streams_step hr hstate)
  obtain ⟨runLabels, hrun⟩ := hbefore hearlier
  rcases loop_step hstate with ⟨hsame, rfl⟩ | ⟨runLabel, hlabel, hnext⟩
  · refine ⟨runLabels, ?_⟩
    rw [List.append_nil, hsame]
    exact hrun
  · refine ⟨runLabels ++ [runLabel], .snoc hrun (repeats_of_held hr hearlier hlabel) ?_⟩
    rw [Recorded.step, hnext]
    rfl

end Whole

/-- **What a run keeps of its turns is what it has shown of them**, with any provider that sends its
chunks in order, and whatever is retried, fails, times out or is aborted: an answer has the text,
the reasoning and the calls that its turn has shown, a turn that dies is salvaged with the text and
the reasoning that it has shown, and a text outcome is the text that the last turn has shown. -/
theorem streamed_kept {T E : Type} (provider : Provider) (jsonParse : String → Option Json)
    (cfg : StreamingConfig E) {messages : List UserMessage}
    {labels : List (StreamingLabel T (provider.wire jsonParse) E)}
    {r : StreamingHistory T (provider.wire jsonParse) E}
    (run : Run (Recorded.step (StreamingRun.step cfg)) Free
      (StreamingRun.start cfg (provider.wire jsonParse) messages) labels r)
    (hsequenced : Sequenced provider jsonParse r.state) : KeptHistory r.history := by
  obtain ⟨runLabels, hrun⟩ := kept_run_of_run run hsequenced
  exact (kept_of_run hrun).kept

/-- Every attempt that is read is the first one, and its blocks come one after the other. -/
def readsInSequence (jsonParse : String → Option Json)
    (client : State (Provider.anthropicApi.wire jsonParse) Unit) : Bool :=
  client.reads.all (·.1 == 0) &&
    (List.foldlM Anthropic.nextBlock none (chunksOf client.reads 0)).isSome

theorem inSequence_of_reads {jsonParse : String → Option Json}
    {client : State (Provider.anthropicApi.wire jsonParse) Unit}
    (h : readsInSequence jsonParse client = true) (i : Nat) :
    Provider.anthropicApi.InSequence jsonParse (chunksOf client.reads i) := by
  obtain ⟨hreads, hsequence⟩ := Bool.and_eq_true_iff.mp h
  cases i with
  | zero => exact hsequence
  | succ i =>
    rw [chunksOf_later fun read hread => ?_]
    · rfl
    · have hfirst := beq_iff_eq.mp (List.all_eq_true.mp hreads read hread)
      omega

/-- A turn with a thinking block and a text block. -/
theorem streamed_kept_thinking :
    ∃ r : StreamingHistory Unit (Provider.anthropicApi.wire fun _ => none) Unit,
      r.state.run.handle.finished = true ∧ KeptHistory r.history := by
  obtain ⟨r, run, hr⟩ := exists_run (Recorded.step (StreamingRun.step promptRun)) Free
    (StreamingRun.start (T := Unit) promptRun (Provider.anthropicApi.wire fun _ => none)
      [⟨userText "go", rfl⟩])
    [.client (.opened none),
      .client (.chunk (Anthropic.RawMessageStreamEvent.contentBlockStart 0 "thinking" none none)),
      .client (.chunk (Anthropic.RawMessageStreamEvent.contentBlockDelta 0
        (.thinkingDelta "hm"))), .client .deliver, .takes,
      .client (.chunk (Anthropic.RawMessageStreamEvent.contentBlockStop 0)),
      .client (.chunk (Anthropic.RawMessageStreamEvent.contentBlockStart 1 "text" none none)),
      .client (.chunk (Anthropic.RawMessageStreamEvent.contentBlockDelta 1 (.textDelta "hi"))),
      .client .deliver, .takes,
      .client (.chunk (Anthropic.RawMessageStreamEvent.contentBlockStop 1)),
      .client (.chunk Anthropic.RawMessageStreamEvent.messageStop), .client .deliver, .takes,
      .client .released, .leaves]
    (fun r => r.state.run.handle.finished && r.state.streams.all (readsInSequence fun _ => none))
    (by decide +kernel)
  obtain ⟨hfinished, hstreams⟩ := Bool.and_eq_true_iff.mp hr
  exact ⟨r, hfinished, streamed_kept .anthropicApi (fun _ => none) promptRun run
    fun client hclient => inSequence_of_reads (List.all_eq_true.mp hstreams client hclient)⟩

end EphemeralAgent.Engine
