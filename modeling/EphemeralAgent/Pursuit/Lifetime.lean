import EphemeralAgent.Pursuit.Once
import EphemeralAgent.Pursuit.Tracking

/-!
# A pursuit over its lifetime

The structure of a pursuit holds in every state of every run, and nothing terminal changes.  The
one thing that the pursuit does not see is an end that the workflow runtime writes itself: the
workflow is done then, while the record of the pursuit and its last leg still go on.

* `pursuit_structure` — the structure of a pursuit, over all calls and over all runs
* `interrupted_pursuit_runs_on` — the record of an interrupted pursuit
-/

namespace EphemeralAgent.Pursuit

open EphemeralAgent.Lib EphemeralAgent.Workflow

/-- The statuses agree, or they did when the runtime ended the run. -/
def AgreesOrEnded (state : PursuitState) : Prop :=
  Agrees state ∨ ∃ pursuit, Agrees pursuit ∧ ByRuntime pursuit state

/-- The structure does not depend on the fields that the runtime writes. -/
theorem WellFormed.of_ext {state next : PursuitState} (h : WellFormed state)
    (hext : next.ext = state.ext) : WellFormed next := by
  obtain ⟨hnumbered, hsucceeded, hlegs⟩ := h
  refine ⟨?_, ?_, ?_⟩
  · rw [hext]
    exact hnumbered
  · rw [hext]
    exact hsucceeded
  · rw [hext]
    exact hlegs

section Runs

variable {host : Host} {args : JsonObject} {first pursuit : PursuitState} {cs : List Call}
  {s : WorkflowRunInstance PursuitFields} {state : PursuitState}

theorem Follows.sound (h : Follows host args first cs pursuit s) : Sound pursuit := by
  obtain ⟨stamp, parsed, hparsed, rfl⟩ := h.created
  exact ((sound_createInitialState host stamp (PursuitArgs.parse_spec hparsed).1).run h.run).1

theorem Follows.ext (h : Follows host args first cs pursuit s) (hstate : s.state = some state) :
    state.ext = pursuit.ext ∧ (state = pursuit ∨ ByRuntime pursuit state) := by
  obtain ⟨state', hstate', hpursuit⟩ := h.state
  obtain rfl : state = state' := Option.some.inj (hstate.symm.trans hstate')
  refine ⟨?_, hpursuit⟩
  rcases hpursuit with rfl | hended
  · rfl
  · exact hended.ext

end Runs

/-- **The structure of a pursuit.**  It holds after any calls of the two callbacks, and in every
state of every run of the workflow runtime; what is terminal stays. -/
theorem pursuit_structure (host : Host) :
    (∀ stamp object args cs state, PursuitArgs.parse object = some args →
      Run (call host) Free (createInitialState host stamp args) cs state →
        WellFormed state ∧ Agrees state ∧
          ∀ ds next, Run (call host) Free state ds next → Keeps state next) ∧
    ∀ definition args toJsonObject ls s state,
      Run (step (pursuitRequest host definition args toJsonObject)) Free initial ls s →
      s.state = some state →
        WellFormed state ∧ AgreesOrEnded state ∧
          ∀ ms t next, Run (step (pursuitRequest host definition args toJsonObject)) Free s ms t →
            t.state = some next → Keeps state next := by
  refine ⟨?_, ?_⟩
  · intro stamp object args cs state hargs run
    have hfirst := sound_createInitialState host stamp (PursuitArgs.parse_spec hargs).1
    have hsound := (hfirst.run run).1
    exact ⟨hsound.wellFormed, hsound.agrees, fun ds next hnext => (hsound.run hnext).2⟩
  · intro definition args toJsonObject ls s state run hstate
    rcases followed_of_run run with hnone | ⟨first, cs, pursuit, h⟩
    · rw [hnone.state] at hstate
      cases hstate
    · obtain ⟨hext, hpursuit⟩ := h.ext hstate
      refine ⟨h.sound.wellFormed.of_ext hext, ?_, fun ms t next hrun hnext => ?_⟩
      · rcases hpursuit with rfl | hended
        · exact .inl h.sound.agrees
        · exact .inr ⟨pursuit, h.sound.agrees, hended⟩
      · obtain ⟨more, after, hmore, hafter⟩ := follows_run run h hrun
        have hkeeps := (h.sound.run hmore).2
        unfold Keeps at hkeeps ⊢
        rw [hext, (hafter.ext hnext).1]
        exact hkeeps

theorem pursuit_structure_ship :
    WellFormed (createInitialState spellingHost 0
        { pursuitGoal := "ship", legGoals := none, maxAttempts := 2 }) ∧
      ∃ s, Run (step boundRequest) RejectsLast initial twoLaunches s ∧
        ∃ state, s.state = some state ∧ WellFormed state ∧ AgreesOrEnded state := by
  have h := pursuit_structure spellingHost
  refine ⟨(h.1 0 [("pursuit_goal", .str "ship")] _ [] _ rfl (.nil _)).1, ?_⟩
  obtain ⟨s, hs, hp⟩ := exists_run (step boundRequest) RejectsLast initial twoLaunches
    (fun s => s.state.isSome) (by decide +kernel)
  obtain ⟨state, hstate⟩ := Option.isSome_iff_exists.mp hp
  have hrun := h.2 _ _ _ _ _ state hs.free hstate
  exact ⟨s, hs, state, hstate, hrun.1, hrun.2.1⟩

/-- A pursuit that is interrupted while its planner runs: the workflow is done and has failed, and
the record of the pursuit and its leg still say that they run. -/
theorem interrupted_pursuit_runs_on :
    ∃ s state, Run (step boundRequest) Free initial
        [.start, .launchResolved .start, .resume .start, .interrupt "stop", .dequeue,
          .interruptsResolved] s ∧ s.state = some state ∧
      state.isWorkflowDone = true ∧ state.workflowStatus = .failure ∧
      state.ext.pursuit.status = .running ∧ ¬ Agrees state := by
  obtain ⟨s, hs, hp⟩ := exists_run (step boundRequest) Free initial
    [.start, .launchResolved .start, .resume .start, .interrupt "stop", .dequeue,
      .interruptsResolved]
    (fun s => s.state.any fun state => state.isWorkflowDone = true ∧
      state.workflowStatus = .failure ∧ state.ext.pursuit.status = .running) (by decide +kernel)
  obtain ⟨state, hstate, hfields⟩ := (Option.any_eq_true _ _).mp hp
  obtain ⟨hdone, hworkflow, hrunning⟩ := of_decide_eq_true hfields
  refine ⟨s, state, hs, hstate, hdone, hworkflow, hrunning, fun h => ?_⟩
  rcases h with h | h | h
  · have := h.done
    rw [hdone] at this
    cases this
  · have := h.pursuit
    rw [hrunning] at this
    cases this
  · have := h.pursuit
    rw [hrunning] at this
    cases this

end EphemeralAgent.Pursuit
