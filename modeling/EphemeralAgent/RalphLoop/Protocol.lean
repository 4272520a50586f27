import EphemeralAgent.RalphLoop.Module

/-!
# The protocol of the ralph loop

What the loop is for, without payloads and without a runtime: in every attempt a planner, a
reviewer and a critic run one after the other, each after the one before it has passed.

* `Position.next`, `follow` — the protocol
* `Reached` — what has happened on the way to a position
-/

namespace EphemeralAgent.RalphLoop

/-- A node of the loop. -/
structure RalphNode where
  role : Phase
  attempt : Nat
  deriving DecidableEq

inductive RalphEvent where
  | launched (node : RalphNode)
  | settled (node : RalphNode) (passed : Bool)
  deriving DecidableEq

/-- Where the loop stands. -/
inductive Position where
  | idle (node : RalphNode)
  | running (node : RalphNode)
  | succeeded (attempt : Nat)
  | failed (attempt : Nat)
  deriving DecidableEq

/-- What comes after a node that has passed. -/
def RalphNode.passed (node : RalphNode) : Position :=
  match node.role with
  | .planner => .idle { node with role := .reviewer }
  | .reviewer => .idle { node with role := .critic }
  | _ => .succeeded node.attempt

/-- What comes after a node that has not. -/
def RalphNode.failed (maxAttempts : Nat) (node : RalphNode) : Position :=
  if node.attempt < maxAttempts then .idle { role := .planner, attempt := node.attempt + 1 }
  else .failed node.attempt

/-- One step of the protocol; `none` is a violation. -/
def Position.next (maxAttempts : Nat) : Position → RalphEvent → Option Position
  | .idle node, .launched other => if other = node then some (.running node) else none
  | .running node, .settled other passed =>
    if other = node then some (if passed then node.passed else node.failed maxAttempts) else none
  | _, _ => none

/-- The protocol from the first planner on. -/
def follow (maxAttempts : Nat) (events : List RalphEvent) : Option Position :=
  events.foldlM (Position.next maxAttempts) (.idle { role := .planner, attempt := 1 })

theorem follow_append_singleton (maxAttempts : Nat) (events : List RalphEvent) (event : RalphEvent) :
    follow maxAttempts (events ++ [event]) =
      (follow maxAttempts events).bind (·.next maxAttempts event) := by
  unfold follow
  rw [List.foldlM_append]
  refine congrArg _ (funext fun position => ?_)
  rw [List.foldlM_cons]
  exact bind_pure _

theorem follow_of_append {maxAttempts : Nat} {before after : List RalphEvent} {position : Position}
    (h : follow maxAttempts (before ++ after) = some position) :
    ∃ earlier, follow maxAttempts before = some earlier := by
  unfold follow at h ⊢
  rw [List.foldlM_append] at h
  obtain ⟨earlier, hearlier, -⟩ := Option.bind_eq_some_iff.mp h
  exact ⟨earlier, hearlier⟩

/-! ## What has happened -/

def Phase.index : Phase → Nat
  | .planner => 0
  | .reviewer => 1
  | .critic => 2
  | .done => 3

/-- How many nodes of the loop come before this one. -/
def RalphNode.index (node : RalphNode) : Nat :=
  3 * (node.attempt - 1) + node.role.index

def RalphEvent.isSettled : RalphEvent → Bool
  | .settled .. => true
  | .launched _ => false

/-- The roles before the one of this node have passed in its attempt, and no critic has passed. -/
structure Underway (maxAttempts : Nat) (events : List RalphEvent) (node : RalphNode) : Prop where
  role : node.role ≠ .done
  positive : 0 < node.attempt
  bounded : node.attempt ≤ maxAttempts
  earlier : ∀ role, role.index < node.role.index →
    .settled { role, attempt := node.attempt } true ∈ events
  critic : ∀ attempt, .settled { role := .critic, attempt } true ∉ events
  settled : events.countP (·.isSettled) ≤ node.index

/-- What has happened on the way to a position. -/
def Reached (maxAttempts : Nat) (events : List RalphEvent) : Position → Prop
  | .idle node => Underway maxAttempts events node
  | .running node => Underway maxAttempts events node
  | .succeeded attempt =>
    0 < attempt ∧ attempt ≤ maxAttempts ∧ events.countP (·.isSettled) ≤ 3 * attempt ∧
      ∀ role, role ≠ .done → .settled { role, attempt } true ∈ events
  | .failed attempt =>
    attempt = maxAttempts ∧ events.countP (·.isSettled) ≤ 3 * attempt ∧
      ∀ attempt, .settled { role := .critic, attempt } true ∉ events

section Reached

variable {maxAttempts : Nat} {events : List RalphEvent} {node : RalphNode}

theorem Underway.launched (h : Underway maxAttempts events node) :
    Underway maxAttempts (events ++ [.launched node]) node := by
  refine ⟨h.role, h.positive, h.bounded, fun role hrole => ?_, fun attempt hmem => ?_, ?_⟩
  · exact List.mem_append_left _ (h.earlier role hrole)
  · simp only [List.mem_append, List.mem_singleton, reduceCtorEq, or_false] at hmem
    exact h.critic attempt hmem
  · rw [List.countP_append]
    exact h.settled

theorem countP_settled (passed : Bool) :
    (events ++ [RalphEvent.settled node passed]).countP (·.isSettled) =
      events.countP (·.isSettled) + 1 := by
  rw [List.countP_append]
  rfl

/-- The next role of the attempt. -/
theorem Underway.next (h : Underway maxAttempts events node) {role : Phase} (hrole : role ≠ .done)
    (hindex : role.index = node.role.index + 1) :
    Underway maxAttempts (events ++ [.settled node true]) { node with role } := by
  refine ⟨hrole, h.positive, h.bounded, fun earlier hearlier => ?_, fun attempt hmem => ?_, ?_⟩
  · rw [List.mem_append, List.mem_singleton]
    rcases Nat.lt_or_ge earlier.index node.role.index with hlt | hge
    · exact .inl (h.earlier earlier hlt)
    · -- the role that has just passed
      have heq : earlier = node.role := by
        have : earlier.index < role.index := hearlier
        have : earlier.index = node.role.index := by omega
        revert this
        cases earlier <;> cases node.role <;> simp [Phase.index]
      rw [heq]
      exact .inr rfl
  · rcases List.mem_append.mp hmem with hmem | hmem
    · exact h.critic attempt hmem
    · have heq := List.mem_singleton.mp hmem
      simp only [RalphEvent.settled.injEq, and_true] at heq
      rw [← heq] at hindex
      cases role <;> simp [Phase.index] at hindex hrole
  · rw [countP_settled]
    have := h.settled
    unfold RalphNode.index at this ⊢
    simp only [hindex]
    omega

/-- A planner, a reviewer and a critic that pass. -/
theorem Underway.passed (h : Underway maxAttempts events node) :
    Reached maxAttempts (events ++ [.settled node true]) node.passed := by
  obtain ⟨role, attempt⟩ := node
  cases role with
  | planner => exact h.next (by simp) rfl
  | reviewer => exact h.next (by simp) rfl
  | critic =>
    refine ⟨h.positive, h.bounded, ?_, fun role hrole => ?_⟩
    · rw [countP_settled]
      have := h.settled
      have := h.positive
      simp only [RalphNode.index, Phase.index] at *
      omega
    · rw [List.mem_append, List.mem_singleton]
      cases role with
      | planner => exact .inl (h.earlier .planner Nat.two_pos)
      | reviewer => exact .inl (h.earlier .reviewer Nat.one_lt_two)
      | critic => exact .inr rfl
      | done => exact absurd rfl hrole
  | done => exact absurd rfl h.role

theorem Underway.failed (h : Underway maxAttempts events node) :
    Reached maxAttempts (events ++ [.settled node false]) (node.failed maxAttempts) := by
  have hcritic : ∀ attempt, .settled { role := .critic, attempt } true ∉
      events ++ [.settled node false] := by
    intro attempt hmem
    rcases List.mem_append.mp hmem with hmem | hmem
    · exact h.critic attempt hmem
    · simp at hmem
  have hindex : node.role.index < 3 := by
    have := h.role
    revert this
    cases node.role <;> simp [Phase.index]
  have hcount := h.settled
  have hpositive := h.positive
  unfold RalphNode.index at hcount
  unfold RalphNode.failed
  split
  · next hmore =>
    refine ⟨by simp, Nat.succ_pos _, hmore, fun role hrole => absurd hrole (Nat.not_lt_zero _),
      hcritic, ?_⟩
    rw [countP_settled]
    simp only [RalphNode.index, Phase.index]
    omega
  · next hlast =>
    refine ⟨Nat.le_antisymm h.bounded (Nat.le_of_not_lt hlast), ?_, hcritic⟩
    rw [countP_settled]
    omega

theorem reached_next {position next : Position} {event : RalphEvent}
    (h : Reached maxAttempts events position) (hnext : position.next maxAttempts event = some next) :
    Reached maxAttempts (events ++ [event]) next := by
  unfold Position.next at hnext
  split at hnext
  · split at hnext
    · next heq =>
      cases hnext
      subst heq
      exact Underway.launched h
    · cases hnext
  · split at hnext
    · next passed heq =>
      obtain rfl := Option.some.inj hnext
      subst heq
      cases passed with
      | true => exact Underway.passed h
      | false => exact Underway.failed h
    · cases hnext
  · cases hnext

/-- **What the protocol has gone through** follows from where it stands. -/
theorem reached_of_follow (hmax : 0 < maxAttempts) {position : Position}
    (h : follow maxAttempts events = some position) : Reached maxAttempts events position := by
  induction events using List.reverseRecOn generalizing position with
  | nil =>
    cases h
    exact ⟨by simp, Nat.one_pos, hmax, fun role hrole => absurd hrole (Nat.not_lt_zero _),
      by simp, Nat.zero_le _⟩
  | append_singleton events event ih =>
    rw [follow_append_singleton] at h
    obtain ⟨earlier, hearlier, hnext⟩ := Option.bind_eq_some_iff.mp h
    exact reached_next (ih hearlier) hnext

/-- A node is launched only after the roles before it have passed in its attempt. -/
theorem follow_launched (hmax : 0 < maxAttempts) {before after : List RalphEvent}
    {position : Position}
    (h : follow maxAttempts (before ++ .launched node :: after) = some position) :
    ∀ role, role.index < node.role.index →
      .settled { role, attempt := node.attempt } true ∈ before := by
  rw [List.append_cons] at h
  obtain ⟨later, hlater⟩ := follow_of_append h
  rw [follow_append_singleton] at hlater
  obtain ⟨earlier, hearlier, hnext⟩ := Option.bind_eq_some_iff.mp hlater
  have hreached := reached_of_follow hmax hearlier
  cases earlier with
  | idle other =>
    simp only [Position.next, Option.ite_none_right_eq_some] at hnext
    rw [hnext.1]
    exact hreached.earlier
  | _ => cases hnext

theorem Reached.settled_le {position : Position} (h : Reached maxAttempts events position) :
    events.countP (·.isSettled) ≤ 3 * maxAttempts := by
  have hunderway : ∀ node, Underway maxAttempts events node →
      events.countP (·.isSettled) ≤ 3 * maxAttempts := by
    intro node h
    have hindex : node.role.index < 3 := by
      have := h.role
      revert this
      cases node.role <;> simp [Phase.index]
    have := h.settled
    have := h.positive
    have := h.bounded
    unfold RalphNode.index at *
    omega
  cases position with
  | idle node => exact hunderway node h
  | running node => exact hunderway node h
  | succeeded attempt =>
    obtain ⟨-, hle, hcount, -⟩ := h
    omega
  | failed attempt =>
    obtain ⟨rfl, hcount, -⟩ := h
    exact hcount

/-- The loop has succeeded when one attempt has passed all three roles, and not before. -/
theorem Reached.succeeded_iff {position : Position} (h : Reached maxAttempts events position) :
    (∃ attempt, position = .succeeded attempt) ↔
      ∃ attempt, ∀ role, role ≠ .done → .settled { role, attempt } true ∈ events := by
  refine ⟨?_, ?_⟩
  · rintro ⟨attempt, rfl⟩
    exact ⟨attempt, h.2.2.2⟩
  · rintro ⟨attempt, hall⟩
    have hcritic := hall .critic (by simp)
    cases position with
    | idle node => exact absurd hcritic (h.critic attempt)
    | running node => exact absurd hcritic (h.critic attempt)
    | succeeded attempt => exact ⟨attempt, rfl⟩
    | failed attempt' => exact absurd hcritic (h.2.2 attempt)

end Reached

end EphemeralAgent.RalphLoop
