import Mathlib.Data.List.Basic
import Mathlib.Order.Monotone.Basic
import Mathlib.Order.WellFounded

/-!
# Runs of a partial labelled step

A component is a state type `S`, a label type `L` and an executable `step : S → L → Option S`;
`none` means that the label is not enabled.  A label is either an action of the environment or
the continuation of one suspended piece of code, so a list of labels is a schedule.

* `Run step ok s ls t` — `ls` leads from `s` to `t`, and every step meets `ok`, a condition on
  the state before the step and on its label
* `Run.invariant` — what holds at the start and survives every step holds at the end
* `Run.kept_iff_of`, `Run.kept_iff` — what only a step that fails `ok` breaks, and none repairs,
  holds exactly in `ok`
* `eventually_not_of_rank` — a rank in a well-founded order is lowered finitely often
* `eventually_same_of_rank` — so what changes only when the rank is lowered changes no more
* `exists_run` — a schedule that executes is a run; the concrete runs come from here
-/

namespace EphemeralAgent.Lib

variable {S L : Type*}

/-- Runs whose every step satisfies `ok` in the state it starts from. -/
inductive Run (step : S → L → Option S) (ok : S → L → Prop) : S → List L → S → Prop
  | nil (s : S) : Run step ok s [] s
  | snoc {s t u : S} {ls : List L} {l : L} (run : Run step ok s ls t) (hok : ok t l)
      (hstep : step t l = some u) : Run step ok s (ls ++ [l]) u

/-- The condition that every step meets. -/
def Free : S → L → Prop := fun _ _ => True

section Run

variable {step : S → L → Option S} {ok ok' : S → L → Prop}

theorem Run.mono (h : ∀ s l, ok s l → ok' s l) {s t : S} {ls : List L}
    (run : Run step ok s ls t) : Run step ok' s ls t := by
  induction run with
  | nil => exact .nil _
  | snoc _ hok hstep ih => exact .snoc ih (h _ _ hok) hstep

/-- Forgetting the condition. -/
theorem Run.free {s t : S} {ls : List L} (run : Run step ok s ls t) : Run step Free s ls t :=
  run.mono fun _ _ _ => trivial

/-- A condition on labels alone besides. -/
theorem Run.with_labels {P : L → Prop} {s t : S} {ls : List L} (run : Run step ok s ls t)
    (h : ∀ l ∈ ls, P l) : Run step (fun s l => P l ∧ ok s l) s ls t := by
  induction run with
  | nil => exact .nil _
  | snoc _ hok hstep ih =>
    refine .snoc (ih fun l hl => h l (List.mem_append_left _ hl)) ⟨h _ ?_, hok⟩ hstep
    exact List.mem_append_right _ (List.mem_singleton_self _)

theorem Run.trans {s t u : S} {ls ms : List L} (h₁ : Run step ok s ls t)
    (h₂ : Run step ok t ms u) : Run step ok s (ls ++ ms) u := by
  induction h₂ with
  | nil => simpa using h₁
  | snoc _ hok hstep ih =>
    rw [← List.append_assoc]
    exact .snoc ih hok hstep

theorem Run.single {s t : S} {l : L} (hok : ok s l) (h : step s l = some t) :
    Run step ok s [l] t :=
  .snoc (.nil s) hok h

/-- **An inductive invariant holds at the end of every run.** -/
theorem Run.invariant {I : S → Prop} {s t : S} {ls : List L} (run : Run step ok s ls t)
    (h₀ : I s) (hstep : ∀ s l s', ok s l → I s → step s l = some s' → I s') : I t := by
  induction run with
  | nil => exact h₀
  | snoc _ hok hs ih => exact hstep _ _ _ hok ih hs

/-- An invariant may use another one that is already known of every state of the run. -/
theorem Run.invariant_of {I J : S → Prop} {s t : S} {ls : List L} (run : Run step ok s ls t)
    (hJ : ∀ {ms u}, Run step ok s ms u → J u) (h₀ : I s)
    (hstep : ∀ s l s', ok s l → J s → I s → step s l = some s' → I s') : I t := by
  induction run with
  | nil => exact h₀
  | snoc r hok hs ih => exact hstep _ _ _ hok (hJ r) ih hs

/-- **In the runs that meet `ok`, a property that only the steps that fail `ok'` break, and no step
repairs, holds at the end of exactly the runs whose steps all meet `ok'` as well.** -/
theorem Run.kept_iff_of {P : S → Prop} {s t : S} {ls : List L} (h₀ : P s)
    (hstep : ∀ {ms u l u'}, Run step ok s ms u → ok u l → step u l = some u' →
      (P u' ↔ P u ∧ ok' u l))
    (run : Run step ok s ls t) : P t ↔ Run step (fun u l => ok u l ∧ ok' u l) s ls t := by
  constructor
  · intro ht
    induction run with
    | nil => exact .nil _
    | snoc r hbase hs ih =>
      obtain ⟨hu, hok⟩ := (hstep r hbase hs).mp ht
      exact .snoc (ih hu) ⟨hbase, hok⟩ hs
  · intro hrun
    refine hrun.invariant_of (J := fun u => ∃ ms, Run step ok s ms u)
      (fun r => ⟨_, r.mono fun _ _ h => h.1⟩) h₀ ?_
    rintro u l u' ⟨hbase, hok⟩ ⟨ms, r⟩ hu hs
    exact (hstep r hbase hs).mpr ⟨hu, hok⟩

/-- **A property that only the steps that fail `ok` break, and no step repairs, holds at the end of
exactly the runs whose steps all meet `ok`.** -/
theorem Run.kept_iff {P : S → Prop} {s t : S} {ls : List L} (h₀ : P s)
    (hstep : ∀ {ms u l u'}, Run step Free s ms u → step u l = some u' → (P u' ↔ P u ∧ ok u l))
    (run : Run step Free s ls t) : P t ↔ Run step ok s ls t := by
  refine (run.kept_iff_of h₀ fun r _ hs => hstep r hs).trans ⟨?_, ?_⟩
  · exact fun hrun => hrun.mono fun _ _ h => h.2
  · exact fun hrun => hrun.mono fun _ _ h => ⟨trivial, h⟩

end Run

/-- A rank that no step raises is lowered finitely often. -/
theorem eventually_not_of_rank {α : Type*} [Preorder α] [WellFoundedLT α] (rank : Nat → α)
    (p : Nat → Prop) (hle : ∀ n, rank (n + 1) ≤ rank n) (hlt : ∀ n, p n → rank (n + 1) < rank n) :
    ∃ bound, ∀ n, bound ≤ n → ¬ p n := by
  obtain ⟨a, ⟨bound, rfl⟩, hmin⟩ :=
    (wellFounded_lt : WellFounded fun a b : α => a < b).has_min (Set.range rank)
      (Set.range_nonempty rank)
  refine ⟨bound, fun n hn hp => hmin (rank (n + 1)) (Set.mem_range_self _) ?_⟩
  exact lt_of_lt_of_le (hlt n hp) (antitone_nat_of_succ_le hle hn)

/-- What is seen changes only when a rank is lowered, so at some time it changes no more. -/
theorem eventually_same_of_rank {α β : Type*} [Preorder α] [WellFoundedLT α] (seen : Nat → β)
    (ranked : Nat → α → Prop) (h : ∀ {n a} m, n ≤ m → ranked n a →
      ∃ b, ranked m b ∧ (seen m = seen n ∨ b < a)) (a : α) :
    ∀ n, ranked n a → ∃ bound, ∀ m, bound ≤ m → seen m = seen bound := by
  induction a using WellFoundedLT.induction with
  | ind a ih =>
    intro n hn
    by_cases hsame : ∀ m, n ≤ m → seen m = seen n
    · exact ⟨n, hsame⟩
    · obtain ⟨m, hm⟩ := not_forall.mp hsame
      obtain ⟨hle, hne⟩ := Classical.not_imp.mp hm
      obtain ⟨b, hb, heq | hlt⟩ := h m hle hn
      · exact absurd heq hne
      · exact ih b hlt m hb

/-- Two states of an infinite run are the ends of a run. -/
theorem run_between {step : S → L → Option S} {f : Nat → S} {l : Nat → L}
    (hstep : ∀ n, step (f n) (l n) = some (f (n + 1))) {n m : Nat} (h : n ≤ m) :
    ∃ ls, Run step Free (f n) ls (f m) := by
  induction m, h using Nat.le_induction with
  | base => exact ⟨[], .nil _⟩
  | succ m _ ih =>
    obtain ⟨ls, hrun⟩ := ih
    exact ⟨_, .snoc hrun trivial (hstep m)⟩

/-! ## Executing a schedule -/

section Exec

variable (step : S → L → Option S) (ok : S → L → Prop) [∀ s l, Decidable (ok s l)]

/-- Run a schedule; `none` as soon as a label is not enabled or its step does not meet `ok`. -/
def exec : S → List L → Option S
  | s, [] => some s
  | s, l :: ls => if ok s l then (step s l).bind fun t => exec t ls else none

instance (s : S) (l : L) : Decidable (Free s l) :=
  isTrue trivial

variable {step ok}

theorem run_of_exec : ∀ {ls : List L} {s t : S}, exec step ok s ls = some t → Run step ok s ls t
  | [], s, t, h => by
    simp only [exec, Option.some.injEq] at h
    exact h ▸ .nil s
  | l :: ls, s, t, h => by
    unfold exec at h
    split at h
    · next hok =>
      obtain ⟨u, hu, ht⟩ := Option.bind_eq_some_iff.mp h
      exact (Run.single hok hu).trans (run_of_exec ht)
    · cases h

variable (step ok)

/-- A schedule that executes leads to a state that passes the test its result passes. -/
theorem exists_run (s : S) (ls : List L) (p : S → Bool)
    (h : (exec step ok s ls).any p = true) : ∃ t, Run step ok s ls t ∧ p t = true := by
  obtain ⟨t, ht, hp⟩ := (Option.any_eq_true _ _).mp h
  exact ⟨t, run_of_exec ht, hp⟩

/-- Two schedules, one after the other. -/
theorem exists_run_run (s : S) (ls ms : List L) (p : S → S → Bool)
    (h : (exec step ok s ls).any (fun t => (exec step ok t ms).any (p t)) = true) :
    ∃ t u, Run step ok s ls t ∧ Run step ok t ms u ∧ p t u = true := by
  obtain ⟨t, ht, hp⟩ := exists_run step ok s ls _ h
  obtain ⟨u, hu, hpu⟩ := exists_run step ok t ms _ hp
  exact ⟨t, u, ht, hu, hpu⟩

end Exec

end EphemeralAgent.Lib
