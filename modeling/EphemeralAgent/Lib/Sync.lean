import Mathlib.Logic.Basic

/-!
# Synchronous code that may throw

Between two awaits a piece of code runs without interruption, but it may throw on the way.  What
it wrote before it threw stays written, so the state is returned in both cases.

* `Sync S E α` — such code over a state `S` with exceptions in `E`
* `Sync.Spec P m Q F` — from `P`, the code ends in `Q` when it returns and in `F` when it throws
* `Sync.Within R m` — `R` relates the states before and after, however the code ends
-/

namespace EphemeralAgent.Lib

/-- Synchronous code: an answer or an exception, and the state it leaves behind. -/
def Sync (S E α : Type) : Type := S → Except E α × S

namespace Sync

variable {S E α β : Type}

protected def pure (a : α) : Sync S E α := fun s => (.ok a, s)

protected def bind (m : Sync S E α) (f : α → Sync S E β) : Sync S E β := fun s =>
  match m s with
  | (.ok a, t) => f a t
  | (.error e, t) => (.error e, t)

instance : Monad (Sync S E) where
  pure := Sync.pure
  bind := Sync.bind

/-- Read the state. -/
def get : Sync S E S := fun s => (.ok s, s)

/-- Write the state. -/
def modify (f : S → S) : Sync S E Unit := fun s => (.ok (), f s)

def throw (e : E) : Sync S E α := fun s => (.error e, s)

/-- The answer of a call that may throw. -/
def lift (r : Except E α) : Sync S E α := fun s => (r, s)

/-! ## Running -/

@[simp] theorem pure_run (a : α) (s : S) : (pure a : Sync S E α) s = (.ok a, s) := rfl

@[simp] theorem bind_run (m : Sync S E α) (f : α → Sync S E β) (s : S) :
    (m >>= f) s = match m s with
      | (.ok a, t) => f a t
      | (.error e, t) => (.error e, t) := rfl

@[simp] theorem get_run (s : S) : (get : Sync S E S) s = (.ok s, s) := rfl

@[simp] theorem modify_run (f : S → S) (s : S) :
    (modify f : Sync S E Unit) s = (.ok (), f s) := rfl

@[simp] theorem throw_run (e : E) (s : S) : (throw e : Sync S E α) s = (.error e, s) := rfl

@[simp] theorem lift_run (r : Except E α) (s : S) : lift r s = (r, s) := rfl

@[simp] theorem ite_run (p : Prop) [Decidable p] (m n : Sync S E α) (s : S) :
    (if p then m else n) s = if p then m s else n s := by
  split <;> rfl

/-! ## Specifications -/

/-- From a state in `P` the code ends in `Q` when it returns and in `F` when it throws. -/
def Spec (P : S → Prop) (m : Sync S E α) (Q : α → S → Prop) (F : E → S → Prop) : Prop :=
  ∀ s, P s → match m s with
    | (.ok a, t) => Q a t
    | (.error e, t) => F e t

section Spec

variable {P P' : S → Prop} {Q Q' : α → S → Prop} {F F' : E → S → Prop}

theorem spec_pure {a : α} (h : ∀ s, P s → Q a s) : Spec P (pure a : Sync S E α) Q F := h

theorem spec_get {Q : S → S → Prop} (h : ∀ s, P s → Q s s) : Spec P (get : Sync S E S) Q F := h

theorem spec_modify {f : S → S} {Q : Unit → S → Prop} (h : ∀ s, P s → Q () (f s)) :
    Spec P (modify f : Sync S E Unit) Q F := h

theorem spec_throw {e : E} (h : ∀ s, P s → F e s) : Spec P (throw e : Sync S E α) Q F := h

theorem spec_lift {r : Except E α} (hok : ∀ a s, r = .ok a → P s → Q a s)
    (herr : ∀ e s, r = .error e → P s → F e s) : Spec P (lift r) Q F := by
  intro s hs
  cases r with
  | ok a => exact hok a s rfl hs
  | error e => exact herr e s rfl hs

/-- **The rule of sequence.** -/
theorem spec_bind {m : Sync S E α} {f : α → Sync S E β} {R : β → S → Prop}
    (hm : Spec P m Q F) (hf : ∀ a, Spec (Q a) (f a) R F) : Spec P (m >>= f) R F := by
  intro s hs
  show match Sync.bind m f s with
    | (.ok a, t) => R a t
    | (.error e, t) => F e t
  have h := hm s hs
  unfold Sync.bind
  rcases hms : m s with ⟨_ | a, t⟩
  · rw [hms] at h
    exact h
  · rw [hms] at h
    exact hf a t h

theorem spec_ite {p : Prop} [Decidable p] {m n : Sync S E α} (hm : p → Spec P m Q F)
    (hn : ¬p → Spec P n Q F) : Spec P (if p then m else n) Q F := by
  by_cases hp : p
  · rw [if_pos hp]
    exact hm hp
  · rw [if_neg hp]
    exact hn hp

theorem Spec.imp {m : Sync S E α} (h : Spec P m Q F) (hP : ∀ s, P' s → P s)
    (hQ : ∀ a s, Q a s → Q' a s) (hF : ∀ e s, F e s → F' e s) : Spec P' m Q' F' := by
  intro s hs
  have := h s (hP s hs)
  rcases hms : m s with ⟨e | a, t⟩
  · rw [hms] at this
    exact hF e t this
  · rw [hms] at this
    exact hQ a t this

end Spec

/-! ## Relations between the state before and the state after -/

/-- `R` relates the states before and after `m`, whether it returns or throws. -/
def Within (R : S → S → Prop) (m : Sync S E α) : Prop := ∀ s, R s (m s).2

section Within

variable {R : S → S → Prop}

theorem within_pure (hrefl : ∀ s, R s s) (a : α) : Within R (pure a : Sync S E α) := hrefl

theorem within_get (hrefl : ∀ s, R s s) : Within R (get : Sync S E S) := hrefl

theorem within_throw (hrefl : ∀ s, R s s) (e : E) : Within R (throw e : Sync S E α) := hrefl

theorem within_lift (hrefl : ∀ s, R s s) (r : Except E α) : Within R (lift r : Sync S E α) :=
  hrefl

theorem within_bind (htrans : ∀ {a b c}, R a b → R b c → R a c) {m : Sync S E α}
    {f : α → Sync S E β} (hm : Within R m) (hf : ∀ a, Within R (f a)) :
    Within R (m >>= f) := by
  intro s
  have h := hm s
  show R s (Sync.bind m f s).2
  unfold Sync.bind
  rcases hms : m s with ⟨e | a, t⟩
  · rw [hms] at h
    exact h
  · rw [hms] at h
    exact htrans h (hf a t)

end Within

end Sync

end EphemeralAgent.Lib
