import Mathlib.Data.List.Nodup
import Mathlib.Data.List.Perm.Basic
import Mathlib.Logic.Function.Basic
import EphemeralAgent.Lib.Transition

/-!
# The sandbox of a run

`src/sandbox/run-binding.ts` over `RunSandboxRegistry`: `acquire` binds the sandbox that the gateway
hands out to a run, and `end` drops the binding, ends the run in the sandbox and releases it.  Any
call to the gateway may reject.

* `Sandboxes`, `step` — the registry and the calls that are in flight, in any interleaving
* `NoLeak` — a sandbox that was handed out can be found again, or its release was sent
* `Kept` — no binding is overwritten and no `sandbox.run.end` rejects
* `Moves`, `moves_of_step` — where a step takes a sandbox from, and where it puts it
* `Accounted`, `Placed` — every sandbox is somewhere, and in one place only
-/

namespace EphemeralAgent.Sandbox.Binding

open Lib

abbrev RunId := String
abbrev SandboxId := String

/-! ## The registry -/

/-- `RunSandboxRegistry`. -/
abbrev RunSandboxRegistry := RunId → Option SandboxId

namespace RunSandboxRegistry

/-- `bind`. -/
def bind (r : RunSandboxRegistry) (runId : RunId) (sandboxId : SandboxId) : RunSandboxRegistry :=
  Function.update r runId (some sandboxId)

/-- What `release` leaves; it returns what was bound. -/
def release (r : RunSandboxRegistry) (runId : RunId) : RunSandboxRegistry :=
  Function.update r runId none

end RunSandboxRegistry

/-! ## The calls -/

/-- A call of `acquire` or `end` that has not returned, by what it waits for. -/
inductive InFlight where
  | acquiring (runId : RunId)
  | acquired (runId : RunId) (sandboxId : SandboxId)
  | ending (runId : RunId) (sandboxId : SandboxId)
  | releasing (runId : RunId) (sandboxId : SandboxId)
deriving DecidableEq

/-- The registry, the calls in flight, the sandboxes that were handed out to an `acquire` that
succeeded, and those whose `sandbox.release` was sent. -/
structure Sandboxes where
  registry : RunSandboxRegistry
  calls : List InFlight
  handed : List SandboxId
  released : List SandboxId

/-- A call of the lifecycle, or what comes of the request that a call waits for. -/
inductive Label where
  | acquire (runId : RunId)
  | acquireAnswered (i : Nat) (sandboxId : SandboxId)
  | acquireRejected (i : Nat)
  | bound (i : Nat)
  | endRun (runId : RunId)
  | endAnswered (i : Nat)
  | endRejected (i : Nat)
  | releaseSettled (i : Nat)

namespace Sandboxes

def initial : Sandboxes :=
  { registry := fun _ => none, calls := [], handed := [], released := [] }

def step (s : Sandboxes) : Label → Option Sandboxes
  | .acquire runId => some { s with calls := s.calls ++ [.acquiring runId] }
  | .acquireAnswered i sandboxId =>
    match s.calls[i]? with
    | some (.acquiring runId) =>
      some { s with calls := s.calls.set i (.acquired runId sandboxId),
                    handed := s.handed ++ [sandboxId] }
    | _ => none
  | .acquireRejected i =>
    match s.calls[i]? with
    | some (.acquiring _) => some { s with calls := s.calls.eraseIdx i }
    | _ => none
  | .bound i =>
    match s.calls[i]? with
    | some (.acquired runId sandboxId) =>
      some { s with registry := s.registry.bind runId sandboxId, calls := s.calls.eraseIdx i }
    | _ => none
  | .endRun runId =>
    match s.registry runId with
    | none => some { s with registry := s.registry.release runId }
    | some sandboxId =>
      some { s with registry := s.registry.release runId,
                    calls := s.calls ++ [.ending runId sandboxId] }
  | .endAnswered i =>
    match s.calls[i]? with
    | some (.ending runId sandboxId) =>
      some { s with calls := s.calls.set i (.releasing runId sandboxId),
                    released := s.released ++ [sandboxId] }
    | _ => none
  | .endRejected i =>
    match s.calls[i]? with
    | some (.ending _ _) => some { s with calls := s.calls.eraseIdx i }
    | _ => none
  | .releaseSettled i =>
    match s.calls[i]? with
    | some (.releasing _ _) => some { s with calls := s.calls.eraseIdx i }
    | _ => none

end Sandboxes

/-! ## No leak -/

/-- A later `end` can release the sandbox. -/
def Sandboxes.Resolvable (s : Sandboxes) (id : SandboxId) : Prop :=
  ∃ runId, s.registry runId = some id

/-- The step overwrites no binding to another sandbox, and is no rejection of
`sandbox.run.end`. -/
def Kept (s : Sandboxes) : Label → Prop
  | .bound i =>
    match s.calls[i]? with
    | some (.acquired runId sandboxId) =>
      s.registry runId = none ∨ s.registry runId = some sandboxId
    | _ => True
  | .endRejected _ => False
  | _ => True

instance (s : Sandboxes) (l : Label) : Decidable (Kept s l) := by
  unfold Kept
  split
  · split <;> infer_instance
  · infer_instance
  · infer_instance

/-! ## Where a sandbox is -/

/-- The sandbox that a call in flight still has to bind or to release. -/
def InFlight.holds : InFlight → Option SandboxId
  | .acquired _ sandboxId => some sandboxId
  | .ending _ sandboxId => some sandboxId
  | _ => none

/-- The sandboxes in the hands of the calls. -/
def Sandboxes.held (s : Sandboxes) : List SandboxId :=
  s.calls.filterMap (·.holds)

/-- How one step moves a sandbox. -/
inductive Moves (s s' : Sandboxes) : Label → Prop
  | quiet {l : Label} (hkept : Kept s l) (hregistry : s'.registry = s.registry)
      (hheld : s'.held.Perm s.held) (hhanded : s'.handed = s.handed)
      (hreleased : s'.released = s.released) : Moves s s' l
  | handed {l : Label} (id : SandboxId) (hkept : Kept s l) (hregistry : s'.registry = s.registry)
      (hheld : s'.held.Perm (id :: s.held)) (hhanded : s'.handed = s.handed ++ [id])
      (hreleased : s'.released = s.released) : Moves s s' l
  | bound (i : Nat) (runId : RunId) (id : SandboxId)
      (hcall : s.calls[i]? = some (.acquired runId id))
      (hregistry : s'.registry = s.registry.bind runId id) (hheld : s.held.Perm (id :: s'.held))
      (hhanded : s'.handed = s.handed) (hreleased : s'.released = s.released) :
      Moves s s' (.bound i)
  | taken {l : Label} (runId : RunId) (id : SandboxId) (hkept : Kept s l)
      (hbound : s.registry runId = some id) (hregistry : s'.registry = s.registry.release runId)
      (hheld : s'.held.Perm (id :: s.held))
      (hhanded : s'.handed = s.handed) (hreleased : s'.released = s.released) : Moves s s' l
  | sent {l : Label} (id : SandboxId) (hkept : Kept s l) (hregistry : s'.registry = s.registry)
      (hheld : s.held.Perm (id :: s'.held)) (hhanded : s'.handed = s.handed)
      (hreleased : s'.released = s.released ++ [id]) : Moves s s' l
  | dropped (i : Nat) (id : SandboxId) (hregistry : s'.registry = s.registry)
      (hheld : s.held.Perm (id :: s'.held)) (hhanded : s'.handed = s.handed)
      (hreleased : s'.released = s.released) : Moves s s' (.endRejected i)

section Held

variable {calls : List InFlight} {i : Nat} {call : InFlight}

/-- A call in flight, and the others. -/
theorem held_perm (h : calls[i]? = some call) :
    (calls.filterMap (·.holds)).Perm
      (call.holds.toList ++ (calls.eraseIdx i).filterMap (·.holds)) := by
  obtain ⟨hi, rfl⟩ := List.getElem?_eq_some_iff.mp h
  have hperm := (List.getElem_cons_eraseIdx_perm hi).symm.filterMap (·.holds)
  refine hperm.trans ?_
  cases hholds : calls[i].holds <;> simp [hholds]

/-- A call in flight that goes on, and the others. -/
theorem held_set_perm (h : calls[i]? = some call) (next : InFlight) :
    ((calls.set i next).filterMap (·.holds)).Perm
      (next.holds.toList ++ (calls.eraseIdx i).filterMap (·.holds)) := by
  obtain ⟨hi, -⟩ := List.getElem?_eq_some_iff.mp h
  have hperm := (List.set_perm_cons_eraseIdx hi next).filterMap (·.holds)
  refine hperm.trans ?_
  cases hholds : next.holds <;> simp [hholds]

end Held

/-- **What a step does to the sandboxes.** -/
theorem moves_of_step {s s' : Sandboxes} {l : Label} (h : s.step l = some s') : Moves s s' l := by
  unfold Sandboxes.step at h
  cases l with
  | acquire runId =>
    simp only [Option.some.injEq] at h
    subst h
    exact .quiet trivial rfl (by simp [Sandboxes.held, InFlight.holds]) rfl rfl
  | acquireAnswered i id =>
    simp only at h
    split at h
    · next runId hcall =>
      simp only [Option.some.injEq] at h
      subst h
      -- the id comes from the backend, and is held by the call until it is bound
      refine .handed id trivial rfl ?_ rfl rfl
      exact (held_set_perm hcall _).trans ((held_perm hcall).symm.cons id)
    · cases h
  | acquireRejected i | releaseSettled i =>
    simp only at h
    split at h
    · next hcall =>
      simp only [Option.some.injEq] at h
      subst h
      exact .quiet trivial rfl (held_perm hcall).symm rfl rfl
    · cases h
  | bound i =>
    simp only at h
    split at h
    · next runId id hcall =>
      simp only [Option.some.injEq] at h
      subst h
      exact .bound i runId id hcall rfl (held_perm hcall) rfl rfl
    · cases h
  | endRun runId =>
    simp only at h
    split at h
    · next hnone =>
      simp only [Option.some.injEq] at h
      subst h
      refine .quiet trivial ?_ (.refl _) rfl rfl
      -- a run without a binding: the registry is as it was
      show Function.update s.registry runId none = s.registry
      rw [← hnone, Function.update_eq_self]
    · next id hbound =>
      simp only [Option.some.injEq] at h
      subst h
      -- the id moves from the registry into the call
      refine .taken runId id trivial hbound rfl ?_ rfl rfl
      simp only [Sandboxes.held, List.filterMap_append]
      exact List.perm_append_singleton id _
  | endAnswered i =>
    simp only at h
    split at h
    · next runId id hcall =>
      simp only [Option.some.injEq] at h
      subst h
      refine .sent id trivial rfl ?_ rfl rfl
      exact (held_perm hcall).trans
        ((held_set_perm hcall (.releasing runId id)).symm.cons id)
    · cases h
  | endRejected i =>
    simp only at h
    split at h
    · next runId id hcall =>
      simp only [Option.some.injEq] at h
      subst h
      exact .dropped i id rfl (held_perm hcall) rfl rfl
    · cases h

/-! ## Nothing is lost -/

/-- Somebody can still release the sandbox, or has. -/
def Sandboxes.Somewhere (s : Sandboxes) (id : SandboxId) : Prop :=
  s.Resolvable id ∨ id ∈ s.held ∨ id ∈ s.released

/-- Every sandbox that was handed out is somewhere. -/
def Accounted (s : Sandboxes) : Prop :=
  ∀ id ∈ s.handed, s.Somewhere id

section Accounted

variable {s s' : Sandboxes} {l : Label} {id : SandboxId}

theorem resolvable_congr (h : s'.registry = s.registry) : s'.Resolvable id ↔ s.Resolvable id := by
  unfold Sandboxes.Resolvable
  rw [h]

theorem resolvable_bind {runId : RunId} {sandboxId : SandboxId}
    (hregistry : s'.registry = s.registry.bind runId sandboxId) :
    s'.Resolvable id ↔ id = sandboxId ∨ ∃ r, r ≠ runId ∧ s.registry r = some id := by
  unfold Sandboxes.Resolvable
  rw [hregistry]
  constructor
  · rintro ⟨r, hr⟩
    by_cases heq : r = runId
    · subst heq
      simp only [RunSandboxRegistry.bind, Function.update_self, Option.some.injEq] at hr
      exact Or.inl hr.symm
    · exact Or.inr ⟨r, heq, by simpa [RunSandboxRegistry.bind, heq] using hr⟩
  · rintro (rfl | ⟨r, hne, hr⟩)
    · exact ⟨runId, by simp [RunSandboxRegistry.bind]⟩
    · exact ⟨r, by simpa [RunSandboxRegistry.bind, hne] using hr⟩

theorem resolvable_release {runId : RunId}
    (hregistry : s'.registry = s.registry.release runId) :
    s'.Resolvable id ↔ ∃ r, r ≠ runId ∧ s.registry r = some id := by
  unfold Sandboxes.Resolvable
  rw [hregistry]
  constructor
  · rintro ⟨r, hr⟩
    by_cases heq : r = runId
    · subst heq
      simp [RunSandboxRegistry.release] at hr
    · exact ⟨r, heq, by simpa [RunSandboxRegistry.release, heq] using hr⟩
  · rintro ⟨r, hne, hr⟩
    exact ⟨r, by simpa [RunSandboxRegistry.release, hne] using hr⟩

/-- **A step that meets `Kept` loses no sandbox.** -/
theorem somewhere_step (hok : Kept s l) (h : s.step l = some s') (hid : s.Somewhere id) :
    s'.Somewhere id := by
  unfold Sandboxes.Somewhere at hid ⊢
  cases moves_of_step h with
  | quiet _ hregistry hheld _ hreleased =>
    rw [resolvable_congr hregistry, hheld.mem_iff, hreleased]
    exact hid
  | handed new _ hregistry hheld _ hreleased =>
    rw [resolvable_congr hregistry, hheld.mem_iff, hreleased, List.mem_cons]
    exact hid.imp_right (Or.imp_left Or.inr)
  | bound i runId new hcall hregistry hheld _ hreleased =>
    rw [resolvable_bind hregistry, hreleased]
    rw [hheld.mem_iff, List.mem_cons] at hid
    rcases hid with ⟨r, hr⟩ | (heq | hmem) | hmem
    · by_cases hrun : r = runId
      · -- the binding that goes is the same sandbox
        subst hrun
        simp only [Kept, hcall, hr, reduceCtorEq, Option.some.injEq, false_or] at hok
        exact Or.inl (Or.inl hok)
      · exact Or.inl (Or.inr ⟨r, hrun, hr⟩)
    · exact Or.inl (Or.inl heq)
    · exact Or.inr (Or.inl hmem)
    · exact Or.inr (Or.inr hmem)
  | taken runId old _ hbound hregistry hheld _ hreleased =>
    rw [resolvable_release hregistry, hheld.mem_iff, hreleased, List.mem_cons]
    rcases hid with ⟨r, hr⟩ | hmem | hmem
    · by_cases hrun : r = runId
      · rw [hrun, hbound] at hr
        exact Or.inr (Or.inl (Or.inl (Option.some.inj hr).symm))
      · exact Or.inl ⟨r, hrun, hr⟩
    · exact Or.inr (Or.inl (Or.inr hmem))
    · exact Or.inr (Or.inr hmem)
  | sent old _ hregistry hheld _ hreleased =>
    rw [resolvable_congr hregistry, hreleased, List.mem_append, List.mem_singleton]
    rw [hheld.mem_iff, List.mem_cons] at hid
    rcases hid with hr | (heq | hmem) | hmem
    · exact Or.inl hr
    · exact Or.inr (Or.inr (Or.inr heq))
    · exact Or.inr (Or.inl hmem)
    · exact Or.inr (Or.inr (Or.inl hmem))
  | dropped i old => exact False.elim hok

theorem handed_step (h : s.step l = some s') :
    s'.handed = s.handed ∨ ∃ id ∈ s'.held, s'.handed = s.handed ++ [id] := by
  cases moves_of_step h with
  | quiet _ _ _ hhanded _ | bound _ _ _ _ _ _ hhanded _ | taken _ _ _ _ _ _ hhanded _
  | sent _ _ _ _ hhanded _ | dropped _ _ _ _ hhanded _ => exact Or.inl hhanded
  | handed id _ _ hheld hhanded _ => exact Or.inr ⟨id, hheld.mem_iff.mpr (by simp), hhanded⟩

theorem accounted_step (hok : Kept s l) (hs : Accounted s) (h : s.step l = some s') :
    Accounted s' := by
  intro id hid
  rcases handed_step h with heq | ⟨new, hheld, heq⟩
  · rw [heq] at hid
    exact somewhere_step hok h (hs id hid)
  · rw [heq, List.mem_append, List.mem_singleton] at hid
    rcases hid with hid | rfl
    · exact somewhere_step hok h (hs id hid)
    · exact Or.inr (Or.inl hheld)

end Accounted

/-! ## What is lost stays lost -/

/-- A sandbox is in one place only: bound to one run, in the hands of one call, or released. -/
structure Placed (s : Sandboxes) : Prop where
  bound : ∀ runId id, s.registry runId = some id → id ∈ s.handed ∧ id ∉ s.held ∧ id ∉ s.released
  single : ∀ r r' id, s.registry r = some id → s.registry r' = some id → r = r'
  nodup : s.held.Nodup
  held : ∀ id ∈ s.held, id ∈ s.handed ∧ id ∉ s.released
  released : ∀ id ∈ s.released, id ∈ s.handed

section Placed

variable {s s' : Sandboxes} {l : Label} {id : SandboxId} {ls : List Label}

/-- A call that lets go of a sandbox had it alone. -/
theorem Placed.held_cons (hs : Placed s) {rest : List SandboxId} (hheld : s.held.Perm (id :: rest)) :
    id ∉ rest ∧ rest.Nodup ∧ ∀ other ∈ rest, other ∈ s.handed ∧ other ∉ s.released := by
  have hnodup := hheld.nodup_iff.mp hs.nodup
  rw [List.nodup_cons] at hnodup
  exact ⟨hnodup.1, hnodup.2, fun other hother =>
    hs.held other (hheld.mem_iff.mpr (List.mem_cons_of_mem _ hother))⟩

/-- The gateway hands a new sandbox to a call. -/
theorem Placed.handed (hs : Placed s) {new : SandboxId} (hnew : new ∉ s.handed)
    (hregistry : s'.registry = s.registry) (hheld : s'.held.Perm (new :: s.held))
    (hhanded : s'.handed = s.handed ++ [new]) (hreleased : s'.released = s.released) :
    Placed s' := by
  have hold : ∀ id ∈ s.handed, id ∈ s'.handed := by
    intro id hid
    rw [hhanded]
    exact List.mem_append_left _ hid
  refine ⟨?_, ?_, ?_, ?_, ?_⟩
  · intro runId id hid
    rw [hregistry] at hid
    obtain ⟨hhand, hheld', hrel⟩ := hs.bound runId id hid
    rw [hreleased, hheld.mem_iff, List.mem_cons, not_or]
    exact ⟨hold id hhand, ⟨fun heq => hnew (heq ▸ hhand), hheld'⟩, hrel⟩
  · simpa only [hregistry] using hs.single
  · rw [hheld.nodup_iff, List.nodup_cons]
    exact ⟨fun hmem => hnew (hs.held new hmem).1, hs.nodup⟩
  · intro id hid
    rw [hheld.mem_iff, List.mem_cons] at hid
    rw [hreleased]
    rcases hid with rfl | hid
    · exact ⟨by rw [hhanded]; simp, fun hmem => hnew (hs.released id hmem)⟩
    · exact ⟨hold id (hs.held id hid).1, (hs.held id hid).2⟩
  · intro id hid
    rw [hreleased] at hid
    exact hold id (hs.released id hid)

/-- A call binds the sandbox that it has acquired to its run. -/
theorem Placed.bind (hs : Placed s) {runId : RunId} {new : SandboxId}
    (hregistry : s'.registry = s.registry.bind runId new) (hheld : s.held.Perm (new :: s'.held))
    (hhanded : s'.handed = s.handed) (hreleased : s'.released = s.released) : Placed s' := by
  obtain ⟨hnot, hrest, hothers⟩ := hs.held_cons hheld
  obtain ⟨hhand, hrel⟩ := hs.held new (hheld.mem_iff.mpr (by simp))
  -- what is bound now was bound before, or is the sandbox of the call
  have hnow : ∀ r id, s'.registry r = some id →
      (r = runId ∧ id = new) ∨ (r ≠ runId ∧ s.registry r = some id) := by
    intro r id hr
    rw [hregistry] at hr
    by_cases heq : r = runId
    · subst heq
      simp only [RunSandboxRegistry.bind, Function.update_self, Option.some.injEq] at hr
      exact Or.inl ⟨rfl, hr.symm⟩
    · exact Or.inr ⟨heq, by simpa [RunSandboxRegistry.bind, heq] using hr⟩
  have hunbound : ∀ r, s.registry r ≠ some new := fun r hr =>
    (hs.bound r new hr).2.1 (hheld.mem_iff.mpr (by simp))
  refine ⟨?_, ?_, hrest, ?_, ?_⟩
  · intro r id hr
    rw [hhanded, hreleased]
    rcases hnow r id hr with ⟨-, rfl⟩ | ⟨-, hr⟩
    · exact ⟨hhand, hnot, hrel⟩
    · obtain ⟨hhand', hheld', hrel'⟩ := hs.bound r id hr
      exact ⟨hhand', fun hmem => hheld' (hheld.mem_iff.mpr (List.mem_cons_of_mem _ hmem)), hrel'⟩
  · intro r r' id hr hr'
    rcases hnow r id hr with ⟨rfl, rfl⟩ | ⟨-, hr⟩
    · rcases hnow r' id hr' with ⟨rfl, -⟩ | ⟨-, hr'⟩
      · rfl
      · exact absurd hr' (hunbound r')
    · rcases hnow r' id hr' with ⟨-, rfl⟩ | ⟨-, hr'⟩
      · exact absurd hr (hunbound r)
      · exact hs.single r r' id hr hr'
  · rw [hhanded, hreleased]
    exact hothers
  · rw [hhanded, hreleased]
    exact hs.released

/-- The end of a run takes its sandbox from the registry. -/
theorem Placed.take (hs : Placed s) {runId : RunId} {old : SandboxId}
    (hbound : s.registry runId = some old) (hregistry : s'.registry = s.registry.release runId)
    (hheld : s'.held.Perm (old :: s.held)) (hhanded : s'.handed = s.handed)
    (hreleased : s'.released = s.released) : Placed s' := by
  obtain ⟨hhand, hheld', hrel⟩ := hs.bound runId old hbound
  have hnow : ∀ r id, s'.registry r = some id → r ≠ runId ∧ s.registry r = some id := by
    intro r id hr
    rw [hregistry] at hr
    by_cases heq : r = runId
    · subst heq
      simp [RunSandboxRegistry.release] at hr
    · exact ⟨heq, by simpa [RunSandboxRegistry.release, heq] using hr⟩
  refine ⟨?_, ?_, ?_, ?_, ?_⟩
  · intro r id hr
    obtain ⟨hne, hr⟩ := hnow r id hr
    obtain ⟨hhand', hheld'', hrel'⟩ := hs.bound r id hr
    rw [hhanded, hreleased, hheld.mem_iff, List.mem_cons, not_or]
    refine ⟨hhand', ⟨?_, hheld''⟩, hrel'⟩
    rintro rfl
    exact hne (hs.single r runId id hr hbound)
  · intro r r' id hr hr'
    exact hs.single r r' id (hnow r id hr).2 (hnow r' id hr').2
  · rw [hheld.nodup_iff, List.nodup_cons]
    exact ⟨hheld', hs.nodup⟩
  · intro id hid
    rw [hheld.mem_iff, List.mem_cons] at hid
    rw [hhanded, hreleased]
    rcases hid with rfl | hid
    · exact ⟨hhand, hrel⟩
    · exact hs.held id hid
  · rw [hhanded, hreleased]
    exact hs.released

/-- Every sandbox is somewhere after a run whose steps meet `Kept`. -/
theorem accounted_of_run (run : Run Sandboxes.step Kept .initial ls s) : Accounted s :=
  run.invariant (I := Accounted) (by simp [Accounted, Sandboxes.initial])
    fun _ _ _ hok hs hstep => accounted_step hok hs hstep

end Placed

end EphemeralAgent.Sandbox.Binding
