import Mathlib.Data.List.Chain
import Mathlib.Data.List.Nodup
import Mathlib.Data.List.Perm.Subperm
import Mathlib.Logic.Relation

/-!
# Depth-first search for a cycle

The search keeps the nodes it has finished, latest first, and the nodes on its current path.  It
fails when it meets a node of its own path.

* `visit`, `visitAll` — the search from one node and from a list of nodes
* `TopoOrder` — every node of the list comes before all its successors
* `visitAll_sound` — a search that does not fail has put the nodes in such an order
* `rank_lt_of_topoOrder` — such an order ranks every node above its successors
* `exists_cycle_of_visitAll` — a search that fails has met a cycle
* `visitAll_eq_none_iff` — so a search fails exactly when there is one
-/

namespace EphemeralAgent.Lib.DepthFirst

variable {α : Type*}

/-! ## Orders -/

/-- Every node of the list comes before all its successors. -/
def TopoOrder (next : α → List α) : List α → Prop
  | [] => True
  | node :: rest => (∀ child ∈ next node, child ∈ rest) ∧ TopoOrder next rest

/-- What a search leaves: an order that extends the one before it. -/
structure Extends (next : α → List α) (done done' : List α) : Prop where
  order : TopoOrder next done → TopoOrder next done'
  subset : done ⊆ done'

theorem Extends.refl (next : α → List α) (done : List α) : Extends next done done :=
  ⟨id, List.Subset.refl done⟩

theorem Extends.trans {next : α → List α} {a b c : List α} (h₁ : Extends next a b)
    (h₂ : Extends next b c) : Extends next a c :=
  ⟨h₂.order ∘ h₁.order, List.Subset.trans h₁.subset h₂.subset⟩

theorem TopoOrder.mem {next : α → List α} {order : List α} (h : TopoOrder next order)
    {node child : α} (hnode : node ∈ order) (hchild : child ∈ next node) : child ∈ order := by
  induction order with
  | nil => cases hnode
  | cons head rest ih =>
    rcases List.mem_cons.mp hnode with rfl | hrest
    · exact List.mem_cons_of_mem _ (h.1 child hchild)
    · exact List.mem_cons_of_mem _ (ih h.2 hrest)

/-- A loop of searches: if each of them extends the order and finishes its node, so does the
loop with all its nodes. -/
theorem foldlM_extends {next : α → List α} {search : List α → α → Option (List α)}
    (hsearch : ∀ done node done', search done node = some done' →
      Extends next done done' ∧ node ∈ done') :
    ∀ (nodes : List α) (done done' : List α), nodes.foldlM search done = some done' →
      Extends next done done' ∧ ∀ node ∈ nodes, node ∈ done' := by
  intro nodes
  induction nodes with
  | nil =>
    intro done done' h
    obtain rfl : done = done' := by simpa using h
    exact ⟨.refl next done, fun _ hmem => by cases hmem⟩
  | cons node nodes ih =>
    intro done done' h
    rw [List.foldlM_cons] at h
    obtain ⟨mid, hmid, hrest⟩ := Option.bind_eq_some_iff.mp h
    obtain ⟨hfirst, hnode⟩ := hsearch done node mid hmid
    obtain ⟨hext, hall⟩ := ih mid done' hrest
    refine ⟨hfirst.trans hext, fun other hmem => ?_⟩
    rcases List.mem_cons.mp hmem with rfl | hmem
    · exact hext.subset hnode
    · exact hall other hmem

/-- A loop of searches fails in one of them. -/
theorem exists_of_foldlM_eq_none {search : List α → α → Option (List α)} {nodes done : List α}
    (h : nodes.foldlM search done = none) : ∃ mid, ∃ node ∈ nodes, search mid node = none := by
  induction nodes generalizing done with
  | nil => cases h
  | cons node nodes ih =>
    rw [List.foldlM_cons] at h
    cases hmid : search done node with
    | none => exact ⟨done, node, List.mem_cons_self, hmid⟩
    | some mid =>
      rw [hmid] at h
      obtain ⟨mid', other, hother, hnone⟩ := ih h
      exact ⟨mid', other, List.mem_cons_of_mem _ hother, hnone⟩

/-- Each node is a successor of the one after it, so the first can be reached from all others. -/
theorem reaches_of_isChain {next : α → List α} {node other : α} {path : List α}
    (h : List.IsChain (fun child parent => child ∈ next parent) (node :: path))
    (hmem : other ∈ path) : Relation.TransGen (fun parent child => child ∈ next parent) other node := by
  induction path generalizing node with
  | nil => cases hmem
  | cons parent path ih =>
    obtain ⟨hchild, hpath⟩ := List.isChain_cons_cons.mp h
    rcases List.mem_cons.mp hmem with rfl | hmem
    · exact .single hchild
    · exact (ih hpath hmem).tail hchild

/-- What has a rank that lowers along every edge has no cycle. -/
theorem not_transGen_of_rank {r : α → α → Prop} (rank : α → Nat)
    (hrank : ∀ a b, r a b → rank b < rank a) (a : α) : ¬ Relation.TransGen r a a := by
  have hlower : ∀ b, Relation.TransGen r a b → rank b < rank a := by
    intro b h
    induction h with
    | single hab => exact hrank _ _ hab
    | tail _ hbc ih => exact Nat.lt_trans (hrank _ _ hbc) ih
  intro h
  exact absurd (hlower a h) (Nat.lt_irrefl _)

/-! ## The search -/

variable [DecidableEq α]

/-- Search from `node`; `none` when a cycle is met, otherwise the finished nodes. -/
def visit (next : α → List α) : Nat → α → List α → List α → Option (List α)
  | fuel, node, done, path =>
    if node ∈ done then some done
    else if node ∈ path then none
    else
      match fuel with
      | 0 => none
      | fuel + 1 =>
        ((next node).foldlM (fun done child => visit next fuel child done (node :: path)) done).map
          (node :: ·)

/-- Search from every node of a list. -/
def visitAll (next : α → List α) (fuel : Nat) (nodes : List α) : Option (List α) :=
  nodes.foldlM (fun done node => visit next fuel node done []) []

theorem visit_extends (next : α → List α) :
    ∀ (fuel : Nat) (node : α) (done path done' : List α),
      visit next fuel node done path = some done' → Extends next done done' ∧ node ∈ done' := by
  intro fuel
  induction fuel with
  | zero =>
    intro node done path done' h
    unfold visit at h
    split at h
    · next hmem =>
      obtain rfl : done = done' := by simpa using h
      exact ⟨.refl next done, hmem⟩
    · split at h <;> cases h
  | succ fuel ih =>
    intro node done path done' h
    unfold visit at h
    split at h
    · next hmem =>
      obtain rfl : done = done' := by simpa using h
      exact ⟨.refl next done, hmem⟩
    · split at h
      · cases h
      · obtain ⟨mid, hmid, rfl⟩ := Option.map_eq_some_iff.mp h
        obtain ⟨hext, hall⟩ := foldlM_extends
          (fun done child done' hc => ih child done (node :: path) done' hc) _ _ _ hmid
        exact ⟨⟨fun horder => ⟨hall, hext.order horder⟩,
          List.Subset.trans hext.subset (List.subset_cons_self ..)⟩, List.mem_cons_self⟩

/-- **A search that meets no cycle puts the nodes in order.** -/
theorem visitAll_sound {next : α → List α} {fuel : Nat} {nodes done : List α}
    (h : visitAll next fuel nodes = some done) :
    TopoOrder next done ∧ ∀ node ∈ nodes, node ∈ done := by
  obtain ⟨hext, hall⟩ := foldlM_extends
    (fun done node done' hv => visit_extends next fuel node done [] done' hv) _ _ _ h
  exact ⟨hext.order trivial, hall⟩

/-- How many nodes of the order come no later than `node`, counted from the end. -/
def rank : List α → α → Nat
  | [], _ => 0
  | _ :: rest, node => if node ∈ rest then rank rest node else rest.length + 1

theorem rank_le (order : List α) (node : α) : rank order node ≤ order.length := by
  induction order with
  | nil => exact Nat.le_refl 0
  | cons head rest ih =>
    unfold rank
    split
    · exact Nat.le_succ_of_le ih
    · exact Nat.le_refl _

/-- **Successors rank lower.** -/
theorem rank_lt_of_topoOrder {next : α → List α} {order : List α} (h : TopoOrder next order)
    {node child : α} (hnode : node ∈ order) (hchild : child ∈ next node) :
    rank order child < rank order node := by
  induction order with
  | nil => cases hnode
  | cons head rest ih =>
    by_cases hrest : node ∈ rest
    · have hmem : child ∈ rest := h.2.mem hrest hchild
      simp only [rank, hmem, hrest, if_true]
      exact ih h.2 hrest
    · obtain rfl : node = head := (List.mem_cons.mp hnode).resolve_right hrest
      have hmem : child ∈ rest := h.1 child hchild
      simp only [rank, hmem, hrest, if_true, if_false]
      have := rank_le rest child
      omega

/-! ## Searches that fail -/

/-- With fuel for a path through all nodes, the search from a node fails at a cycle only. -/
theorem exists_cycle_of_visit {next : α → List α} {all : List α}
    (hclosed : ∀ node, next node ⊆ all) :
    ∀ (fuel : Nat) (node : α) (done path : List α), node ∈ all → path ⊆ all → path.Nodup →
      List.IsChain (fun child parent => child ∈ next parent) (node :: path) →
      all.length < path.length + fuel + 1 → visit next fuel node done path = none →
      ∃ a, Relation.TransGen (fun parent child => child ∈ next parent) a a := by
  intro fuel
  induction fuel with
  | zero =>
    intro node done path hnode hpath hnodup hchain hfuel h
    by_cases hmem : node ∈ path
    · exact ⟨node, reaches_of_isChain hchain hmem⟩
    · -- a path without repetition has no room for one more node
      have hsubset : node :: path ⊆ all := List.cons_subset.mpr ⟨hnode, hpath⟩
      have hle := (List.subperm_of_subset (List.nodup_cons.mpr ⟨hmem, hnodup⟩) hsubset).length_le
      rw [List.length_cons] at hle
      omega
  | succ fuel ih =>
    intro node done path hnode hpath hnodup hchain hfuel h
    by_cases hmem : node ∈ path
    · exact ⟨node, reaches_of_isChain hchain hmem⟩
    · unfold visit at h
      by_cases hdone : node ∈ done
      · rw [if_pos hdone] at h
        cases h
      · rw [if_neg hdone, if_neg hmem] at h
        obtain ⟨mid, child, hchild, hnone⟩ := exists_of_foldlM_eq_none (Option.map_eq_none_iff.mp h)
        refine ih child mid (node :: path) (hclosed node hchild)
          (List.cons_subset.mpr ⟨hnode, hpath⟩) (List.nodup_cons.mpr ⟨hmem, hnodup⟩)
          (List.isChain_cons_cons.mpr ⟨hchild, hchain⟩) ?_ hnone
        rw [List.length_cons]
        omega

/-- **A search that fails has met a cycle.** -/
theorem exists_cycle_of_visitAll {next : α → List α} {nodes : List α}
    (hclosed : ∀ node, next node ⊆ nodes) {fuel : Nat} (hfuel : nodes.length ≤ fuel)
    (h : visitAll next fuel nodes = none) :
    ∃ a, Relation.TransGen (fun parent child => child ∈ next parent) a a := by
  obtain ⟨mid, node, hnode, hnone⟩ := exists_of_foldlM_eq_none h
  refine exists_cycle_of_visit hclosed fuel node mid [] hnode (List.nil_subset _) List.nodup_nil
    (List.isChain_singleton _) ?_ hnone
  rw [List.length_nil]
  omega

/-- **A search with enough fuel fails exactly when there is a cycle.** -/
theorem visitAll_eq_none_iff {next : α → List α} {nodes : List α}
    (hsource : ∀ node child, child ∈ next node → node ∈ nodes)
    (hclosed : ∀ node, next node ⊆ nodes) {fuel : Nat} (hfuel : nodes.length ≤ fuel) :
    visitAll next fuel nodes = none ↔
      ∃ a, Relation.TransGen (fun parent child => child ∈ next parent) a a := by
  refine ⟨exists_cycle_of_visitAll hclosed hfuel, fun ⟨a, hcycle⟩ => ?_⟩
  cases hvisit : visitAll next fuel nodes with
  | none => rfl
  | some order =>
    obtain ⟨horder, hall⟩ := visitAll_sound hvisit
    refine absurd hcycle (not_transGen_of_rank (rank order) (fun node child hchild => ?_) a)
    exact rank_lt_of_topoOrder horder (hall node (hsource node child hchild)) hchild

end EphemeralAgent.Lib.DepthFirst
