import EphemeralAgent.Pursuit.Planner
import Mathlib.Data.Finset.Card

/-!
# Cycles among submitted items

`currentGraphCycle` with the two sets that its search marks the items in.  A search that has met a
cycle returns at once and leaves `visiting` as it is; otherwise an item leaves `visiting` when all
that it depends on is `done`.

* `DependsOn` — the dependencies among the items of one submission
* `hasCycle`, `currentGraphCycleWithin` — the code, with a bound on the depth of its calls
* `hasCycle_visit` — the answers are those of the search that keeps a path
* `currentGraphCycle_exact` — **the search ends, and finds a cycle exactly when there is one**
-/

namespace EphemeralAgent.Pursuit

open EphemeralAgent.Lib EphemeralAgent.Workflow

/-! ## The graph of a submission -/

/-- The ids of the submitted work items. -/
def PlannerOutcomePayload.ids (payload : PlannerOutcomePayload) : List String :=
  payload.workItems.map (·.id.val)

/-- The ids that a submitted work item depends on. -/
def PlannerWorkItemSpec.dependencies (spec : PlannerWorkItemSpec) : List String :=
  spec.dependsOn.map (·.val)

/-- The relation of the `depends_on` lists, among the ids of the submission. -/
def PlannerOutcomePayload.DependsOn (payload : PlannerOutcomePayload) (id dependency : String) :
    Prop :=
  dependency ∈ payload.ids ∧ ∃ spec ∈ payload.workItems,
    spec.id.val = id ∧ dependency ∈ spec.dependencies

variable {payload : PlannerOutcomePayload}

/-- An edge of the graph is a dependency between two submitted items. -/
theorem exists_of_mem_graphNext {id dependency : String}
    (h : dependency ∈ graphNext payload id) : payload.DependsOn id dependency := by
  unfold graphNext at h
  cases hfind : payload.workItems.reverse.find? fun item => item.id.val == id with
  | none =>
    rw [hfind] at h
    cases h
  | some spec =>
    rw [hfind] at h
    obtain ⟨hdependency, hany⟩ := List.mem_filter.mp h
    obtain ⟨other, hother, hid⟩ := List.any_eq_true.mp hany
    refine ⟨List.mem_map.mpr ⟨other, hother, beq_iff_eq.mp hid⟩, spec, ?_, ?_, hdependency⟩
    · exact List.mem_reverse.mp (List.mem_of_find?_eq_some hfind)
    · have hid := List.find?_some hfind
      exact beq_iff_eq.mp hid

/-- Among distinct ids every dependency is an edge. -/
theorem mem_graphNext (hids : payload.ids.Nodup) {id dependency : String}
    (h : payload.DependsOn id dependency) : dependency ∈ graphNext payload id := by
  obtain ⟨hmem, spec, hspec, rfl, hdependency⟩ := h
  -- the last item with this id is the item itself
  have hreverse : (payload.workItems.reverse.map (·.id.val)).Nodup := by
    rw [List.map_reverse, List.nodup_reverse]
    exact hids
  have hfind := find?_of_nodup hreverse (List.mem_reverse.mpr hspec)
  unfold graphNext
  rw [hfind]
  refine List.mem_filter.mpr ⟨hdependency, ?_⟩
  obtain ⟨other, hother, hid⟩ := List.mem_map.mp hmem
  exact List.any_eq_true.mpr ⟨other, hother, beq_iff_eq.mpr hid⟩

theorem graphNext_subset (payload : PlannerOutcomePayload) (id : String) :
    graphNext payload id ⊆ payload.ids :=
  fun _ hdependency => (exists_of_mem_graphNext hdependency).1

theorem mem_ids_of_mem_graphNext {id dependency : String}
    (h : dependency ∈ graphNext payload id) : id ∈ payload.ids := by
  obtain ⟨-, spec, hspec, rfl, -⟩ := exists_of_mem_graphNext h
  exact List.mem_map_of_mem hspec

/-- The search from every id of a submission, with depth for a path through all of them. -/
theorem visitAll_graphNext_iff {depth : Nat} (hdepth : payload.workItems.length ≤ depth) :
    DepthFirst.visitAll (graphNext payload) depth payload.ids = none ↔
      ∃ id, Relation.TransGen (fun id dependency => dependency ∈ graphNext payload id) id id := by
  refine DepthFirst.visitAll_eq_none_iff (fun _ _ => mem_ids_of_mem_graphNext)
    (graphNext_subset payload) ?_
  rwa [PlannerOutcomePayload.ids, List.length_map]

/-- Any such depth gives the answer. -/
theorem currentGraphCycle_eq {depth : Nat} (hdepth : payload.workItems.length ≤ depth) :
    currentGraphCycle payload =
      match DepthFirst.visitAll (graphNext payload) depth payload.ids with
      | none => some "work item depends_on contains a dependency cycle"
      | some _ => none := by
  have hsame := (visitAll_graphNext_iff (Nat.le_succ payload.workItems.length)).trans
    (visitAll_graphNext_iff hdepth).symm
  show (match DepthFirst.visitAll (graphNext payload) (payload.workItems.length + 1) payload.ids with
    | none => some _
    | some _ => none) = _
  cases hvisit : DepthFirst.visitAll (graphNext payload) depth payload.ids with
  | none => rw [hsame.mpr hvisit]
  | some order =>
    obtain ⟨order', horder'⟩ := Option.ne_none_iff_exists'.mp fun hnone =>
      Option.some_ne_none order (hvisit.symm.trans (hsame.mp hnone))
    rw [horder']

theorem currentGraphCycle_eq_none_iff (payload : PlannerOutcomePayload) :
    currentGraphCycle payload = none ↔
      ∀ id, ¬ Relation.TransGen (fun id dependency => dependency ∈ graphNext payload id) id id := by
  rw [← not_exists, ← visitAll_graphNext_iff (Nat.le_refl _), currentGraphCycle_eq (Nat.le_refl _)]
  split
  · next hnone => simp [hnone]
  · next order hsome => simp [hsome]

/-- There is one message. -/
theorem currentGraphCycle_message {error : String} (h : currentGraphCycle payload = some error) :
    error = "work item depends_on contains a dependency cycle" := by
  unfold currentGraphCycle at h
  split at h
  · exact (Option.some.inj h).symm
  · cases h

/-- Among distinct ids the edges are the dependencies. -/
theorem graphNext_eq_dependsOn (hids : payload.ids.Nodup) :
    (fun id dependency => dependency ∈ graphNext payload id) = payload.DependsOn := by
  funext id dependency
  exact propext ⟨exists_of_mem_graphNext, mem_graphNext hids⟩

/-! ## The search with its two sets -/

/-- The sets `done` and `visiting`. -/
structure Marks where
  done : Finset String := ∅
  visiting : Finset String := ∅

/-- `for (const id of ..) if (hasCycle(id)) return true;` -/
def anyCycle (hasCycle : String → Marks → Option (Bool × Marks)) :
    List String → Marks → Option (Bool × Marks)
  | [], marks => some (false, marks)
  | id :: ids, marks =>
    match hasCycle id marks with
    | some (false, marks) => anyCycle hasCycle ids marks
    | result => result

/-- `hasCycle`: its answer with the sets it leaves; `none` when it calls itself deeper than
`depth`. -/
def hasCycle (graph : String → List String) : Nat → String → Marks → Option (Bool × Marks)
  | depth, id, marks =>
    if id ∈ marks.done then some (false, marks)
    else if id ∈ marks.visiting then some (true, marks)
    else
      match depth with
      | 0 => none
      | depth + 1 =>
        match anyCycle (hasCycle graph depth) (graph id)
            { marks with visiting := insert id marks.visiting } with
        | some (false, marks) =>
          some (false, { done := insert id marks.done, visiting := marks.visiting.erase id })
        -- `return true` leaves both sets as they are
        | result => result

/-- `currentGraphCycle`, with a bound on the depth of the calls of `hasCycle`. -/
def currentGraphCycleWithin (depth : Nat) (payload : PlannerOutcomePayload) :
    Option (Option String) :=
  (anyCycle (hasCycle (graphNext payload) depth) payload.ids {}).map fun result =>
    if result.1 then some "work item depends_on contains a dependency cycle" else none

/-! ## The ways a search can go -/

variable {graph : String → List String}

/-- The ways a call of `hasCycle` can return. -/
inductive Searched (graph : String → List String) (id : String) (marks : Marks) :
    Nat → Bool × Marks → Prop
  | done {depth : Nat} (hdone : id ∈ marks.done) : Searched graph id marks depth (false, marks)
  | visiting {depth : Nat} (hnew : id ∉ marks.done) (hvisiting : id ∈ marks.visiting) :
      Searched graph id marks depth (true, marks)
  | finished {depth : Nat} {mid : Marks} (hnew : id ∉ marks.done) (hopen : id ∉ marks.visiting)
      (hloop : anyCycle (hasCycle graph depth) (graph id)
        { marks with visiting := insert id marks.visiting } = some (false, mid)) :
      Searched graph id marks (depth + 1)
        (false, { done := insert id mid.done, visiting := mid.visiting.erase id })
  | returned {depth : Nat} {mid : Marks} (hnew : id ∉ marks.done) (hopen : id ∉ marks.visiting)
      (hloop : anyCycle (hasCycle graph depth) (graph id)
        { marks with visiting := insert id marks.visiting } = some (true, mid)) :
      Searched graph id marks (depth + 1) (true, mid)

theorem searched_of_hasCycle {depth : Nat} {id : String} {marks : Marks} {result : Bool × Marks}
    (h : hasCycle graph depth id marks = some result) : Searched graph id marks depth result := by
  unfold hasCycle at h
  split at h
  · next hdone =>
    cases h
    exact .done hdone
  · next hnew =>
    split at h
    · next hvisiting =>
      cases h
      exact .visiting hnew hvisiting
    · next hopen =>
      cases depth with
      | zero => cases h
      | succ depth =>
        simp only at h
        split at h
        · next mid hloop =>
          cases h
          exact .finished hnew hopen hloop
        · next hnot =>
          obtain ⟨found, mid⟩ := result
          cases found with
          | false => exact absurd h (hnot mid)
          | true => exact .returned hnew hopen h

/-- A loop that has met no cycle leaves `visiting` as it was. -/
theorem anyCycle_visiting {search : String → Marks → Option (Bool × Marks)}
    (hsearch : ∀ id marks marks', search id marks = some (false, marks') →
      marks'.visiting = marks.visiting) {ids : List String} {marks marks' : Marks}
    (h : anyCycle search ids marks = some (false, marks')) : marks'.visiting = marks.visiting := by
  induction ids generalizing marks with
  | nil =>
    cases h
    rfl
  | cons id ids ih =>
    unfold anyCycle at h
    split at h
    · next mid hmid => exact (ih h).trans (hsearch id marks mid hmid)
    · next hnot => exact absurd h (hnot marks')

/-- A search that has met no cycle leaves `visiting` as it was. -/
theorem hasCycle_visiting {depth : Nat} {id : String} {marks marks' : Marks}
    (h : hasCycle graph depth id marks = some (false, marks')) :
    marks'.visiting = marks.visiting := by
  induction depth generalizing id marks marks' with
  | zero =>
    cases searched_of_hasCycle h with
    | done => rfl
  | succ depth ih =>
    cases searched_of_hasCycle h with
    | done => rfl
    | @finished _ mid _ hopen hloop =>
      have hkept := anyCycle_visiting (fun _ _ _ => ih) hloop
      show mid.visiting.erase id = marks.visiting
      rw [hkept]
      exact Finset.erase_insert hopen

/-! ## The search ends -/

theorem anyCycle_isSome {search : String → Marks → Option (Bool × Marks)} {ids : List String}
    {marks : Marks} (hkept : ∀ id marks marks', search id marks = some (false, marks') →
      marks'.visiting = marks.visiting)
    (hsearch : ∀ id ∈ ids, ∀ marks', marks'.visiting = marks.visiting →
      (search id marks').isSome = true) : (anyCycle search ids marks).isSome = true := by
  induction ids generalizing marks with
  | nil => rfl
  | cons id ids ih =>
    unfold anyCycle
    split
    · next mid hmid =>
      have hsame := hkept id marks mid hmid
      refine ih fun other hother marks' hvisiting => ?_
      exact hsearch other (List.mem_cons_of_mem _ hother) marks' (hvisiting.trans hsame)
    · exact hsearch id List.mem_cons_self marks rfl

/-- **The search ends**: every call marks an id more, so the calls are nested no deeper than there
are ids. -/
theorem hasCycle_isSome (all : Finset String) (hclosed : ∀ id, ∀ child ∈ graph id, child ∈ all)
    {depth : Nat} {id : String} {marks : Marks} (hid : id ∈ all) (hvisiting : marks.visiting ⊆ all)
    (hdepth : all.card ≤ marks.visiting.card + depth) :
    (hasCycle graph depth id marks).isSome = true := by
  induction depth generalizing id marks with
  | zero =>
    unfold hasCycle
    split
    · rfl
    · split
      · rfl
      · next hnew =>
        -- all ids are marked already
        rw [Finset.eq_of_subset_of_card_le hvisiting hdepth] at hnew
        exact absurd hid hnew
  | succ depth ih =>
    unfold hasCycle
    split
    · rfl
    · split
      · rfl
      · next hnew =>
        have hloop : (anyCycle (hasCycle graph depth) (graph id)
            { marks with visiting := insert id marks.visiting }).isSome = true := by
          refine anyCycle_isSome (fun _ _ _ => hasCycle_visiting) fun child hchild marks' hsame => ?_
          refine ih (hclosed id child hchild) ?_ ?_
          · rw [hsame]
            exact Finset.insert_subset hid hvisiting
          · rw [hsame, Finset.card_insert_of_notMem hnew]
            omega
        simp only
        split
        · rfl
        · exact hloop

/-! ## What the search finds -/

/-- The result of a search beside that of the search that keeps a path: the same answer, and the
same finished ids. -/
inductive SameAnswer (visiting : Finset String) : Bool × Marks → Option (List String) → Prop
  | finished {marks : Marks} {done : List String} (hdone : marks.done = done.toFinset)
      (hvisiting : marks.visiting = visiting) : SameAnswer visiting (false, marks) (some done)
  | cycle {marks : Marks} : SameAnswer visiting (true, marks) none

theorem anyCycle_foldlM {visiting : Finset String} {search : String → Marks → Option (Bool × Marks)}
    {visit : List String → String → Option (List String)}
    (hsearch : ∀ id marks done result, marks.done = done.toFinset → marks.visiting = visiting →
      search id marks = some result → SameAnswer visiting result (visit done id))
    {ids : List String} {marks : Marks} {done : List String} {result : Bool × Marks}
    (hdone : marks.done = done.toFinset) (hvisiting : marks.visiting = visiting)
    (h : anyCycle search ids marks = some result) :
    SameAnswer visiting result (ids.foldlM visit done) := by
  induction ids generalizing marks done with
  | nil =>
    cases h
    exact .finished hdone hvisiting
  | cons id ids ih =>
    rw [List.foldlM_cons]
    unfold anyCycle at h
    split at h
    · next mid hmid =>
      cases hvisit : visit done id with
      | none =>
        have hanswer := hsearch id marks done _ hdone hvisiting hmid
        rw [hvisit] at hanswer
        cases hanswer
      | some done' =>
        have hanswer := hsearch id marks done _ hdone hvisiting hmid
        rw [hvisit] at hanswer
        cases hanswer with
        | finished hdone' hvisiting' => exact ih hdone' hvisiting' h
    · next hnot =>
      have hanswer := hsearch id marks done result hdone hvisiting h
      cases hvisit : visit done id with
      | none =>
        rw [hvisit] at hanswer
        exact hanswer
      | some done' =>
        rw [hvisit] at hanswer
        cases hanswer with
        | @finished marks' => exact absurd h (hnot marks')

/-- **The answers are those of the search that keeps a path**, as long as `visiting` is the path. -/
theorem hasCycle_visit {depth : Nat} {id : String} {marks : Marks} {done path : List String}
    {result : Bool × Marks} (hdone : marks.done = done.toFinset)
    (hpath : marks.visiting = path.toFinset) (h : hasCycle graph depth id marks = some result) :
    SameAnswer path.toFinset result (DepthFirst.visit graph depth id done path) := by
  have hdone_iff : id ∈ marks.done ↔ id ∈ done := by rw [hdone, List.mem_toFinset]
  have hpath_iff : id ∈ marks.visiting ↔ id ∈ path := by rw [hpath, List.mem_toFinset]
  induction depth generalizing id marks done path result with
  | zero =>
    unfold DepthFirst.visit
    cases searched_of_hasCycle h with
    | done hmem =>
      rw [if_pos (hdone_iff.mp hmem)]
      exact .finished hdone hpath
    | visiting hnew hmem =>
      rw [if_neg (hdone_iff.not.mp hnew), if_pos (hpath_iff.mp hmem)]
      exact .cycle
  | succ depth ih =>
    -- the loop over the dependencies goes on with a longer path
    have hinsert : insert id marks.visiting = (id :: path).toFinset := by
      rw [List.toFinset_cons, hpath]
    have hloop : ∀ result, anyCycle (hasCycle graph depth) (graph id)
        { marks with visiting := insert id marks.visiting } = some result →
        SameAnswer (id :: path).toFinset result ((graph id).foldlM
          (fun done child => DepthFirst.visit graph depth child done (id :: path)) done) := by
      intro result hresult
      refine anyCycle_foldlM (fun child marks done result hdone hvisiting hc => ?_) ?_ ?_ hresult
      · exact ih hdone hvisiting hc (by rw [hdone, List.mem_toFinset])
          (by rw [hvisiting, List.mem_toFinset])
      · exact hdone
      · exact hinsert
    unfold DepthFirst.visit
    cases searched_of_hasCycle h with
    | done hmem =>
      rw [if_pos (hdone_iff.mp hmem)]
      exact .finished hdone hpath
    | visiting hnew hmem =>
      rw [if_neg (hdone_iff.not.mp hnew), if_pos (hpath_iff.mp hmem)]
      exact .cycle
    | @finished _ mid hnew hopen hmid =>
      rw [if_neg (hdone_iff.not.mp hnew), if_neg (hpath_iff.not.mp hopen)]
      simp only
      generalize hfold : (graph id).foldlM
        (fun done child => DepthFirst.visit graph depth child done (id :: path)) done = fold
      have hanswer := hfold ▸ hloop _ hmid
      cases hanswer with
      | @finished _ done' hdone' hvisiting' =>
        refine .finished ?_ ?_
        · rw [List.toFinset_cons, hdone']
        · show mid.visiting.erase id = path.toFinset
          rw [hvisiting', ← hinsert, Finset.erase_insert hopen, hpath]
    | @returned _ mid hnew hopen hmid =>
      rw [if_neg (hdone_iff.not.mp hnew), if_neg (hpath_iff.not.mp hopen)]
      simp only
      generalize hfold : (graph id).foldlM
        (fun done child => DepthFirst.visit graph depth child done (id :: path)) done = fold
      have hanswer := hfold ▸ hloop _ hmid
      cases hanswer
      exact .cycle

/-! ## The search of a submission -/

/-- The search from every id ends, with the answer of the search that keeps a path. -/
theorem currentGraphCycleWithin_eq {depth : Nat} (hdepth : payload.workItems.length ≤ depth) :
    currentGraphCycleWithin depth payload = some (currentGraphCycle payload) := by
  have hends : (anyCycle (hasCycle (graphNext payload) depth) payload.ids {}).isSome = true := by
    refine anyCycle_isSome (fun _ _ _ => hasCycle_visiting) fun id hid marks hvisiting => ?_
    refine hasCycle_isSome payload.ids.toFinset (fun id child hchild => ?_) ?_ ?_ ?_
    · exact List.mem_toFinset.mpr (graphNext_subset payload id hchild)
    · exact List.mem_toFinset.mpr hid
    · rw [hvisiting]
      exact Finset.empty_subset _
    · rw [hvisiting, Finset.card_empty, Nat.zero_add]
      refine (List.toFinset_card_le _).trans ?_
      rwa [PlannerOutcomePayload.ids, List.length_map]
  obtain ⟨⟨found, marks⟩, hfound⟩ := Option.isSome_iff_exists.mp hends
  have hanswer : SameAnswer ([] : List String).toFinset (found, marks)
      (DepthFirst.visitAll (graphNext payload) depth payload.ids) := by
    refine anyCycle_foldlM (fun id marks done result hdone hvisiting h => ?_) ?_ ?_ hfound
    · exact hasCycle_visit hdone hvisiting h
    · rfl
    · rfl
  rw [currentGraphCycleWithin, hfound, currentGraphCycle_eq hdepth]
  generalize DepthFirst.visitAll (graphNext payload) depth payload.ids = order at hanswer
  cases hanswer with
  | finished => rfl
  | cycle => rfl

/-- **Cycle detection is exact**: for distinct ids the search ends at a depth of at most the number
of items, it finds nothing exactly when the dependencies have no cycle, and its answer depends on
nothing else. -/
theorem currentGraphCycle_exact (payload : PlannerOutcomePayload) (hids : payload.ids.Nodup) :
    (∀ depth, payload.workItems.length ≤ depth →
      currentGraphCycleWithin depth payload = some (currentGraphCycle payload)) ∧
    (currentGraphCycle payload = none ↔ ∀ id, ¬ Relation.TransGen payload.DependsOn id id) ∧
    ∀ other : PlannerOutcomePayload, other.ids.Nodup →
      (∀ id dependency, other.DependsOn id dependency ↔ payload.DependsOn id dependency) →
      currentGraphCycle other = currentGraphCycle payload := by
  refine ⟨fun depth => currentGraphCycleWithin_eq, ?_, fun other hother hsame => ?_⟩
  · rw [currentGraphCycle_eq_none_iff, graphNext_eq_dependsOn hids]
  · have hgraph : other.DependsOn = payload.DependsOn := by
      funext id dependency
      exact propext (hsame id dependency)
    have hnone : currentGraphCycle other = none ↔ currentGraphCycle payload = none := by
      rw [currentGraphCycle_eq_none_iff, currentGraphCycle_eq_none_iff,
        graphNext_eq_dependsOn hother, graphNext_eq_dependsOn hids, hgraph]
    cases hother : currentGraphCycle other with
    | none => exact (hnone.mp hother).symm
    | some error =>
      cases hpayload : currentGraphCycle payload with
      | none => cases hother.symm.trans (hnone.mpr hpayload)
      | some error' => rw [currentGraphCycle_message hother, currentGraphCycle_message hpayload]

/-- Two items: the first depends twice on the second, and on an id of neither. -/
def pairOfItems (dependsOn : List NonEmptyString) : PlannerOutcomePayload where
  summary := ⟨"a pair", by decide⟩
  legGoal := none
  nextLegGoal := none
  workItems :=
    [{ id := ⟨"a", by decide⟩, agentName := ⟨"worker", by decide⟩, title := ⟨"A", by decide⟩
       spec := ⟨"do a", by decide⟩
       dependsOn := [⟨"b", by decide⟩, ⟨"b", by decide⟩, ⟨"elsewhere", by decide⟩] },
      { id := ⟨"b", by decide⟩, agentName := ⟨"worker", by decide⟩, title := ⟨"B", by decide⟩
        spec := ⟨"do b", by decide⟩, dependsOn }]
  nonempty := nofun

/-- The second item depends on nothing; or on the first, which closes a cycle. -/
theorem currentGraphCycle_exact_pair :
    (currentGraphCycleWithin 2 (pairOfItems []) = some none ∧
      ∀ id, ¬ Relation.TransGen (pairOfItems []).DependsOn id id) ∧
    ((currentGraphCycleWithin 2 (pairOfItems [⟨"a", by decide⟩])).any Option.isSome = true ∧
      ∃ id, Relation.TransGen (pairOfItems [⟨"a", by decide⟩]).DependsOn id id) := by
  obtain ⟨hends, hnone, -⟩ := currentGraphCycle_exact (pairOfItems []) (by decide)
  obtain ⟨hends', hsome, -⟩ :=
    currentGraphCycle_exact (pairOfItems [⟨"a", by decide⟩]) (by decide)
  have hopen : currentGraphCycle (pairOfItems []) = none := by decide +kernel
  have hclosed : (currentGraphCycle (pairOfItems [⟨"a", by decide⟩])).isSome = true := by
    decide +kernel
  refine ⟨⟨?_, hnone.mp hopen⟩, ?_, ?_⟩
  · rw [hends 2 (Nat.le_refl 2), hopen]
  · rw [hends' 2 (Nat.le_refl 2)]
    exact hclosed
  · by_contra hacyclic
    rw [hsome.mpr (not_exists.mp hacyclic)] at hclosed
    cases hclosed

end EphemeralAgent.Pursuit
