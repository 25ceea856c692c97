import Antipattern.Proofs.DocumentOrder

/-!
The calls of a walk, said without the subscription table: a detector is called at a position if
and only if it asked for the node's kind and the node is not generated code that it passes over.
A walk makes these calls in the order of positions and, at one position, in the order in which
the detectors were registered.
-/

namespace Antipattern

namespace Subscriptions

theorem subscribers_enter (kind k : NodeKind) (index : Nat) (table : Subscriptions) :
    (enter kind index table).subscribers k =
      if k = kind ∧ index ∉ table.subscribers k then table.subscribers k ++ [index]
      else table.subscribers k := by
  induction table with
  | nil =>
      by_cases h : k = kind
      · simp [enter, subscribers, h]
      · simp [enter, subscribers, h, List.lookup_cons, beq_eq_false_iff_ne.mpr h]
  | cons entry rest ih =>
      obtain ⟨first, indices⟩ := entry
      by_cases hf : kind = first
      · subst hf
        by_cases h : k = kind
        · subst h
          by_cases hm : index ∈ indices <;> simp [enter, subscribers, hm]
        · simp [enter, subscribers, h, List.lookup_cons, beq_eq_false_iff_ne.mpr h]
      · by_cases h : k = first
        · subst h
          simp [enter, subscribers, hf, Ne.symm hf]
        · have skip (table : Subscriptions) :
              subscribers ((first, indices) :: table) k = table.subscribers k := by
            simp [subscribers, List.lookup_cons, beq_eq_false_iff_ne.mpr h]
          rw [enter, if_neg hf, skip, skip]
          exact ih

theorem subscribers_enterAll (kinds : List NodeKind) (k : NodeKind) (index : Nat)
    (table : Subscriptions) :
    (enterAll kinds index table).subscribers k =
      if k ∈ kinds ∧ index ∉ table.subscribers k then table.subscribers k ++ [index]
      else table.subscribers k := by
  induction kinds generalizing table with
  | nil => simp [enterAll]
  | cons kind kinds ih =>
      have unfolded : enterAll (kind :: kinds) index table =
          enterAll kinds index (enter kind index table) := rfl
      rw [unfolded, ih, subscribers_enter]
      by_cases hm : index ∈ table.subscribers k
      · simp [hm]
      · by_cases hk : k = kind
        · subst hk
          simp [hm]
        · simp [hm, hk]

end Subscriptions

namespace Runner

variable {σ : Type}

/-- Whether a detector is called at a node of some kind, generated or not. -/
def shows (r : Runner σ) (d : Detector σ) (kind : NodeKind) (generated : Bool) : Bool :=
  d.kinds.contains kind && !r.passesOver d generated

theorem shows_iff (r : Runner σ) (d : Detector σ) (kind : NodeKind) (generated : Bool) :
    r.shows d kind generated = true ↔
      kind ∈ d.kinds ∧
        (generated = true → r.includeGenerated = true ∨ d.analyzesGenerated = true) := by
  rw [shows, passesOver, Bool.and_eq_true, List.contains_iff_mem]
  cases generated <;> cases r.includeGenerated <;> cases d.analyzesGenerated <;> simp

private theorem subscribers_foldl (kind : NodeKind) (ds : List (Detector σ)) (n : Nat)
    (table : Subscriptions) (below : ∀ i ∈ table.subscribers kind, i < n) :
    ((ds.zipIdx n).foldl (fun table d => Subscriptions.enterAll d.1.kinds d.2 table)
        table).subscribers kind =
      table.subscribers kind ++
        ((ds.zipIdx n).filter fun d => d.1.kinds.contains kind).map (·.2) := by
  induction ds generalizing n table with
  | nil => simp
  | cons d ds ih =>
      have entered : (table.enterAll d.kinds n).subscribers kind =
          table.subscribers kind ++ if d.kinds.contains kind then [n] else [] := by
        have fresh : n ∉ table.subscribers kind := fun h => Nat.lt_irrefl n (below n h)
        rw [Subscriptions.subscribers_enterAll]
        by_cases h : kind ∈ d.kinds <;> simp [h, fresh]
      simp only [List.zipIdx_cons, List.foldl_cons]
      rw [ih (n + 1) (table.enterAll d.kinds n), entered]
      · by_cases h : kind ∈ d.kinds <;> simp [h]
      · intro i hi
        rw [entered, List.mem_append] at hi
        rcases hi with hi | hi
        · exact Nat.lt_succ_of_lt (below i hi)
        · by_cases h : kind ∈ d.kinds
          · simp only [List.contains_iff_mem, h, ite_true, List.mem_singleton] at hi
            omega
          · simp [h] at hi

theorem subscribers_subscriptions (r : Runner σ) (kind : NodeKind) :
    r.subscriptions.subscribers kind =
      (r.detectors.zipIdx.filter fun d => d.1.kinds.contains kind).map (·.2) := by
  have h := subscribers_foldl kind r.detectors 0 [] fun i hi => by cases hi
  simpa [subscriptions, Subscriptions.subscribers] using h

private theorem visits_of_registered (r : Runner σ) (n : SyntaxNode) (generated : Bool)
    (ds : List (Detector σ × Nat)) (registered : ∀ d ∈ ds, r.detectors[d.2]? = some d.1) :
    (ds.map (·.2)).filterMap (fun index =>
        r.detectors[index]?.bind fun d =>
          if r.passesOver d generated then none else some (⟨index, d, n⟩ : Visit σ)) =
      (ds.filter fun d => !r.passesOver d.1 generated).map fun d => ⟨d.2, d.1, n⟩ := by
  induction ds with
  | nil => rfl
  | cons d ds ih =>
      have rest := ih fun e he => registered e (List.mem_cons_of_mem d he)
      rw [List.map_cons, List.filterMap_cons, registered d List.mem_cons_self, rest]
      by_cases h : r.passesOver d.1 generated <;> simp [h]

theorem visitsAt_subscriptions (r : Runner σ) (n : SyntaxNode) (generated : Bool) :
    r.visitsAt r.subscriptions n generated =
      (r.detectors.zipIdx.filter fun d => r.shows d.1 n.kind generated).map
        fun d => ⟨d.2, d.1, n⟩ := by
  rw [visitsAt, subscribers_subscriptions, visits_of_registered, List.filter_filter]
  · simp only [shows, Bool.and_comm]
  · intro d hd
    exact List.mem_zipIdx_iff_getElem?.mp (List.mem_filter.mp hd).1

theorem visits_subscriptions (r : Runner σ) (t : SyntaxTree) :
    r.visits r.subscriptions t =
      t.places.flatMap fun x => r.visitsAt r.subscriptions x.node x.generated := by
  unfold visits
  split
  · next none =>
      rw [List.isEmpty_iff] at none
      simp [visitsAt, none, Subscriptions.subscribers]
  · rw [SyntaxTree.flaggedNodes_eq_places, List.flatMap_map]

theorem detector_of_visit {r : Runner σ} {t : SyntaxTree} {v : Visit σ}
    (h : v ∈ r.visits r.subscriptions t) : r.detectors[v.index]? = some v.detector := by
  rw [visits_subscriptions, List.mem_flatMap] at h
  obtain ⟨x, -, hv⟩ := h
  rw [visitsAt_subscriptions, List.mem_map] at hv
  obtain ⟨d, hd, rfl⟩ := hv
  exact List.mem_zipIdx_iff_getElem?.mp (List.mem_filter.mp hd).1

end Runner

/-- A call that may be made in a tree: a node with its position, and a detector's position. -/
structure Site where
  path : List Nat
  node : SyntaxNode
  index : Nat

namespace Site

variable {σ : Type}

/-- Document order, and registration order at one node. -/
def Before (x y : Site) : Prop :=
  List.Lex (· < ·) x.path y.path ∨ x.path = y.path ∧ x.index < y.index

/-- The call is to be made: the detector asked for the kind, and the node is not generated code
that is kept from it. -/
def Due (r : Runner σ) (t : SyntaxTree) (x : Site) : Prop :=
  t.root.descend? x.path = some x.node ∧
  ∃ d, r.detectors[x.index]? = some d ∧ x.node.kind ∈ d.kinds ∧
    (¬ t.GeneratedAt x.path ∨ r.includeGenerated = true ∨ d.analyzesGenerated = true)

end Site

namespace Runner

variable {σ : Type}

/-- The calls that are due in a tree, in order. -/
def sites (r : Runner σ) (t : SyntaxTree) : List Site :=
  t.places.flatMap fun x =>
    (r.detectors.zipIdx.filter fun d => r.shows d.1 x.node.kind x.generated).map
      fun d => ⟨x.path, x.node, d.2⟩

theorem mem_sites_iff (r : Runner σ) (t : SyntaxTree) (x : Site) :
    x ∈ r.sites t ↔ x.Due r t := by
  have shown (d : Detector σ) (place : Place) (hp : place ∈ t.places) :
      r.shows d place.node.kind place.generated = true ↔ place.node.kind ∈ d.kinds ∧
        (¬ t.GeneratedAt place.path ∨ r.includeGenerated = true ∨ d.analyzesGenerated = true) := by
    rw [shows_iff, Decidable.imp_iff_not_or, SyntaxTree.places_generated_iff hp]
  simp only [sites, List.mem_flatMap, List.mem_map, List.mem_filter, Site.Due]
  constructor
  · rintro ⟨place, hp, d, ⟨hd, hs⟩, rfl⟩
    exact ⟨(SyntaxNode.mem_places_iff.mp hp).1, d.1, List.mem_zipIdx_iff_getElem?.mp hd,
      (shown d.1 place hp).mp hs⟩
  · rintro ⟨reached, d, hd, due⟩
    obtain ⟨mark, hp⟩ := SyntaxTree.exists_place reached
    exact ⟨_, hp, (d, x.index), ⟨List.mem_zipIdx_iff_getElem?.mpr hd, (shown d _ hp).mpr due⟩, rfl⟩

theorem zipIdx_ordered {α : Type} (xs : List α) (n : Nat) :
    (xs.zipIdx n).Pairwise fun a b => a.2 < b.2 := by
  have h := List.pairwise_lt_range' (s := n) (n := xs.length)
  rwa [← List.zipIdx_map_snd, List.pairwise_map] at h

theorem sites_ordered (r : Runner σ) (t : SyntaxTree) : (r.sites t).Pairwise Site.Before := by
  rw [sites, List.pairwise_flatMap]
  refine ⟨?_, ?_⟩
  · intro x hx
    rw [List.pairwise_map]
    apply ((zipIdx_ordered r.detectors 0).filter _).imp
    intro a b h
    exact .inr ⟨rfl, h⟩
  · apply (SyntaxNode.places_ordered _ t.root).imp
    intro x y h a ha b hb
    obtain ⟨_, -, rfl⟩ := List.mem_map.mp ha
    obtain ⟨_, -, rfl⟩ := List.mem_map.mp hb
    exact .inl h

/-- The walk visits the sites, one by one. -/
theorem visits_eq_sites (r : Runner σ) (t : SyntaxTree) :
    (r.visits r.subscriptions t).map (fun v => (v.index, v.node)) =
      (r.sites t).map fun x => (x.index, x.node) := by
  simp only [visits_subscriptions, sites, List.map_flatMap, visitsAt_subscriptions, List.map_map]
  rfl

end Runner
end Antipattern
