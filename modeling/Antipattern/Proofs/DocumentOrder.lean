import Antipattern.Analysis.Runner

/-!
The nodes of a tree by the child positions that lead to them. The stack walk lists every position
once, in the lexicographic order of positions, and its mark says whether the tree, the node or a
node above it is generated.
-/

namespace Antipattern

/-- A node with the child positions that lead to it, and its mark for generated code. -/
structure Place where
  path : List Nat
  node : SyntaxNode
  generated : Bool

def Place.under (i : Nat) (x : Place) : Place :=
  { x with path := i :: x.path }

/-- Document order. -/
def Place.Before (x y : Place) : Prop :=
  List.Lex (· < ·) x.path y.path

namespace SyntaxNode

mutual
/-- The places at and below a node in document order. -/
def places (generated : Bool) : SyntaxNode → List Place
  | n@⟨_, _, _, _, _, _, children⟩ => ⟨[], n, generated⟩ :: forestPlaces generated 0 children

def forestPlaces (generated : Bool) : Nat → List SyntaxNode → List Place
  | _, [] => []
  | i, c :: rest =>
      (c.places (generated || c.generated)).map (Place.under i) ++
        forestPlaces generated (i + 1) rest
end

theorem places_eq (generated : Bool) (n : SyntaxNode) :
    n.places generated = ⟨[], n, generated⟩ :: forestPlaces generated 0 n.children := by
  cases n
  rfl

theorem childInduction {motive : SyntaxNode → Prop}
    (step : ∀ n : SyntaxNode, (∀ c ∈ n.children, motive c) → motive n) (n : SyntaxNode) :
    motive n := by
  generalize hs : n.size = size
  induction size using Nat.strongRecOn generalizing n with
  | ind size ih =>
      apply step
      intro c hc
      obtain ⟨before, after, split⟩ := List.append_of_mem hc
      have smaller : c.size < size := by
        rw [← hs, size_eq n, split, forestSize_append]
        simp only [forestSize]
        omega
      exact ih c.size smaller c rfl

theorem forestPreorder_eq (ns : List SyntaxNode) : forestPreorder ns = ns.flatMap preorder := by
  induction ns with
  | nil => rfl
  | cons n rest ih => rw [forestPreorder, ih, List.flatMap_cons]

theorem preorder_eq (n : SyntaxNode) : n.preorder = n :: n.children.flatMap preorder := by
  rw [← forestPreorder_eq]
  cases n
  rfl

theorem mem_preorder_self (n : SyntaxNode) : n ∈ n.preorder := by
  rw [preorder_eq]
  exact List.mem_cons_self

theorem mem_preorder_of_child {n c m : SyntaxNode} (hc : c ∈ n.children) (hm : m ∈ c.preorder) :
    m ∈ n.preorder := by
  rw [preorder_eq]
  exact List.mem_cons_of_mem _ (List.mem_flatMap.mpr ⟨c, hc, hm⟩)

theorem visitStack_eq (stack : List SyntaxNode) : visitStack stack = stack.flatMap preorder := by
  fun_induction visitStack stack with
  | case1 => rfl
  | case2 n rest ih => rw [ih, List.flatMap_append, List.flatMap_cons, preorder_eq, List.cons_append]

theorem descendants_eq (n : SyntaxNode) : n.descendants = n.preorder := by
  rw [descendants, visitStack_eq, List.flatMap_singleton]

private theorem forestPlaces_listing (generated : Bool) (i : Nat) (children : List SyntaxNode) :
    (forestPlaces generated i children).map (fun x => (x.node, x.generated)) =
      (flagged generated children).flatMap fun x =>
        (x.1.places x.2).map fun y => (y.node, y.generated) := by
  induction children generalizing i with
  | nil => rfl
  | cons c rest ih =>
      simp only [forestPlaces, List.map_append, List.map_map, ih (i + 1), flagged, List.map_cons,
        List.flatMap_cons]
      rfl

theorem visitFlagged_eq_places (stack : List (SyntaxNode × Bool)) :
    visitFlagged stack =
      stack.flatMap fun x => (x.1.places x.2).map fun y => (y.node, y.generated) := by
  fun_induction visitFlagged stack with
  | case1 => rfl
  | case2 n generated rest ih =>
      rw [ih, List.flatMap_append, List.flatMap_cons, ← forestPlaces_listing generated 0, places_eq]
      rfl

theorem mem_forestPlaces {generated : Bool} {i : Nat} {children : List SyntaxNode} {x : Place} :
    x ∈ forestPlaces generated i children ↔
      ∃ (k : Nat) (c : SyntaxNode), children[k]? = some c ∧
        ∃ y ∈ c.places (generated || c.generated), y.under (i + k) = x := by
  induction children generalizing i with
  | nil => simp [forestPlaces]
  | cons c rest ih =>
      simp only [forestPlaces, List.mem_append, List.mem_map, ih]
      constructor
      · rintro (⟨y, hy, rfl⟩ | ⟨k, d, hd, y, hy, rfl⟩)
        · exact ⟨0, c, rfl, y, hy, rfl⟩
        · exact ⟨k + 1, d, hd, y, hy, by rw [Nat.add_right_comm, Nat.add_assoc]⟩
      · rintro ⟨k, d, hd, y, hy, rfl⟩
        cases k with
        | zero =>
            cases hd
            exact .inl ⟨y, hy, rfl⟩
        | succ k =>
            exact .inr ⟨k, d, hd, y, hy, by rw [Nat.add_right_comm, Nat.add_assoc]⟩

/-- The mark that a walk carries to the end of a path. -/
def markAt (generated : Bool) (n : SyntaxNode) : List Nat → Bool
  | [] => generated
  | i :: path =>
      match n.children[i]? with
      | none => generated
      | some c => c.markAt (generated || c.generated) path

private theorem mem_places_step {generated : Bool} {n : SyntaxNode} {x : Place} :
    x ∈ n.places generated ↔
      x = ⟨[], n, generated⟩ ∨ ∃ (k : Nat) (c : SyntaxNode), n.children[k]? = some c ∧
        ∃ y ∈ c.places (generated || c.generated), y.under k = x := by
  rw [places_eq, List.mem_cons, mem_forestPlaces]
  simp only [Nat.zero_add]

/-- Every position holds exactly one place: its node, with the mark of the way to it. -/
theorem mem_places_iff {generated : Bool} {n : SyntaxNode} {x : Place} :
    x ∈ n.places generated ↔
      n.descend? x.path = some x.node ∧ x.generated = n.markAt generated x.path := by
  obtain ⟨path, node, mark⟩ := x
  induction path generalizing n generated with
  | nil =>
      rw [mem_places_step]
      simp only [Place.mk.injEq, descend?, markAt]
      constructor
      · rintro (⟨-, rfl, rfl⟩ | ⟨k, c, -, y, -, h⟩)
        · exact ⟨rfl, rfl⟩
        · cases h
      · rintro ⟨h, rfl⟩
        cases h
        exact .inl ⟨trivial, rfl, rfl⟩
  | cons i path ih =>
      rw [mem_places_step]
      simp only [Place.under, Place.mk.injEq, List.cons.injEq, descend?, markAt]
      cases hc : n.children[i]? with
      | none =>
          constructor
          · rintro (⟨h, -⟩ | ⟨k, c, hk, y, -, ⟨rfl, -⟩, -⟩)
            · cases h
            · rw [hc] at hk
              cases hk
          · rintro ⟨h, -⟩
            cases h
      | some c =>
          simp only [Option.bind_some, ← ih]
          constructor
          · rintro (⟨h, -⟩ | ⟨k, d, hk, y, hy, ⟨rfl, rfl⟩, rfl, rfl⟩)
            · cases h
            · rw [hc] at hk
              cases hk
              exact hy
          · intro hy
            exact .inr ⟨i, c, hc, _, hy, ⟨rfl, rfl⟩, rfl, rfl⟩

private theorem forestPlaces_ordered (generated : Bool) (i : Nat) (children : List SyntaxNode)
    (ordered : ∀ c ∈ children, ∀ g, (c.places g).Pairwise Place.Before) :
    (forestPlaces generated i children).Pairwise Place.Before := by
  induction children generalizing i with
  | nil => exact .nil
  | cons c rest ih =>
      simp only [forestPlaces, List.pairwise_append, List.pairwise_map]
      refine ⟨?_, ih (i + 1) fun d hd => ordered d (List.mem_cons_of_mem c hd), ?_⟩
      · apply (ordered c List.mem_cons_self _).imp
        intro x y h
        exact List.Lex.cons h
      · intro x hx y hy
        obtain ⟨x, -, rfl⟩ := List.mem_map.mp hx
        obtain ⟨k, d, -, y, -, rfl⟩ := mem_forestPlaces.mp hy
        exact List.Lex.rel (by omega)

theorem places_ordered (generated : Bool) (n : SyntaxNode) :
    (n.places generated).Pairwise Place.Before := by
  induction n using childInduction generalizing generated with
  | step n ih =>
      rw [places_eq, List.pairwise_cons]
      refine ⟨?_, forestPlaces_ordered generated 0 n.children fun c hc g => ih c hc g⟩
      intro x hx
      obtain ⟨k, c, -, y, -, rfl⟩ := mem_forestPlaces.mp hx
      exact List.Lex.nil

/-- Below a node, the mark is set by the way's start or by a node strictly below the start. -/
theorem markAt_iff {generated : Bool} {n m : SyntaxNode} {path : List Nat}
    (h : n.descend? path = some m) :
    n.markAt generated path = true ↔
      generated = true ∨ ∃ i above, i :: above <+: path ∧
        ∃ a, n.descend? (i :: above) = some a ∧ a.generated = true := by
  induction path generalizing n generated with
  | nil => simp [markAt]
  | cons k path ih =>
      simp only [descend?, Option.bind_eq_some_iff] at h
      obtain ⟨c, hc, h⟩ := h
      simp only [markAt, hc, ih h, Bool.or_eq_true]
      constructor
      · rintro ((hg | hg) | ⟨i, above, hp, a, ha, hg⟩)
        · exact .inl hg
        · exact .inr ⟨k, [], by simp, c, by simp [descend?, hc], hg⟩
        · refine .inr ⟨k, i :: above, List.cons_prefix_cons.mpr ⟨rfl, hp⟩, a, ?_, hg⟩
          simpa [descend?, hc] using ha
      · rintro (hg | ⟨i, above, hp, a, ha, hg⟩)
        · exact .inl (.inl hg)
        · obtain ⟨rfl, below⟩ := List.cons_prefix_cons.mp hp
          simp only [descend?, hc, Option.bind_some] at ha
          cases above with
          | nil =>
              cases ha
              exact .inl (.inr hg)
          | cons j above => exact .inr ⟨j, above, below, a, ha, hg⟩

end SyntaxNode

namespace SyntaxTree

def places (t : SyntaxTree) : List Place :=
  t.root.places (t.generated || t.root.generated)

theorem flaggedNodes_eq_places (t : SyntaxTree) :
    t.flaggedNodes = t.places.map fun x => (x.node, x.generated) := by
  simp [flaggedNodes, places, SyntaxNode.visitFlagged_eq_places]

/-- The tree, the node at the path or a node above it is marked as generated. -/
def GeneratedAt (t : SyntaxTree) (path : List Nat) : Prop :=
  t.generated = true ∨ ∃ above, above <+: path ∧
    ∃ a, t.root.descend? above = some a ∧ a.generated = true

theorem places_generated_iff {t : SyntaxTree} {x : Place} (h : x ∈ t.places) :
    x.generated = true ↔ t.GeneratedAt x.path := by
  obtain ⟨reached, mark⟩ := SyntaxNode.mem_places_iff.mp h
  rw [mark, SyntaxNode.markAt_iff reached, GeneratedAt, Bool.or_eq_true, or_assoc]
  refine or_congr_right ⟨?_, ?_⟩
  · rintro (hg | ⟨i, above, hp, hg⟩)
    · exact ⟨[], List.nil_prefix, t.root, rfl, hg⟩
    · exact ⟨i :: above, hp, hg⟩
  · rintro ⟨above, hp, a, ha, hg⟩
    cases above with
    | nil =>
        cases ha
        exact .inl hg
    | cons i above => exact .inr ⟨i, above, hp, a, ha, hg⟩

theorem exists_place {t : SyntaxTree} {path : List Nat} {n : SyntaxNode}
    (h : t.root.descend? path = some n) : ∃ mark, (⟨path, n, mark⟩ : Place) ∈ t.places :=
  ⟨t.root.markAt (t.generated || t.root.generated) path,
    SyntaxNode.mem_places_iff.mpr ⟨h, rfl⟩⟩

end SyntaxTree
end Antipattern
