import Antipattern.Proofs.EndpointVerdict

/-!
Walks with a stack. Each call takes the node on top of the stack and puts its children in its place;
so the calls return the nodes of the recursive listing one after another, every position of the tree
once, and then nothing. The walk that also carries marks down visits the same nodes.
-/

namespace Antipattern

namespace SyntaxNode

/-- The stack after `k` calls. On an empty stack a call returns nothing and leaves it empty. -/
def stackAfter : Nat → List SyntaxNode → List SyntaxNode
  | 0, stack => stack
  | _ + 1, [] => []
  | k + 1, n :: rest => stackAfter k (n.children ++ rest)

/-- Call `k` returns the node at position `k` of the listing. -/
theorem head?_stackAfter (k : Nat) (stack : List SyntaxNode) :
    (stackAfter k stack).head? = (visitStack stack)[k]? := by
  induction k generalizing stack with
  | zero =>
      cases stack with
      | nil => simp [stackAfter, visitStack]
      | cons n rest => simp [stackAfter, visitStack]
  | succ k ih =>
      cases stack with
      | nil => simp [stackAfter, visitStack]
      | cons n rest => rw [stackAfter, ih, visitStack, List.getElem?_cons_succ]

theorem length_visitStack (stack : List SyntaxNode) :
    (visitStack stack).length = forestSize stack := by
  fun_induction visitStack stack with
  | case1 => rfl
  | case2 n rest ih =>
      rw [List.length_cons, ih, forestSize_append, forestSize, size_eq]
      omega

/-- The measure of the walk: it is over after as many calls as there are nodes, and not before. -/
theorem stackAfter_eq_nil_iff (k : Nat) (stack : List SyntaxNode) :
    stackAfter k stack = [] ↔ forestSize stack ≤ k := by
  rw [← List.head?_eq_none_iff, head?_stackAfter, List.getElem?_eq_none_iff, length_visitStack]

/-- The line count of a node from its own trivia and the counts of its children. -/
theorem endOfLineCount_children (n : SyntaxNode) :
    n.endOfLineCount =
      n.ownTrivia.countP Trivia.isEndOfLine + totalOf endOfLineCount n.children := by
  have below (ns : List SyntaxNode) :
      ((ns.flatMap preorder).flatMap ownTrivia).countP Trivia.isEndOfLine =
        totalOf endOfLineCount ns := by
    induction ns with
    | nil => rfl
    | cons c ns ih =>
        rw [List.flatMap_cons, List.flatMap_append, List.countP_append, ih, totalOf, endOfLineCount,
          descendantTrivia, descendants_eq]
  rw [endOfLineCount, descendantTrivia, descendants_eq, preorder_eq, List.flatMap_cons,
    List.countP_append, below]

/-- Marks do not bear on which nodes are visited. -/
theorem map_fst_visitFlagged (stack : List (SyntaxNode × Bool)) :
    (visitFlagged stack).map (·.1) = visitStack (stack.map (·.1)) := by
  fun_induction visitFlagged stack with
  | case1 => rw [List.map_nil, visitStack]
  | case2 n generated rest ih =>
      rw [List.map_cons, ih, List.map_append, map_fst_flagged, List.map_cons, visitStack]

end SyntaxNode

namespace SyntaxTree

variable (t : SyntaxTree)

theorem map_fst_flaggedNodes : t.flaggedNodes.map (·.1) = t.root.descendants := by
  rw [flaggedNodes, SyntaxNode.map_fst_visitFlagged]
  rfl

/-- The child positions that lead to the nodes, in document order. -/
def paths : List (List Nat) :=
  t.places.map (·.path)

theorem nodup_paths : t.paths.Nodup := by
  rw [paths, List.nodup_iff_pairwise_ne, List.pairwise_map]
  apply (SyntaxNode.places_ordered _ t.root).imp
  intro x y before same
  rw [Place.Before, same] at before
  exact List.lex_irrefl Nat.lt_irrefl y.path before

theorem mem_paths_iff (path : List Nat) :
    path ∈ t.paths ↔ (t.root.descend? path).isSome = true := by
  rw [paths, List.mem_map, Option.isSome_iff_exists]
  constructor
  · intro found
    obtain ⟨x, listed, rfl⟩ := found
    exact ⟨x.node, (SyntaxNode.mem_places_iff.mp listed).1⟩
  · intro found
    obtain ⟨n, reached⟩ := found
    obtain ⟨mark, listed⟩ := exists_place reached
    exact ⟨_, listed, rfl⟩

theorem map_node_places : t.places.map (·.node) = t.root.descendants := by
  have nodes : t.flaggedNodes.map (·.1) = t.places.map (·.node) := by
    rw [flaggedNodes_eq_places, List.map_map]
    rfl
  rw [← nodes, map_fst_flaggedNodes]

/-- The node at each position, in the order of the listing. -/
theorem map_descend?_paths : t.paths.map t.root.descend? = t.root.descendants.map some := by
  rw [← map_node_places, paths, List.map_map, List.map_map]
  apply List.map_congr_left
  intro x listed
  exact (SyntaxNode.mem_places_iff.mp listed).1

/-- A mark stands where the tree, the node or a node above it is generated. -/
theorem mark_iff_generatedAt {i : Nat} {path : List Nat} {x : SyntaxNode × Bool}
    (position : t.paths[i]? = some path) (visited : t.flaggedNodes[i]? = some x) :
    x.2 = true ↔ t.GeneratedAt path := by
  rw [paths, List.getElem?_map, Option.map_eq_some_iff] at position
  obtain ⟨place, listed, rfl⟩ := position
  rw [flaggedNodes_eq_places, List.getElem?_map, listed] at visited
  obtain rfl := Option.some.inj visited
  exact places_generated_iff (List.mem_of_getElem? listed)

/-- The stack iterator over a tree, its line count and the runner's walk, all by the recursive
listing of the tree. -/
theorem walks_of_listing :
    (t.root.preorder = t.root :: t.root.children.flatMap SyntaxNode.preorder ∧
      t.root.descendants = t.root.preorder) ∧
    (∀ k, (SyntaxNode.stackAfter k [t.root]).head? = t.root.preorder[k]?) ∧
    (∀ k, SyntaxNode.stackAfter k [t.root] = [] ↔ t.root.size ≤ k) ∧
    t.root.endOfLineCount = t.root.ownTrivia.countP Trivia.isEndOfLine +
      totalOf SyntaxNode.endOfLineCount t.root.children ∧
    t.flaggedNodes.map (·.1) = t.root.preorder ∧
    ∃ paths : List (List Nat), paths.Nodup ∧
      (∀ path, path ∈ paths ↔ (t.root.descend? path).isSome = true) ∧
      paths.map t.root.descend? = t.root.preorder.map some ∧
      ∀ (i : Nat) path x, paths[i]? = some path → t.flaggedNodes[i]? = some x →
        (x.2 = true ↔ t.GeneratedAt path) := by
  have listed : t.root.descendants = t.root.preorder := t.root.descendants_eq
  refine ⟨⟨t.root.preorder_eq, listed⟩, ?_, ?_, t.root.endOfLineCount_children, ?_, t.paths,
    t.nodup_paths, t.mem_paths_iff, ?_, fun i path x => t.mark_iff_generatedAt⟩
  · intro k
    rw [← listed]
    exact SyntaxNode.head?_stackAfter k [t.root]
  · intro k
    exact SyntaxNode.stackAfter_eq_nil_iff k [t.root]
  · rw [← listed]
    exact t.map_fst_flaggedNodes
  · rw [← listed]
    exact t.map_descend?_paths

end SyntaxTree
end Antipattern
