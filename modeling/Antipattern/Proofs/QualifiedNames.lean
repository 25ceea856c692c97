import Mathlib.Data.List.Nodup
import Antipattern.Proofs.Declarations
import Antipattern.Proofs.DocumentOrder
import Antipattern.Proofs.Visits

/-!
Qualified names of type declarations, read off the way from the root to them: the types and
namespaces around, and the namespaces without a body that come before. The root stands for the
whole file, so what is declared lies below it. The scope that the first pass carries along gives
the same names.
-/

namespace Antipattern

/-- A step of the way to a node: the node reached, and the siblings in front of it. -/
structure Crumb where
  preceding : List SyntaxNode
  node : SyntaxNode

namespace SyntaxNode

/-- The way along child positions, the last step first. -/
def trail? (outer : List Crumb) (n : SyntaxNode) : List Nat → Option (List Crumb)
  | [] => some outer
  | i :: path => (n.children[i]?).bind fun c => c.trail? (⟨n.children.take i, c⟩ :: outer) path

/-- The name of a namespace. -/
def namespaceName? (n : SyntaxNode) : Option String :=
  if n.kind = .namespaceDeclaration then n.identifier? else none

/-- The names of the namespaces without a body. -/
def fileScopedNames (ns : List SyntaxNode) : List String :=
  (ns.filter isFileScoped).filterMap namespaceName?

/-- Whether the node is a namespace or a type. -/
def isContainer (n : SyntaxNode) : Bool :=
  n.kind == .namespaceDeclaration || n.kind.isTypeDeclaration

end SyntaxNode

namespace Crumb

/-- The namespaces that hold behind some siblings, the outermost first: those around, and at each
level those without a body in front. -/
def namespaces (preceding : List SyntaxNode) : List Crumb → List String
  | [] => SyntaxNode.fileScopedNames preceding
  | c :: outer =>
      namespaces c.preceding outer ++ c.node.namespaceName?.toList ++
        SyntaxNode.fileScopedNames preceding

def namespacePath (preceding : List SyntaxNode) (outer : List Crumb) : String :=
  (namespaces preceding outer).foldl qualify ""

/-- The name of a type declaration: the type around up to its type parameters, or else the
namespaces; then the identifier; then the type parameters. -/
def nameIn (around : Option String) (c : Crumb) (outer : List Crumb) : String :=
  let container := (around.map withoutTypeArgs).getD (namespacePath c.preceding outer)
  qualify container (c.node.identifier?.getD "") ++ c.node.typeParameters

/-- The name of the innermost type around. -/
def typeAround? : List Crumb → Option String
  | [] => none
  | c :: outer =>
      if c.node.kind.isTypeDeclaration then some (nameIn (typeAround? outer) c outer)
      else typeAround? outer

def qualifiedName (c : Crumb) (outer : List Crumb) : String :=
  nameIn (typeAround? outer) c outer

/-- A type declaration with an identifier, in namespaces and types with identifiers. -/
def DeclaresType (c : Crumb) (outer : List Crumb) : Prop :=
  c.node.kind.isTypeDeclaration ∧ c.node.identifier?.isSome ∧
    ∀ e ∈ outer, e.node.isContainer → e.node.identifier?.isSome

end Crumb

namespace Scope

open Crumb

/-- A scope that the way to its nodes accounts for. Inside of types the namespace does not matter. -/
structure Fits (scope : Scope) (preceding : List SyntaxNode) (outer : List Crumb) : Prop where
  around : scope.enclosing.getLast? = typeAround? outer
  path : typeAround? outer = none → scope.namespaceName = namespacePath preceding outer

variable {scope : Scope} {preceding : List SyntaxNode} {outer : List Crumb}

theorem fits_start (usings : List String) : Fits { usings } [] [] :=
  ⟨rfl, fun _ => rfl⟩

theorem namespaces_snoc (preceding : List SyntaxNode) (n : SyntaxNode) (outer : List Crumb) :
    namespaces (preceding ++ [n]) outer =
      namespaces preceding outer ++ SyntaxNode.fileScopedNames [n] := by
  cases outer <;> simp [namespaces, SyntaxNode.fileScopedNames]

theorem behind_eq (scope : Scope) (n : SyntaxNode) :
    scope.behind n = { scope with
      namespaceName := (SyntaxNode.fileScopedNames [n]).foldl qualify scope.namespaceName } := by
  rw [Scope.behind, SyntaxNode.fileScopedNames]
  cases isFileScoped : n.isFileScoped with
  | false => simp [isFileScoped]
  | true =>
      by_cases isNamespace : n.kind = .namespaceDeclaration
      · cases name : n.identifier? <;>
          simp [isFileScoped, SyntaxNode.namespaceName?, isNamespace, name]
      · simp [isFileScoped, SyntaxNode.namespaceName?, isNamespace]

theorem Fits.behind (h : Fits scope preceding outer) (n : SyntaxNode) :
    Fits (scope.behind n) (preceding ++ [n]) outer := by
  rw [behind_eq]
  refine ⟨h.around, fun outside => ?_⟩
  rw [namespacePath, namespaces_snoc, List.foldl_append, ← namespacePath, ← h.path outside]

theorem Fits.behindAll (h : Fits scope preceding outer) (ns : List SyntaxNode) :
    Fits (ns.foldl Scope.behind scope) (preceding ++ ns) outer := by
  induction ns generalizing scope preceding with
  | nil => simpa using h
  | cons n ns ih => simpa using ih (h.behind n)

theorem Fits.displayNameIn (h : Fits scope preceding outer) {n : SyntaxNode} {name : String}
    (named : n.identifier? = some name) :
    Binder.displayNameIn scope name n = qualifiedName ⟨preceding, n⟩ outer := by
  rw [Binder.displayNameIn, qualifiedName, nameIn, h.around, named]
  cases around : typeAround? outer with
  | none => simp [h.path around]
  | some e => rfl

theorem Fits.inside (h : Fits scope preceding outer) {n : SyntaxNode} {inner : Scope}
    (entered : scope.inside? n = some inner)
    (outside : n.kind = .namespaceDeclaration → typeAround? outer = none) :
    Fits inner [] (⟨preceding, n⟩ :: outer) := by
  have path : namespacePath [] (⟨preceding, n⟩ :: outer) =
      n.namespaceName?.toList.foldl qualify (namespacePath preceding outer) := by
    simp [namespacePath, namespaces, SyntaxNode.fileScopedNames]
  rw [inside?] at entered
  split at entered
  · next isNamespace =>
      obtain ⟨name, identifier, rfl⟩ := Option.map_eq_some_iff.mp entered
      have outside := outside isNamespace
      have noType : n.kind.isTypeDeclaration = false := by rw [isNamespace]; rfl
      have around : typeAround? (⟨preceding, n⟩ :: outer) = none := by
        simp [typeAround?, noType, outside]
      have name : n.namespaceName? = some name := (if_pos isNamespace).trans identifier
      rw [name, ← h.path outside] at path
      dsimp only
      split
      · exact ⟨(h.around.trans outside).trans around.symm, fun _ => path.symm⟩
      · exact ⟨around.symm, fun _ => path.symm⟩
  · next noNamespace =>
      have name : n.namespaceName? = none := if_neg noNamespace
      rw [name] at path
      split at entered
      · next isType =>
          obtain ⟨name, identifier, rfl⟩ := Option.map_eq_some_iff.mp entered
          have around : typeAround? (⟨preceding, n⟩ :: outer) =
              some (qualifiedName ⟨preceding, n⟩ outer) := if_pos isType
          refine ⟨?_, fun none => ?_⟩
          · simp [around, h.displayNameIn identifier]
          · simp [around] at none
      · next noType =>
          have around : typeAround? (⟨preceding, n⟩ :: outer) = typeAround? outer := if_neg noType
          split at entered
          · simp at entered
          · obtain rfl := Option.some.inj entered
            exact ⟨h.around.trans around.symm,
              fun none => (h.path (around ▸ none)).trans path.symm⟩

/-- A node is entered unless it is a token or a container without a name. -/
theorem inside?_isSome_iff {n : SyntaxNode} :
    (scope.inside? n).isSome ↔ n.kind ≠ .token ∧ (n.isContainer → n.identifier?.isSome) := by
  rw [inside?, SyntaxNode.isContainer]
  by_cases isNamespace : n.kind = .namespaceDeclaration
  · simp [isNamespace]
  · by_cases isType : n.kind.isTypeDeclaration
    · have : n.kind ≠ .token := by
        rintro eq
        simp [eq, NodeKind.isTypeDeclaration] at isType
      simp [isNamespace, isType, this]
    · by_cases isToken : n.kind = .token
      · simp [isToken, NodeKind.isTypeDeclaration]
      · simp [isNamespace, isType, isToken]

end Scope

namespace SyntaxNode

/-- No namespace is nested in a type. -/
def Flat (n : SyntaxNode) : Prop :=
  ∀ m ∈ n.preorder, m.kind.isTypeDeclaration → ∀ c ∈ m.children, ∀ x ∈ c.preorder,
    x.kind ≠ .namespaceDeclaration

instance (n : SyntaxNode) : Decidable n.Flat :=
  inferInstanceAs (Decidable (∀ m ∈ n.preorder, m.kind.isTypeDeclaration → ∀ c ∈ m.children,
    ∀ x ∈ c.preorder, x.kind ≠ .namespaceDeclaration))

/-- Tokens are leaves, and no namespace is nested in a type. -/
structure Regular (n : SyntaxNode) : Prop where
  leaves : ∀ m ∈ n.preorder, m.kind = .token → m.children = []
  flat : n.Flat

theorem Regular.child {n c : SyntaxNode} (h : n.Regular) (hc : c ∈ n.children) : c.Regular where
  leaves m hm := h.leaves m (mem_preorder_of_child hc hm)
  flat m hm := h.flat m (mem_preorder_of_child hc hm)

/-- No two type declarations of the subtree take up the same bytes. -/
def SpansApart (n : SyntaxNode) : Prop :=
  ((n.preorder.filter (·.kind.isTypeDeclaration)).map
    fun m => (m.span.startByte, m.span.endByte)).Nodup

instance (n : SyntaxNode) : Decidable n.SpansApart :=
  inferInstanceAs (Decidable (List.Nodup _))

mutual
theorem map_node_places (generated : Bool) : (n : SyntaxNode) →
    (n.places generated).map (·.node) = n.preorder
  | ⟨_, _, _, _, _, _, children⟩ =>
      congrArg _ (map_node_forestPlaces generated 0 children)

theorem map_node_forestPlaces (generated : Bool) (i : Nat) : (ns : List SyntaxNode) →
    (forestPlaces generated i ns).map (·.node) = forestPreorder ns
  | [] => rfl
  | n :: rest => by
      rw [forestPlaces, forestPreorder, List.map_append, List.map_map,
        map_node_forestPlaces generated (i + 1) rest, ← map_node_places (generated || n.generated) n]
      rfl
end

theorem SpansApart.path_eq {n m m' : SyntaxNode} (h : n.SpansApart) {path path' : List Nat}
    (hm : n.descend? path = some m) (hm' : n.descend? path' = some m')
    (isType : m.kind.isTypeDeclaration) (isType' : m'.kind.isTypeDeclaration)
    (start : m.span.startByte = m'.span.startByte) (stop : m.span.endByte = m'.span.endByte) :
    path = path' := by
  rw [SpansApart, ← map_node_places false n, List.filter_map, List.map_map] at h
  have place {path : List Nat} {m : SyntaxNode} (hm : n.descend? path = some m)
      (isType : m.kind.isTypeDeclaration) :
      ⟨path, m, n.markAt false path⟩ ∈
        (n.places false).filter ((fun m => m.kind.isTypeDeclaration) ∘ fun x => x.node) :=
    List.mem_filter.mpr ⟨mem_places_iff.mpr ⟨hm, rfl⟩, isType⟩
  have same := List.inj_on_of_nodup_map h (place hm isType) (place hm' isType')
    (Prod.ext start stop)
  exact congrArg Place.path same

end SyntaxNode

namespace Declaration

open Crumb

/-- What is declared at a path below a node whose inside is the scope. -/
def site? (tree : Nat) (scope : Scope) (n : SyntaxNode) : List Nat → Option Declaration
  | [] => none
  | i :: path =>
      (n.children[i]?).bind fun c =>
        let here := (n.children.take i).foldl Scope.behind scope
        match path with
        | [] => at? tree here c
        | _ :: _ => (here.inside? c).bind fun inner => site? tree inner c path

theorem site?_cons {tree : Nat} {scope : Scope} {n c : SyntaxNode} {i : Nat}
    (hc : n.children[i]? = some c) (path : List Nat) :
    site? tree scope n (i :: path) =
      let here := (n.children.take i).foldl Scope.behind scope
      if path = [] then at? tree here c
      else (here.inside? c).bind fun inner => site? tree inner c path := by
  cases path <;> simp [site?, hc]

theorem below_eq (tree : Nat) (n : SyntaxNode) (scope : Scope) :
    below tree n scope = among tree n.children scope := by
  cases n
  rfl

/-- Of the places under a child, the child itself has the empty path and no other has. -/
theorem child_listing {tree : Nat} {parent n : SyntaxNode} {scope : Scope} {i : Nat}
    (child : parent.children[i]? = some n) (generated : Bool)
    (listed : ∀ inner, below tree n inner =
      (SyntaxNode.forestPlaces generated 0 n.children).filterMap fun x =>
        site? tree inner n x.path) :
    (n.places generated).filterMap (fun x => site? tree scope parent (i :: x.path)) =
      (at? tree ((parent.children.take i).foldl Scope.behind scope) n).toList ++
        (((parent.children.take i).foldl Scope.behind scope).inside? n).elim [] (below tree n) := by
  have inside : ∀ x ∈ SyntaxNode.forestPlaces generated 0 n.children,
      site? tree scope parent (i :: x.path) =
        (((parent.children.take i).foldl Scope.behind scope).inside? n).bind fun inner =>
          site? tree inner n x.path := by
    intro x hx
    obtain ⟨k, c, -, y, -, rfl⟩ := SyntaxNode.mem_forestPlaces.mp hx
    simp [site?_cons child, Place.under]
  have own : site? tree scope parent [i] =
      at? tree ((parent.children.take i).foldl Scope.behind scope) n := by
    simp [site?_cons child]
  rw [SyntaxNode.places_eq, List.filterMap_cons, List.filterMap_congr inside, own]
  cases ((parent.children.take i).foldl Scope.behind scope).inside? n with
  | none => cases at? tree _ n <;> simp
  | some inner => cases at? tree _ n <;> simp [listed inner]

theorem among_listing {tree : Nat} {parent : SyntaxNode} {scope : Scope} (generated : Bool)
    (ns : List SyntaxNode)
    (listed : ∀ n ∈ ns, ∀ g inner, below tree n inner =
      (SyntaxNode.forestPlaces g 0 n.children).filterMap fun x => site? tree inner n x.path)
    (preceding : List SyntaxNode) (split : parent.children = preceding ++ ns) :
    among tree ns (preceding.foldl Scope.behind scope) =
      (SyntaxNode.forestPlaces generated preceding.length ns).filterMap fun x =>
        site? tree scope parent x.path := by
  induction ns generalizing preceding with
  | nil => rfl
  | cons n rest ih =>
      have child : parent.children[preceding.length]? = some n := by simp [split]
      have taken : parent.children.take preceding.length = preceding := by simp [split]
      have here : (n.places (generated || n.generated)).filterMap (fun x =>
          site? tree scope parent (preceding.length :: x.path)) = _ :=
        child_listing child _ (listed n List.mem_cons_self _)
      have behind := ih (fun m hm => listed m (List.mem_cons_of_mem _ hm)) (preceding ++ [n])
        (by simp [split])
      rw [List.foldl_append, List.length_append] at behind
      rw [taken] at here
      rw [among, SyntaxNode.forestPlaces, List.filterMap_append, List.filterMap_map,
        ← List.append_assoc, ← here]
      exact congrArg _ behind

theorem below_listing (tree : Nat) (n : SyntaxNode) (generated : Bool) (scope : Scope) :
    below tree n scope =
      (SyntaxNode.forestPlaces generated 0 n.children).filterMap fun x =>
        site? tree scope n x.path := by
  induction n using SyntaxNode.childInduction generalizing generated scope with
  | step n ih =>
      rw [below_eq]
      exact among_listing generated n.children (fun c hc g inner => ih c hc g inner) [] rfl

section
variable {tree : Nat} {n c : SyntaxNode} {scope inner : Scope} {outer outer' : List Crumb}
  {path : List Nat} {i : Nat}

/-- The way down so far: the scope fits, and inside of types there are no namespaces below. -/
structure Descends (n : SyntaxNode) (scope : Scope) (outer : List Crumb) : Prop where
  regular : n.Regular
  fits : scope.Fits [] outer
  free : typeAround? outer ≠ none → ∀ c ∈ n.children, ∀ x ∈ c.preorder,
    x.kind ≠ .namespaceDeclaration

theorem Descends.here (h : Descends n scope outer) (i : Nat) :
    ((n.children.take i).foldl Scope.behind scope).Fits (n.children.take i) outer := by
  simpa using h.fits.behindAll (n.children.take i)

theorem Descends.child (h : Descends n scope outer) (hc : n.children[i]? = some c)
    (entered : ((n.children.take i).foldl Scope.behind scope).inside? c = some inner) :
    Descends c inner (⟨n.children.take i, c⟩ :: outer) := by
  have child := List.mem_of_getElem? hc
  refine ⟨h.regular.child child, (h.here i).inside entered fun isNamespace => ?_, ?_⟩
  · refine Decidable.byContradiction fun around => ?_
    exact h.free around c child c c.mem_preorder_self isNamespace
  · intro around d hd x hx
    by_cases isType : c.kind.isTypeDeclaration
    · exact h.regular.flat c (SyntaxNode.mem_preorder_of_child child c.mem_preorder_self) isType
        d hd x hx
    · have same : typeAround? (⟨n.children.take i, c⟩ :: outer) = typeAround? outer :=
        if_neg isType
      exact h.free (same ▸ around) c child x (SyntaxNode.mem_preorder_of_child hd hx)

theorem trail_of_site? (h : Descends n scope outer)
    (named : ∀ e ∈ outer, e.node.isContainer → e.node.identifier?.isSome) {d : Declaration}
    (found : site? tree scope n path = some d) :
    ∃ c outer', n.trail? outer path = some (c :: outer') ∧ DeclaresType c outer' ∧
      d.node = c.node ∧ d.tree = tree ∧ d.display = qualifiedName c outer' := by
  induction path generalizing n scope outer with
  | nil => simp [site?] at found
  | cons i path ih =>
      cases hc : n.children[i]? with
      | none => simp [site?, hc] at found
      | some c =>
          rw [site?_cons hc] at found
          split at found
          · next last =>
              obtain ⟨isType, name, identifier, rfl⟩ := at?_eq_some found
              refine ⟨⟨n.children.take i, c⟩, outer, by simp [last, SyntaxNode.trail?, hc],
                ⟨isType, by simp [identifier], named⟩, rfl, rfl, ?_⟩
              exact (h.here i).displayNameIn identifier
          · obtain ⟨inner, entered, found⟩ := Option.bind_eq_some_iff.mp found
            have allNamed : ∀ e ∈ ⟨n.children.take i, c⟩ :: outer, e.node.isContainer →
                e.node.identifier?.isSome := by
              rw [List.forall_mem_cons]
              exact ⟨(Scope.inside?_isSome_iff.mp (Option.isSome_of_eq_some entered)).2, named⟩
            obtain ⟨last, outer', trail, rest⟩ := ih (h.child hc entered) allNamed found
            exact ⟨last, outer', by simp [SyntaxNode.trail?, hc, trail], rest⟩

theorem suffix_of_trail? {trail : List Crumb} (h : n.trail? outer path = some trail) :
    outer <:+ trail := by
  induction path generalizing n outer with
  | nil => exact Option.some.inj h ▸ List.suffix_refl _
  | cons i path ih =>
      obtain ⟨c, hc, h⟩ := Option.bind_eq_some_iff.mp h
      exact (List.suffix_cons _ _).trans (ih h)

theorem suffix_of_trail?_cons {last : Crumb} (h : n.trail? outer path = some (last :: outer'))
    (nonempty : path ≠ []) : outer <:+ outer' := by
  cases path with
  | nil => exact absurd rfl nonempty
  | cons i path =>
      obtain ⟨c, hc, h⟩ := Option.bind_eq_some_iff.mp h
      rcases List.suffix_cons_iff.mp (suffix_of_trail? h) with eq | suffix
      · exact (List.cons.inj eq).2 ▸ List.suffix_refl _
      · exact (List.suffix_cons _ _).trans suffix

theorem site?_of_trail (tree : Nat) (h : Descends n scope outer) {last : Crumb}
    (trail : n.trail? outer path = some (last :: outer')) (nonempty : path ≠ [])
    (declares : DeclaresType last outer') :
    ∃ d, site? tree scope n path = some d ∧ d.node = last.node := by
  induction path generalizing n scope outer with
  | nil => exact absurd rfl nonempty
  | cons i path ih =>
      obtain ⟨c, hc, trail⟩ := Option.bind_eq_some_iff.mp trail
      rw [site?_cons hc]
      split
      · next empty =>
          rw [empty, SyntaxNode.trail?] at trail
          obtain ⟨rfl, rfl⟩ := List.cons.inj (Option.some.inj trail)
          obtain ⟨isType, named, -⟩ := declares
          obtain ⟨name, named⟩ := Option.isSome_iff_exists.mp named
          dsimp only at isType named
          simp [at?, isType, named]
      · next longer =>
          have passed := (suffix_of_trail?_cons trail longer).subset List.mem_cons_self
          have notToken : c.kind ≠ .token := by
            intro isToken
            have leaf := h.regular.leaves c (SyntaxNode.mem_preorder_of_child
              (List.mem_of_getElem? hc) c.mem_preorder_self) isToken
            cases path with
            | nil => exact longer rfl
            | cons j path => simp [SyntaxNode.trail?, leaf] at trail
          obtain ⟨inner, entered⟩ := Option.isSome_iff_exists.mp
            (Scope.inside?_isSome_iff.mpr ⟨notToken, declares.2.2 _ passed⟩)
          obtain ⟨d, found, node⟩ := ih (h.child hc entered) trail longer
          exact ⟨d, by simp [entered, found], node⟩

end

/-- What a file declares at a path. -/
def siteIn? (file : ParsedFile) (index : Nat) (path : List Nat) : Option Declaration :=
  site? index { usings := file.usings } file.tree.root path

/-- The declarations of all files with the paths that lead to them. -/
def located (files : List ParsedFile) : List (List Nat × Declaration) :=
  files.zipIdx.flatMap fun x =>
    x.1.tree.places.filterMap fun y => (siteIn? x.1 x.2 y.path).map (y.path, ·)

theorem map_located (files : List ParsedFile) : (located files).map (·.2) = ofFiles files := by
  rw [located, List.map_flatMap, ofFiles]
  congr 1
  funext x
  obtain ⟨file, index⟩ := x
  dsimp only
  rw [below_listing index file.tree.root (file.tree.generated || file.tree.root.generated),
    SyntaxTree.places, SyntaxNode.places_eq, List.filterMap_cons_none rfl, List.map_filterMap]
  simp [Function.comp_def, siteIn?]

theorem node_of_site? {tree : Nat} {scope : Scope} {n : SyntaxNode} {path : List Nat}
    {d : Declaration} (h : site? tree scope n path = some d) :
    d.tree = tree ∧ n.descend? path = some d.node ∧ d.node.kind.isTypeDeclaration := by
  induction path generalizing n scope with
  | nil => simp [site?] at h
  | cons i path ih =>
      cases hc : n.children[i]? with
      | none => simp [site?, hc] at h
      | some c =>
          rw [site?_cons hc] at h
          rw [SyntaxNode.descend?, hc, Option.bind_some]
          split at h
          · next last =>
              obtain ⟨isType, name, -, rfl⟩ := at?_eq_some h
              rw [last]
              exact ⟨rfl, rfl, isType⟩
          · obtain ⟨inner, -, h⟩ := Option.bind_eq_some_iff.mp h
            exact ih h

theorem mem_located_iff {files : List ParsedFile} {path : List Nat} {d : Declaration} :
    (path, d) ∈ located files ↔
      ∃ file, files[d.tree]? = some file ∧ siteIn? file d.tree path = some d := by
  simp only [located, List.mem_flatMap, List.mem_filterMap, Option.map_eq_some_iff, Prod.mk.injEq,
    Prod.exists, List.mem_zipIdx_iff_getElem?]
  constructor
  · rintro ⟨file, index, hfile, x, hx, d, found, rfl, rfl⟩
    obtain ⟨rfl, -⟩ := node_of_site? found
    exact ⟨file, hfile, found⟩
  · rintro ⟨file, hfile, found⟩
    obtain ⟨mark, hx⟩ := SyntaxTree.exists_place (node_of_site? found).2.1
    exact ⟨file, d.tree, hfile, _, hx, d, found, rfl, rfl⟩

/-- By file, and then in document order. -/
def LocatedBefore (x y : List Nat × Declaration) : Prop :=
  x.2.tree < y.2.tree ∨ x.2.tree = y.2.tree ∧ List.Lex (· < ·) x.1 y.1

theorem located_ordered (files : List ParsedFile) : (located files).Pairwise LocatedBefore := by
  have tree {file : ParsedFile} {index : Nat} {x : Place} {y : List Nat × Declaration}
      (h : (siteIn? file index x.path).map (x.path, ·) = some y) :
      y.2.tree = index ∧ y.1 = x.path := by
    obtain ⟨d, found, rfl⟩ := Option.map_eq_some_iff.mp h
    exact ⟨(node_of_site? found).1, rfl⟩
  rw [located, List.pairwise_flatMap]
  constructor
  · intro x _
    rw [List.pairwise_filterMap]
    apply (SyntaxNode.places_ordered _ x.1.tree.root).imp
    intro a b before y hy z hz
    obtain ⟨treeY, pathY⟩ := tree hy
    obtain ⟨treeZ, pathZ⟩ := tree hz
    refine .inr ⟨treeY.trans treeZ.symm, ?_⟩
    rw [pathY, pathZ]
    exact before
  · apply (Runner.zipIdx_ordered files 0).imp
    intro x x' lt y hy z hz
    obtain ⟨a, -, hy⟩ := List.mem_filterMap.mp hy
    obtain ⟨b, -, hz⟩ := List.mem_filterMap.mp hz
    refine .inl ?_
    rw [(tree hy).1, (tree hz).1]
    exact lt

end Declaration
end Antipattern
