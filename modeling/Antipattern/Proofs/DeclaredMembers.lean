import Mathlib.Data.List.Lex
import Antipattern.Proofs.OriginalDefinitions
import Antipattern.Proofs.PassEffects

/-!
The members of declared symbols: the methods and constructors that are reached from a declaration
through `other` nodes. The declaration is the innermost type around such a node, so no node is a
member of two declarations. A symbol lists the members of its declarations, one declaration after
the other; this is the order of the files and of the text unless one of them stands inside another.
-/

namespace Antipattern

namespace SyntaxNode

variable {n c m : SyntaxNode} {path above rest : List Nat}

/-- A method or constructor below a node, with nothing but `other` nodes on the way. -/
inductive Reaches : SyntaxNode → List Nat → SyntaxNode → Prop
  | child {n m : SyntaxNode} {i : Nat} (hm : n.children[i]? = some m)
      (isMember : m.kind.isMemberDeclaration) : Reaches n [i] m
  | through {n c m : SyntaxNode} {i : Nat} {path : List Nat} (hc : n.children[i]? = some c)
      (isOther : c.kind = .other) (below : Reaches c path m) : Reaches n (i :: path) m

theorem descend?_append (n : SyntaxNode) (path rest : List Nat) :
    n.descend? (path ++ rest) = (n.descend? path).bind fun m => m.descend? rest := by
  induction path generalizing n with
  | nil => rfl
  | cons i path ih => simp [descend?, Option.bind_assoc, ih]

theorem Reaches.descend? (h : n.Reaches path m) : n.descend? path = some m := by
  induction h with
  | child hm => simp [SyntaxNode.descend?, hm]
  | through hc _ _ ih => simp [SyntaxNode.descend?, hc, ih]

theorem Reaches.isMember (h : n.Reaches path m) : m.kind.isMemberDeclaration := by
  induction h with
  | child _ isMember => exact isMember
  | through _ _ _ ih => exact ih

theorem Reaches.path_ne_nil (h : n.Reaches path m) : path ≠ [] := by
  cases h <;> simp

/-- What lies on the way is no type. -/
theorem Reaches.between (h : n.Reaches (above ++ rest) m) (start : above ≠ []) (stop : rest ≠ [])
    (hc : n.descend? above = some c) : c.kind = .other := by
  induction above generalizing n with
  | nil => exact absurd rfl start
  | cons i above ih =>
      rw [List.cons_append] at h
      generalize whole : above ++ rest = path at h
      cases h with
      | child => exact absurd (List.append_eq_nil_iff.mp whole).2 stop
      | through hd isOther below =>
          rw [SyntaxNode.descend?, hd, Option.bind_some] at hc
          cases above with
          | nil =>
              obtain rfl := Option.some.inj hc
              exact isOther
          | cons j above => exact ih (whole ▸ below) (by simp) hc

/-- Whether a path from the node reaches a member. -/
def reachesAt (n : SyntaxNode) : List Nat → Bool
  | [] => false
  | i :: path => (n.children[i]?).any fun c =>
      path.isEmpty && c.kind.isMemberDeclaration || c.kind == .other && c.reachesAt path

theorem reachesAt_iff (hm : n.descend? path = some m) : n.reachesAt path ↔ n.Reaches path m := by
  induction path generalizing n with
  | nil =>
      constructor
      · intro h
        cases h
      · intro h
        cases h
  | cons i path ih =>
      rw [descend?, Option.bind_eq_some_iff] at hm
      obtain ⟨c, hc, hm⟩ := hm
      rw [reachesAt, hc, Option.any_some, Bool.or_eq_true, Bool.and_eq_true, Bool.and_eq_true,
        ih hm, List.isEmpty_iff, beq_iff_eq]
      constructor
      · rintro (⟨rfl, isMember⟩ | ⟨isOther, below⟩)
        · obtain rfl := Option.some.inj hm
          exact .child hc isMember
        · exact .through hc isOther below
      · intro h
        cases h with
        | child hm' isMember =>
            obtain rfl := Option.some.inj (hc.symm.trans hm')
            exact .inl ⟨rfl, isMember⟩
        | through hc' isOther below =>
            obtain rfl := Option.some.inj (hc.symm.trans hc')
            exact .inr ⟨isOther, below⟩

theorem membersAt_eq (n : SyntaxNode) :
    n.membersAt =
      if n.kind.isMemberDeclaration then [n]
      else if n.kind = .other then membersAmong n.children else [] := by
  obtain ⟨kind, _, _, _, _, _, children⟩ := n
  cases kind <;> rfl

/-- Below a node that is passed through, what it reaches; and the node itself if it is a member. -/
theorem membersAt_listing (generated : Bool)
    (listed : membersAmong n.children =
      ((forestPlaces generated 0 n.children).filter fun x => n.reachesAt x.path).map (·.node)) :
    n.membersAt =
      ((n.places generated).filter fun x => x.path.isEmpty && n.kind.isMemberDeclaration ||
        n.kind == .other && n.reachesAt x.path).map (·.node) := by
  have inside : ∀ x ∈ forestPlaces generated 0 n.children,
      (x.path.isEmpty && n.kind.isMemberDeclaration || n.kind == .other && n.reachesAt x.path) =
        (n.kind == .other && n.reachesAt x.path) := by
    intro x hx
    obtain ⟨k, c, -, y, -, rfl⟩ := mem_forestPlaces.mp hx
    simp [Place.under]
  rw [membersAt_eq, places_eq, List.filter_cons, List.filter_congr inside]
  by_cases isOther : n.kind = .other
  · simp [isOther, NodeKind.isMemberDeclaration, reachesAt, listed]
  · simp only [isOther, beq_eq_false_iff_ne.mpr isOther, reachesAt]
    cases n.kind.isMemberDeclaration <;> simp

theorem membersAmong_listing {parent : SyntaxNode} (generated : Bool) (ns : List SyntaxNode)
    (listed : ∀ n ∈ ns, ∀ g, membersAmong n.children =
      ((forestPlaces g 0 n.children).filter fun x => n.reachesAt x.path).map (·.node))
    (preceding : List SyntaxNode) (split : parent.children = preceding ++ ns) :
    membersAmong ns =
      ((forestPlaces generated preceding.length ns).filter fun x => parent.reachesAt x.path).map
        (·.node) := by
  induction ns generalizing preceding with
  | nil => rfl
  | cons n rest ih =>
      have child : parent.children[preceding.length]? = some n := by simp [split]
      have here := membersAt_listing _ (listed n List.mem_cons_self (generated || n.generated))
      have behind := ih (fun m hm => listed m (List.mem_cons_of_mem _ hm)) (preceding ++ [n])
        (by simp [split])
      rw [List.length_append] at behind
      rw [membersAmong, here, behind, forestPlaces, List.filter_append, List.map_append,
        List.filter_map, List.map_map]
      simp only [Function.comp_def, Place.under, reachesAt, child, Option.any_some]
      rfl

/-- The places of a node's members. -/
def memberPlaces (n : SyntaxNode) : List Place :=
  (forestPlaces false 0 n.children).filter fun x => n.reachesAt x.path

theorem members_eq (n : SyntaxNode) : n.members = n.memberPlaces.map (·.node) := by
  have listed (n : SyntaxNode) : ∀ g, membersAmong n.children =
      ((forestPlaces g 0 n.children).filter fun x => n.reachesAt x.path).map (·.node) := by
    induction n using childInduction with
    | step n ih => exact fun g => membersAmong_listing g n.children ih [] rfl
  exact listed n false

theorem mem_memberPlaces {x : Place} (h : x ∈ n.memberPlaces) : n.Reaches x.path x.node := by
  obtain ⟨hx, reached⟩ := List.mem_filter.mp h
  have place : x ∈ n.places false := by
    rw [places_eq]
    exact List.mem_cons_of_mem _ hx
  exact (reachesAt_iff (mem_places_iff.mp place).1).mp reached

theorem Reaches.exists_place (h : n.Reaches path m) :
    ∃ x ∈ n.memberPlaces, x.path = path ∧ x.node = m := by
  have place : ⟨path, m, n.markAt false path⟩ ∈ n.places false :=
    mem_places_iff.mpr ⟨h.descend?, rfl⟩
  rw [places_eq, List.mem_cons] at place
  rcases place with root | below
  · exact absurd (congrArg Place.path root) h.path_ne_nil
  · exact ⟨_, List.mem_filter.mpr ⟨below, (reachesAt_iff h.descend?).mpr h⟩, rfl, rfl⟩

theorem memberPlaces_ordered (n : SyntaxNode) : n.memberPlaces.Pairwise Place.Before := by
  have ordered := n.places_ordered false
  rw [places_eq] at ordered
  exact ordered.of_cons.filter _

/-- The types of the subtree have names in front of their type parameters. -/
def TypesNamed (n : SyntaxNode) : Prop :=
  ∀ m ∈ n.preorder, m.kind.isTypeDeclaration → ∀ name ∈ m.identifier?, withoutTypeArgs name ≠ ""

instance (n : SyntaxNode) : Decidable n.TypesNamed :=
  inferInstanceAs (Decidable (∀ m ∈ n.preorder, m.kind.isTypeDeclaration →
    ∀ name ∈ m.identifier?, withoutTypeArgs name ≠ ""))

theorem TypesNamed.child (h : n.TypesNamed) (hc : c ∈ n.children) : c.TypesNamed :=
  fun m hm => h m (mem_preorder_of_child hc hm)

theorem TypesNamed.below (h : n.TypesNamed) (hm : n.descend? path = some m) : m.TypesNamed := by
  induction path generalizing n with
  | nil => exact Option.some.inj hm ▸ h
  | cons i path ih =>
      obtain ⟨c, hc, hm⟩ := Option.bind_eq_some_iff.mp hm
      exact ih (h.child (List.mem_of_getElem? hc)) hm

theorem mem_preorder_of_descend? (hm : n.descend? path = some m) : m ∈ n.preorder := by
  have place : ⟨path, m, n.markAt false path⟩ ∈ n.places false := mem_places_iff.mpr ⟨hm, rfl⟩
  rw [← map_node_places false]
  exact List.mem_map_of_mem place

end SyntaxNode

/-- A node below a type declaration: the way to the declaration, and the way from there on. -/
structure MemberSite where
  tree : Nat
  owner : List Nat
  inner : List Nat
  node : SyntaxNode

namespace MemberSite

def path (x : MemberSite) : List Nat :=
  x.owner ++ x.inner

def site (x : MemberSite) : TypeSite :=
  ⟨x.tree, x.path, x.node⟩

/-- By file and declaration, and within a declaration in document order. -/
def Before (x y : MemberSite) : Prop :=
  x.tree < y.tree ∨ x.tree = y.tree ∧ (List.Lex (· < ·) x.owner y.owner ∨
    x.owner = y.owner ∧ List.Lex (· < ·) x.inner y.inner)

/-- Behind positions that part, more positions do not matter. -/
theorem lex_append_of_apart {p q : List Nat} (before : List.Lex (· < ·) p q) (apart : ¬ p <+: q)
    (rest rest' : List Nat) : List.Lex (· < ·) (p ++ rest) (q ++ rest') := by
  induction before with
  | nil => exact absurd List.nil_prefix apart
  | rel lt => exact .rel lt
  | cons _ ih => exact .cons (ih fun sub => apart (List.cons_prefix_cons.mpr ⟨rfl, sub⟩))

/-- Declarations that do not stand in each other have their members one behind the other. -/
theorem Before.site {x y : MemberSite} (h : x.Before y)
    (apart : x.tree = y.tree → x.owner <+: y.owner → x.owner = y.owner) :
    x.site.Before y.site := by
  rcases h with tree | ⟨tree, owner | ⟨owner, inner⟩⟩
  · exact .inl tree
  · refine .inr ⟨tree, lex_append_of_apart owner (fun inside => ?_) _ _⟩
    rw [apart tree inside] at owner
    exact List.lex_irrefl Nat.lt_irrefl _ owner
  · refine .inr ⟨tree, ?_⟩
    dsimp only [MemberSite.site, path]
    rw [owner]
    exact List.Lex.append_left _ inner _

theorem not_before_of_eq {x y : MemberSite} (tree : x.tree = y.tree) (owner : x.owner = y.owner)
    (path : x.path = y.path) : ¬ x.Before y := by
  have inner : x.inner = y.inner := by
    rw [MemberSite.path, MemberSite.path, owner] at path
    exact List.append_cancel_left path
  rintro (lt | ⟨-, lt | ⟨-, lt⟩⟩)
  · exact Nat.lt_irrefl _ (tree ▸ lt)
  · exact List.lex_irrefl Nat.lt_irrefl _ (owner ▸ lt)
  · exact List.lex_irrefl Nat.lt_irrefl _ (inner ▸ lt)

end MemberSite

namespace Declaration

/-- A member of a declaration that gives this name. -/
def MemberOf (files : List ParsedFile) (name : String) (x : MemberSite) : Prop :=
  ∃ d, (x.owner, d) ∈ located files ∧ d.tree = x.tree ∧ d.display = name ∧
    d.node.Reaches x.inner x.node

/-- No declaration of the name stands inside another. -/
def Apart (files : List ParsedFile) (name : String) : Prop :=
  ∀ p d q e, (p, d) ∈ located files → (q, e) ∈ located files → d.display = name →
    e.display = name → d.tree = e.tree → p <+: q → p = q

variable {files : List ParsedFile} {name name' : String} {x y : MemberSite}

theorem MemberOf.owner (h : MemberOf files name x) :
    ∃ file, ∃ d : Declaration, files[x.tree]? = some file ∧
      file.tree.root.descend? x.owner = some d.node ∧
      d.node.kind.isTypeDeclaration ∧ d.display = name ∧ d.node.Reaches x.inner x.node := by
  obtain ⟨d, found, tree, named, reached⟩ := h
  obtain ⟨file, hfile, site⟩ := mem_located_iff.mp found
  obtain ⟨-, node, isType⟩ := node_of_site? site
  exact ⟨file, d, tree ▸ hfile, node, isType, named, reached⟩

theorem MemberOf.descend? (h : MemberOf files name x) {file : ParsedFile}
    (hfile : files[x.tree]? = some file) : file.tree.root.descend? x.path = some x.node := by
  obtain ⟨file', d, hfile', node, -, -, reached⟩ := h.owner
  obtain rfl := Option.some.inj (hfile.symm.trans hfile')
  rw [MemberSite.path, SyntaxNode.descend?_append, node, Option.bind_some, reached.descend?]

/-- The declaration of a member is the innermost type around it. -/
theorem MemberOf.innermost (h : MemberOf files name x) {file : ParsedFile}
    (hfile : files[x.tree]? = some file) {above : List Nat} {c : SyntaxNode}
    (inside : x.owner <+: above) (around : above <+: x.path)
    (hc : file.tree.root.descend? above = some c) (isType : c.kind.isTypeDeclaration) :
    above = x.owner := by
  obtain ⟨file', d, hfile', node, -, -, reached⟩ := h.owner
  obtain rfl := Option.some.inj (hfile.symm.trans hfile')
  obtain ⟨inner, rfl⟩ := inside
  obtain ⟨rest, whole⟩ := around
  rw [MemberSite.path, List.append_assoc] at whole
  have split := List.append_cancel_left whole
  rw [SyntaxNode.descend?_append, node, Option.bind_some] at hc
  by_cases own : inner = []
  · rw [own, List.append_nil]
  · by_cases last : rest = []
    · -- the member itself is no type
      rw [last, List.append_nil] at split
      rw [split, reached.descend?] at hc
      obtain rfl := Option.some.inj hc
      have isMember := reached.isMember
      cases kind : x.node.kind <;> simp [kind, NodeKind.isTypeDeclaration,
        NodeKind.isMemberDeclaration] at isType isMember
    · rw [← split] at reached
      rw [reached.between own last hc] at isType
      cases isType

/-- A node is a member of one declaration only. -/
theorem MemberOf.owner_eq (h : MemberOf files name x) (h' : MemberOf files name' y)
    (tree : x.tree = y.tree) (path : x.path = y.path) : x.owner = y.owner := by
  obtain ⟨file, d, hfile, node, isType, -⟩ := h.owner
  obtain ⟨file', d', hfile', node', isType', -⟩ := h'.owner
  obtain rfl := Option.some.inj (hfile.symm.trans (tree ▸ hfile'))
  have start : x.owner <+: x.path := List.prefix_append _ _
  have start' : y.owner <+: y.path := List.prefix_append _ _
  rcases List.prefix_or_prefix_of_prefix start (path ▸ start') with sub | sub
  · exact (h.innermost hfile sub (path ▸ start') node' isType').symm
  · exact h'.innermost hfile' sub (path ▸ start) node isType

/-- So its name belongs to the declaration's symbol alone. -/
theorem MemberOf.name_eq (h : MemberOf files name x) (h' : MemberOf files name' y)
    (tree : x.tree = y.tree) (path : x.path = y.path) : name = name' := by
  have owner := h.owner_eq h' tree path
  obtain ⟨d, found, ofTree, rfl, -⟩ := h
  obtain ⟨e, found', ofTree', rfl, -⟩ := h'
  rw [← owner] at found'
  obtain ⟨file, hfile, site⟩ := mem_located_iff.mp found
  obtain ⟨file', hfile', site'⟩ := mem_located_iff.mp found'
  have same : d.tree = e.tree := ofTree.trans (tree.trans ofTree'.symm)
  rw [← same, hfile] at hfile'
  obtain rfl := Option.some.inj hfile'
  rw [← same, site] at site'
  rw [Option.some.inj site']

/-- The members of a declaration at a path. -/
def memberSites (path : List Nat) (d : Declaration) : List MemberSite :=
  d.node.memberPlaces.map fun x => ⟨d.tree, path, x.path, x.node⟩

/-- The members of a name, one declaration after the other. -/
def memberSitesOf (files : List ParsedFile) (name : String) : List MemberSite :=
  ((located files).filter fun x => x.2.display == name).flatMap fun x => memberSites x.1 x.2

theorem mem_memberSitesOf : x ∈ memberSitesOf files name ↔ MemberOf files name x := by
  simp only [memberSitesOf, memberSites, List.mem_flatMap, List.mem_filter, List.mem_map,
    beq_iff_eq, Prod.exists]
  constructor
  · rintro ⟨path, d, ⟨found, named⟩, place, hplace, rfl⟩
    exact ⟨d, found, rfl, named, SyntaxNode.mem_memberPlaces hplace⟩
  · obtain ⟨tree, owner, inner, node⟩ := x
    rintro ⟨d, found, rfl, named, reached⟩
    obtain ⟨place, hplace, rfl, rfl⟩ := reached.exists_place
    exact ⟨owner, d, ⟨found, named⟩, place, hplace, rfl⟩

theorem memberSitesOf_ordered (files : List ParsedFile) (name : String) :
    (memberSitesOf files name).Pairwise MemberSite.Before := by
  rw [memberSitesOf, List.pairwise_flatMap]
  constructor
  · intro x _
    rw [memberSites, List.pairwise_map]
    exact (SyntaxNode.memberPlaces_ordered _).imp fun before => .inr ⟨rfl, .inr ⟨rfl, before⟩⟩
  · refine ((located_ordered files).filter _).imp ?_
    intro x y before a ha b hb
    obtain ⟨-, -, rfl⟩ := List.mem_map.mp ha
    obtain ⟨-, -, rfl⟩ := List.mem_map.mp hb
    exact before.imp id fun same => ⟨same.1, .inl same.2⟩

/-- What a name records. -/
theorem outlines_eq (files : List ParsedFile) (name : String) :
    (((ofFiles files).flatMap recorded).filter (·.1 == name)).map (·.2) =
      (memberSitesOf files name).map fun x => x.node.outline x.tree := by
  have own (ds : List Declaration) : ((ds.flatMap recorded).filter (·.1 == name)).map (·.2) =
      (ds.filter (·.display == name)).flatMap fun d => d.node.members.map (·.outline d.tree) := by
    induction ds with
    | nil => rfl
    | cons d ds ih =>
        rw [List.flatMap_cons, List.filter_append, List.map_append, ih, List.filter_cons, recorded,
          List.filter_map]
        by_cases named : d.display = name <;> simp [named, Function.comp_def]
  rw [own, ← map_located, List.filter_map, memberSitesOf, List.map_flatMap, List.flatMap_map]
  simp only [memberSites, SyntaxNode.members_eq, List.map_map]
  rfl

theorem withoutTypeArgs_append_plain {name rest : String} (plain : PlainName name) :
    withoutTypeArgs (name ++ rest) = name ++ withoutTypeArgs rest := by
  rw [withoutTypeArgs, withoutTypeArgs, String.toList_append, List.takeWhile_append_of_pos,
    String.ofList_append, String.ofList_toList]
  intro c hc
  simp only [ne_eq, decide_not, Bool.not_eq_true', decide_eq_false_iff_not]
  rintro rfl
  exact plain hc

/-- A type inside another has the longer name. -/
theorem length_lt_displayNameIn {scope : Scope} {e name : String} {n : SyntaxNode}
    (around : scope.enclosing.getLast? = some e) (named : withoutTypeArgs name ≠ "") :
    (withoutTypeArgs e).length < (withoutTypeArgs (Binder.displayNameIn scope name n)).length := by
  have plain := plain_withoutTypeArgs e
  rw [Binder.displayNameIn, around]
  dsimp only
  rw [qualify]
  split
  · next empty =>
      have positive : 0 < (withoutTypeArgs name).length :=
        Nat.pos_of_ne_zero fun zero => named (String.length_eq_zero_iff.mp zero)
      rw [String.isEmpty_iff.mp empty, ← withoutTypeArgs_append_typeArgs name, String.append_assoc,
        withoutTypeArgs_append_plain (plain_withoutTypeArgs name), String.length_append]
      exact Nat.lt_of_lt_of_le positive (Nat.le_add_right _ _)
  · rw [String.append_assoc, withoutTypeArgs_append_plain (plain.append (by decide)),
      String.length_append, String.length_append]
    have dot : ".".length = 1 := by decide
    omega

/-- What lies below a declaration is declared in its scope. -/
theorem site?_append {tree : Nat} {scope : Scope} {n : SyntaxNode} {path rest : List Nat}
    {d : Declaration} (found : site? tree scope n path = some d) (longer : rest ≠ []) :
    site? tree scope n (path ++ rest) =
      (d.scope.inside? d.node).bind fun inner => site? tree inner d.node rest := by
  induction path generalizing n scope with
  | nil => cases found
  | cons i path ih =>
      cases hc : n.children[i]? with
      | none => simp [site?, hc] at found
      | some c =>
          rw [List.cons_append, site?_cons hc]
          rw [site?_cons hc] at found
          dsimp only at found ⊢
          rw [if_neg (by simp [longer])]
          split at found
          · next last =>
              obtain ⟨-, -, -, rfl⟩ := at?_eq_some found
              rw [last]
              rfl
          · obtain ⟨inner, entered, found⟩ := Option.bind_eq_some_iff.mp found
            rw [entered, Option.bind_some, ih found]

/-- Siblings that change nothing. -/
theorem foldl_behind_of_stays {ns : List SyntaxNode} {scope : Scope}
    (stays : ∀ n ∈ ns, scope.behind n = scope) : ns.foldl Scope.behind scope = scope := by
  induction ns with
  | nil => rfl
  | cons n ns ih =>
      obtain ⟨own, stays⟩ := List.forall_mem_cons.mp stays
      rw [List.foldl_cons, own, ih stays]

theorem length_lt_of_site? {tree : Nat} {scope : Scope} {n : SyntaxNode} {path : List Nat}
    {d : Declaration} {e : String} (around : scope.enclosing.getLast? = some e)
    (free : ∀ c ∈ n.children, ∀ x ∈ c.preorder, x.kind ≠ .namespaceDeclaration)
    (named : n.TypesNamed) (found : site? tree scope n path = some d) :
    (withoutTypeArgs e).length < (withoutTypeArgs d.display).length := by
  induction path generalizing n scope e with
  | nil => cases found
  | cons i path ih =>
      cases hc : n.children[i]? with
      | none => simp [site?, hc] at found
      | some c =>
          have child := List.mem_of_getElem? hc
          have here : (n.children.take i).foldl Scope.behind scope = scope :=
            foldl_behind_of_stays fun m hm => if_neg fun both =>
              free m (List.mem_of_mem_take hm) m m.mem_preorder_self both.1
          have longer {name : String} (isType : c.kind.isTypeDeclaration)
              (identifier : c.identifier? = some name) :=
            length_lt_displayNameIn (n := c) around
              (named.child child c c.mem_preorder_self isType name identifier)
          have below : ∀ y ∈ c.children, ∀ x ∈ y.preorder, x.kind ≠ .namespaceDeclaration :=
            fun y hy x hx => free c child x (SyntaxNode.mem_preorder_of_child hy hx)
          rw [site?_cons hc, here] at found
          dsimp only at found
          split at found
          · obtain ⟨isType, name, identifier, rfl⟩ := at?_eq_some found
            exact longer isType identifier
          · obtain ⟨inner, entered, found⟩ := Option.bind_eq_some_iff.mp found
            rw [Scope.inside?, if_neg (free c child c c.mem_preorder_self)] at entered
            split at entered
            · next isType =>
                obtain ⟨name, identifier, rfl⟩ := Option.map_eq_some_iff.mp entered
                exact Nat.lt_trans (longer isType identifier)
                  (ih List.getLast?_concat below (named.child child) found)
            · split at entered
              · cases entered
              · obtain rfl := Option.some.inj entered
                exact ih around below (named.child child) found

theorem apart_of_flat (flat : ∀ file ∈ files, file.tree.root.Flat)
    (named : ∀ file ∈ files, file.tree.root.TypesNamed) (name : String) : Apart files name := by
  intro p d q e found found' display display' tree inside
  obtain ⟨rest, rfl⟩ := inside
  by_cases own : rest = []
  · rw [own, List.append_nil]
  · obtain ⟨file, hfile, site⟩ := mem_located_iff.mp found
    obtain ⟨file', hfile', site'⟩ := mem_located_iff.mp found'
    rw [← tree, hfile] at hfile'
    obtain rfl := Option.some.inj hfile'
    obtain ⟨-, node, isType⟩ := node_of_site? site
    have hfile := List.mem_of_getElem? hfile
    have free := flat file hfile _ (SyntaxNode.mem_preorder_of_descend? node) isType
    rw [siteIn?, ← tree, site?_append site own] at site'
    obtain ⟨inner, entered, below⟩ := Option.bind_eq_some_iff.mp site'
    have around : inner.enclosing.getLast? = some d.display := by
      obtain ⟨identifier, named, displayed⟩ := display_of_site? site
      have noNamespace : d.node.kind ≠ .namespaceDeclaration := by
        intro isNamespace
        rw [isNamespace] at isType
        cases isType
      rw [Scope.inside?, if_neg noNamespace, if_pos isType, named] at entered
      rw [← Option.some.inj entered, displayed]
      exact List.getLast?_concat
    have longer := length_lt_of_site? around free ((named file hfile).below node) below
    rw [display, display'] at longer
    exact absurd longer (Nat.lt_irrefl _)

end Declaration

namespace Binder

open Declaration

/-- The members of a symbol are the methods and constructors that its declarations reach through
`other` nodes, each once, one declaration after the other and within a declaration in document
order; this is document order throughout unless a declaration of the symbol stands inside another,
which takes types without names. The declaration is the innermost type around a member, so a node
is a member of one symbol only. -/
theorem members_of_declarations (files : List ParsedFile) :
    (∀ id s, (bind files).symbol? id = some s →
      s.declared = ((located files).filter (·.2.display == s.displayName)).map (·.2.place) ∧
      ∃ sites : List MemberSite,
        s.members.map (·.outline) = sites.map (fun x => x.node.outline x.tree) ∧
        (∀ x, x ∈ sites ↔ MemberOf files s.displayName x) ∧
        sites.Pairwise MemberSite.Before ∧
        (sites.map fun x => (x.tree, x.path)).Nodup ∧
        (Apart files s.displayName → (sites.map (·.site)).Pairwise TypeSite.Before)) ∧
    ((∀ file ∈ files, file.tree.root.Flat) → (∀ file ∈ files, file.tree.root.TypesNamed) →
      ∀ name, Apart files name) ∧
    (∀ name x, MemberOf files name x → ∃ file, files[x.tree]? = some file ∧
      file.tree.root.descend? x.path = some x.node ∧
      ∀ above c, x.owner <+: above → above <+: x.path → file.tree.root.descend? above = some c →
        c.kind.isTypeDeclaration → above = x.owner) ∧
    ∀ name name' x y, MemberOf files name x → MemberOf files name' y → x.tree = y.tree →
      x.path = y.path → name = name' := by
  refine ⟨fun id s found => ⟨?_, memberSitesOf files s.displayName, ?_, fun x => mem_memberSitesOf,
    memberSitesOf_ordered files _, ?_, fun apart => ?_⟩, apart_of_flat, fun name x h => ?_,
    fun name name' x y h h' => h.name_eq h'⟩
  · rw [declared_of_bind found, placesOf_eq]
  · obtain ⟨t, bound, sound, members, -⟩ := effects_bind files
    rw [bound] at found
    rw [sound.members_finish found, members, outlines_eq]
  · rw [List.Nodup, List.pairwise_map]
    refine (memberSitesOf_ordered files _).imp_of_mem fun {x y} hx hy before same => ?_
    obtain ⟨tree, path⟩ := Prod.mk.inj same
    have owner := (mem_memberSitesOf.mp hx).owner_eq (mem_memberSitesOf.mp hy) tree path
    exact MemberSite.not_before_of_eq tree owner path before
  · rw [List.pairwise_map]
    refine (memberSitesOf_ordered files _).imp_of_mem fun {x y} hx hy before =>
      before.site fun tree inside => ?_
    obtain ⟨d, found, ofTree, named, -⟩ := mem_memberSitesOf.mp hx
    obtain ⟨e, found', ofTree', named', -⟩ := mem_memberSitesOf.mp hy
    exact apart _ d _ e found found' named named' (ofTree.trans (tree.trans ofTree'.symm)) inside
  · obtain ⟨file, -, hfile, -⟩ := h.owner
    exact ⟨file, hfile, h.descend? hfile, fun above c => h.innermost hfile⟩

/-- A class in two parts, the first with a nested class between its members. -/
def orderParts : List ParsedFile := [
  { tree :=
      { path := "Order.cs"
        root :=
          { kind := .compilationUnit
            children := [
              { kind := .classDeclaration
                span := { startByte := 0, endByte := 90 }
                name := some "Order"
                children := [
                  { kind := .other
                    children := [
                      { kind := .constructorDeclaration
                        span := { startByte := 14, endByte := 24 }
                        name := some "Order" },
                      { kind := .classDeclaration
                        span := { startByte := 25, endByte := 60 }
                        name := some "Line"
                        children := [
                          { kind := .methodDeclaration
                            span := { startByte := 38, endByte := 58 }
                            name := some "Price" }] },
                      { kind := .methodDeclaration
                        span := { startByte := 61, endByte := 88 }
                        name := some "Add"
                        children := [
                          { kind := .attributeList
                            children := [
                              { kind := .attributeUse, name := some "HttpPost" }] }] }] }] }] } } },
  { tree :=
      { path := "Order.Lines.cs"
        root :=
          { kind := .compilationUnit
            children := [
              { kind := .classDeclaration
                span := { startByte := 0, endByte := 40 }
                name := some "Order"
                children := [
                  { kind := .methodDeclaration
                    span := { startByte := 14, endByte := 38 }
                    name := some "Remove" }] }] } } }]

theorem members_of_declarations_orderParts :
    ∃ s, ∃ sites : List MemberSite, (bind orderParts).symbol? 0 = some s ∧
      s.members.map (fun m => (m.name, m.kind)) =
        [("Order", .constructor), ("Add", .method), ("Remove", .method)] ∧
      s.members.map (·.outline) = sites.map (fun x => x.node.outline x.tree) ∧
      (sites.map (·.site)).Pairwise TypeSite.Before ∧
      ∀ x, x ∈ sites ↔ MemberOf orderParts "Order" x := by
  obtain ⟨symbols, apart, -⟩ := members_of_declarations orderParts
  have bound : ((bind orderParts).symbol? 0).map
      (fun s => (s.displayName, s.members.map fun m => (m.name, m.kind))) =
        some ("Order", [("Order", .constructor), ("Add", .method), ("Remove", .method)]) := by
    decide +kernel
  obtain ⟨s, found, same⟩ := Option.map_eq_some_iff.mp bound
  obtain ⟨display, members⟩ := Prod.mk.inj same
  obtain ⟨-, sites, outlines, listed, -, -, ordered⟩ := symbols 0 s found
  have flat : ∀ file ∈ orderParts, file.tree.root.Flat := by decide +kernel
  have named : ∀ file ∈ orderParts, file.tree.root.TypesNamed := by decide +kernel
  rw [display] at listed
  exact ⟨s, sites, found, members, outlines, ordered (apart flat named _), listed⟩

/-- A class without a name in another one. -/
def nestedNameless : ParsedFile where
  tree :=
    { path := "Nested.cs"
      root :=
        { kind := .compilationUnit
          children := [
            { kind := .classDeclaration
              span := { startByte := 0, endByte := 60 }
              name := some ""
              children := [
                { kind := .classDeclaration
                  span := { startByte := 8, endByte := 36 }
                  name := some ""
                  children := [
                    { kind := .methodDeclaration
                      span := { startByte := 16, endByte := 34 }
                      name := some "First" }] },
                { kind := .methodDeclaration
                  span := { startByte := 38, endByte := 58 }
                  name := some "Second" }] }] } }

/-- The members of the outer class come before those of the inner one, against document order. -/
theorem nestedNameless_out_of_order :
    ∃ s, (bind [nestedNameless]).symbol? 0 = some s ∧ s.members.map (·.name) = ["Second", "First"] ∧
      ¬ ∃ sites : List TypeSite,
        s.members.map (·.outline) = sites.map (fun x => x.node.outline x.tree) ∧
        (∀ x ∈ sites, x.tree = 0 ∧ nestedNameless.tree.root.descend? x.path = some x.node) ∧
        sites.Pairwise TypeSite.Before := by
  let second : MemberOutline := ⟨"Second", .method, [], some ⟨0, 38, 58⟩⟩
  let first : MemberOutline := ⟨"First", .method, [], some ⟨0, 16, 34⟩⟩
  have bound : ((bind [nestedNameless]).symbol? 0).map (fun s => s.members.map (·.outline)) =
      some [second, first] := by decide +kernel
  obtain ⟨s, found, outlines⟩ := Option.map_eq_some_iff.mp bound
  have names : s.members.map (·.name) = ["Second", "First"] := by
    have named := congrArg (List.map MemberOutline.name) outlines
    rwa [List.map_map] at named
  refine ⟨s, found, names, ?_⟩
  rintro ⟨sites, same, placed, ordered⟩
  rw [outlines, eq_comm, List.map_eq_cons_iff] at same
  obtain ⟨a, _, rfl, isSecond, same⟩ := same
  obtain ⟨b, rfl, isFirst⟩ := List.map_eq_singleton_iff.mp same
  -- each of the two outlines is that of one node
  have paths : ∀ x ∈ nestedNameless.tree.root.places false,
      (x.node.outline 0 = second → x.path = [0, 1]) ∧
        (x.node.outline 0 = first → x.path = [0, 0, 0]) := by decide
  have place {x : TypeSite} (hx : x ∈ [a, b]) : (x.node.outline 0 = second → x.path = [0, 1]) ∧
      (x.node.outline 0 = first → x.path = [0, 0, 0]) :=
    paths ⟨x.path, x.node, nestedNameless.tree.root.markAt false x.path⟩
      (SyntaxNode.mem_places_iff.mpr ⟨(placed x hx).2, rfl⟩)
  have ha : a ∈ [a, b] := by simp
  have hb : b ∈ [a, b] := by simp
  rw [(placed a ha).1] at isSecond
  rw [(placed b hb).1] at isFirst
  have before := List.rel_of_pairwise_cons ordered List.mem_cons_self
  rw [TypeSite.Before, (placed a ha).1, (placed b hb).1, (place ha).1 isSecond,
    (place hb).2 isFirst] at before
  simp [List.cons_lex_cons_iff] at before

end Binder
end Antipattern
