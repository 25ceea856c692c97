import Antipattern.Proofs.DeclaredMembers

/-!
How far a namespace declaration reaches. One without a `;` among its tokens names what is declared
inside of it and nothing else: with the declaration taken out, all other types keep their names.
One with a `;` names the siblings behind it as well. The `;` alone decides, so a body in braces with
a `;` behind it is no different.
-/

namespace Antipattern

/-- A list and itself with one entry changed. -/
theorem forall₂_modify {α : Type} {R : α → α → Prop} {l : List α} {i : Nat} {f : α → α}
    (same : ∀ a, R a a) (changed : ∀ a, l[i]? = some a → R a (f a)) :
    List.Forall₂ R l (l.modify i f) := by
  induction l generalizing i with
  | nil => simp
  | cons a l ih =>
      cases i with
      | zero => exact .cons (changed a rfl) (List.forall₂_same.mpr fun a _ => same a)
      | succ i => exact .cons (same a) (ih changed)

namespace SyntaxNode

variable {n n' c c' m new : SyntaxNode} {i : Nat} {path : List Nat}

/-- The node with what stands at a path replaced. -/
def replaceAt (n new : SyntaxNode) : List Nat → SyntaxNode
  | [] => new
  | i :: path => { n with children := n.children.modify i fun c => c.replaceAt new path }

theorem children_replaceAt (n new : SyntaxNode) (i : Nat) (path : List Nat) :
    (n.replaceAt new (i :: path)).children = n.children.modify i fun c => c.replaceAt new path :=
  rfl

theorem take_children_replaceAt (n new : SyntaxNode) (i : Nat) (path : List Nat) :
    (n.replaceAt new (i :: path)).children.take i = n.children.take i := by
  rw [children_replaceAt, List.take_modify, List.modify_eq_self (List.length_take_le i n.children)]

theorem children_replaceAt_ne (n new : SyntaxNode) {i k : Nat} (path : List Nat) (other : i ≠ k) :
    (n.replaceAt new (i :: path)).children[k]? = n.children[k]? := by
  simp [children_replaceAt, other]

theorem children_replaceAt_self (hc : n.children[i]? = some c) (path : List Nat) :
    (n.replaceAt new (i :: path)).children[i]? = some (c.replaceAt new path) := by
  simp [children_replaceAt, hc]

/-- A body in braces among the children. -/
def hasBracedBody (n : SyntaxNode) : Bool :=
  n.children.any fun body => body.kind != .token &&
    body.children.any fun c => c.kind == .token && c.name == some "\x7b"

/-- Nodes that are the same to the declaration that holds them. -/
structure Alike (c c' : SyntaxNode) : Prop where
  semicolon : (c'.kind == .token && c'.name == some ";") = (c.kind == .token && c.name == some ";")
  parameters : (c'.kind == .typeParameterList) = (c.kind == .typeParameterList)
  text : c.kind = .typeParameterList → c'.name = c.name

theorem Alike.refl (c : SyntaxNode) : Alike c c :=
  ⟨rfl, rfl, fun _ => rfl⟩

/-- Declarations that are the same apart from what they hold. -/
structure Similar (n n' : SyntaxNode) : Prop where
  kind : n'.kind = n.kind
  name : n'.name = n.name
  isFileScoped : n'.isFileScoped = n.isFileScoped
  typeParameters : n'.typeParameters = n.typeParameters

theorem Similar.identifier? (h : Similar n n') : n'.identifier? = n.identifier? := by
  rw [SyntaxNode.identifier?, SyntaxNode.identifier?, h.kind, h.name]

theorem Similar.alike (h : Similar n n') : Alike n n' where
  semicolon := by rw [h.kind, h.name]
  parameters := by rw [h.kind]
  text _ := h.name

theorem isFileScoped_congr {l l' : List SyntaxNode} (h : List.Forall₂ Alike l l') :
    (l'.any fun c => c.kind == .token && c.name == some ";") =
      l.any fun c => c.kind == .token && c.name == some ";" := by
  induction h with
  | nil => rfl
  | cons alike _ ih => rw [List.any_cons, List.any_cons, alike.semicolon, ih]

theorem typeParameters_congr {l l' : List SyntaxNode} (h : List.Forall₂ Alike l l') :
    (l'.find? fun c => c.kind == .typeParameterList).bind (·.name) =
      (l.find? fun c => c.kind == .typeParameterList).bind (·.name) := by
  induction h with
  | nil => rfl
  | @cons c c' _ _ alike _ ih =>
      rw [List.find?_cons, List.find?_cons, alike.parameters]
      cases isList : c.kind == .typeParameterList with
      | true => exact alike.text (beq_iff_eq.mp isList)
      | false => exact ih

theorem similar_replaceAt_cons
    (alike : ∀ c, n.children[i]? = some c → Alike c (c.replaceAt new path)) :
    Similar n (n.replaceAt new (i :: path)) := by
  have children := forall₂_modify Alike.refl alike
  refine ⟨rfl, rfl, isFileScoped_congr children, ?_⟩
  rw [typeParameters, typeParameters, child?, child?, replaceAt, typeParameters_congr children]

theorem alike_replaceAt (alike : ∀ m, n.descend? path = some m → Alike m new) :
    Alike n (n.replaceAt new path) := by
  induction path generalizing n with
  | nil => exact alike n rfl
  | cons i path ih =>
      refine (similar_replaceAt_cons fun c hc => ih fun m hm => alike m ?_).alike
      rw [descend?, hc, Option.bind_some, hm]

/-- Replacing something below a declaration leaves it similar. -/
theorem similar_replaceAt (alike : ∀ m, n.descend? path = some m → Alike m new)
    (below : path ≠ []) : Similar n (n.replaceAt new path) := by
  cases path with
  | nil => exact absurd rfl below
  | cons i path =>
      refine similar_replaceAt_cons fun c hc => alike_replaceAt fun m hm => alike m ?_
      rw [descend?, hc, Option.bind_some, hm]

end SyntaxNode

open SyntaxNode

/-- The file with the node at a path taken out. -/
def ParsedFile.without (file : ParsedFile) (q : List Nat) : ParsedFile :=
  { file with tree := { file.tree with root := file.tree.root.replaceAt { kind := .other } q } }

namespace Scope

variable {n n' : SyntaxNode} {l l' : List SyntaxNode}

theorem behind_congr (h : Similar n n') (scope : Scope) : scope.behind n' = scope.behind n := by
  rw [behind, behind, h.kind, h.isFileScoped, h.identifier?]

theorem behind_replaceAt {new : SyntaxNode} {path : List Nat}
    (alike : ∀ m, n.descend? path = some m → Alike m new)
    (same : ∀ m, n.descend? path = some m → ∀ scope : Scope, scope.behind new = scope.behind m)
    (scope : Scope) : scope.behind (n.replaceAt new path) = scope.behind n := by
  cases path with
  | nil => exact same n rfl scope
  | cons i path => exact behind_congr (similar_replaceAt alike (List.cons_ne_nil i path)) scope

/-- Only a namespace with a `;` holds for the siblings behind it. -/
theorem behind_of_body (scope : Scope)
    (body : n.kind = .namespaceDeclaration → n.isFileScoped = false) : scope.behind n = scope := by
  refine if_neg fun both => ?_
  rw [body both.1] at both
  cases both.2

theorem behind_other (scope : Scope) : scope.behind { kind := .other } = scope :=
  scope.behind_of_body fun isNamespace => by cases isNamespace

theorem displayNameIn_congr (h : Similar n n') (scope : Scope) (name : String) :
    Binder.displayNameIn scope name n' = Binder.displayNameIn scope name n := by
  rw [Binder.displayNameIn, Binder.displayNameIn, h.typeParameters]

theorem inside?_congr (h : Similar n n') (scope : Scope) : scope.inside? n' = scope.inside? n := by
  simp only [inside?, h.kind, h.identifier?, h.isFileScoped, displayNameIn_congr h]

theorem foldl_behind_congr
    (h : List.Forall₂ (fun c c' => ∀ scope : Scope, scope.behind c' = scope.behind c) l l')
    (scope : Scope) : l'.foldl behind scope = l.foldl behind scope := by
  induction h generalizing scope with
  | nil => rfl
  | cons same _ ih => rw [List.foldl_cons, List.foldl_cons, same, ih]

/-- The scope behind a node holds on until another node changes it. -/
theorem foldl_behind_take {c : SyntaxNode} {i j : Nat} (hc : l[i]? = some c) (lt : i < j)
    (between : ∀ k x, i < k → k < j → l[k]? = some x → ∀ scope : Scope, scope.behind x = scope)
    (scope : Scope) : (l.take j).foldl behind scope = ((l.take i).foldl behind scope).behind c := by
  induction l generalizing i j scope with
  | nil => cases hc
  | cons d l ih =>
      obtain ⟨j, rfl⟩ := Nat.exists_eq_add_one_of_ne_zero (Nat.ne_zero_of_lt lt)
      rw [List.take_succ_cons, List.foldl_cons]
      cases i with
      | zero =>
          obtain rfl := Option.some.inj hc
          refine Declaration.foldl_behind_of_stays fun x hx => ?_
          obtain ⟨k, hk⟩ := List.mem_iff_getElem?.mp hx
          rw [List.getElem?_take, Option.ite_none_right_eq_some] at hk
          exact between (k + 1) x (Nat.succ_pos k) (Nat.succ_lt_succ hk.1) hk.2 _
      | succ i =>
          rw [List.take_succ_cons, List.foldl_cons]
          exact ih hc (Nat.lt_of_succ_lt_succ lt) (fun k x low high hx =>
            between (k + 1) x (Nat.succ_lt_succ low) (Nat.succ_lt_succ high) hx) _

end Scope

namespace Declaration

variable {tree : Nat} {scope : Scope} {n c new : SyntaxNode} {path q : List Nat}

theorem display_at?_congr {n' : SyntaxNode} (h : Similar n n') :
    (at? tree scope n').map (·.display) = (at? tree scope n).map (·.display) := by
  rw [at?, at?, h.kind, h.identifier?]
  split
  · simp [Function.comp_def, Scope.displayNameIn_congr h]
  · rfl

/-- Below the child that is changed. -/
theorem site?_replaceAt_self {i : Nat} (hc : n.children[i]? = some c) :
    site? tree scope (n.replaceAt new (i :: q)) (i :: path) =
      let here := (n.children.take i).foldl Scope.behind scope
      if path = [] then at? tree here (c.replaceAt new q)
      else (here.inside? (c.replaceAt new q)).bind fun inner =>
        site? tree inner (c.replaceAt new q) path := by
  rw [site?_cons (children_replaceAt_self hc q), take_children_replaceAt]

/-- Below the other children. -/
theorem site?_replaceAt_ne {i j : Nat} (other : j ≠ i)
    (behind : ∀ c, n.children[i]? = some c →
      ∀ scope : Scope, scope.behind (c.replaceAt new q) = scope.behind c) :
    site? tree scope (n.replaceAt new (i :: q)) (j :: path) = site? tree scope n (j :: path) := by
  have child := children_replaceAt_ne n new q (Ne.symm other)
  have here := Scope.foldl_behind_congr
    (List.forall₂_take j (forall₂_modify (fun _ _ => rfl) behind)) scope
  cases hc : n.children[j]? with
  | none => simp [site?, child, hc]
  | some c => rw [site?_cons (child.trans hc), site?_cons hc, children_replaceAt, here]

/-- Outside of what is replaced, types keep their names. -/
theorem display_replaceAt (alike : ∀ m, n.descend? q = some m → Alike m new)
    (behind : ∀ m, n.descend? q = some m → ∀ scope : Scope, scope.behind new = scope.behind m)
    (outside : ¬ q <+: path) :
    (site? tree scope (n.replaceAt new q) path).map (·.display) =
      (site? tree scope n path).map (·.display) := by
  induction q generalizing n scope path with
  | nil => exact absurd List.nil_prefix outside
  | cons i q ih =>
      cases path with
      | nil => rfl
      | cons j path =>
          have below (c : SyntaxNode) (hc : n.children[i]? = some c) {m : SyntaxNode}
              (hm : c.descend? q = some m) : n.descend? (i :: q) = some m := by
            rw [descend?, hc, Option.bind_some, hm]
          by_cases same : j = i
          · subst same
            have inside : ¬ q <+: path := fun sub =>
              outside (List.cons_prefix_cons.mpr ⟨rfl, sub⟩)
            cases hc : n.children[j]? with
            | none => simp [site?, children_replaceAt, hc]
            | some c =>
                have deeper : q ≠ [] := fun empty => inside (empty ▸ List.nil_prefix)
                have alike (m : SyntaxNode) (hm : c.descend? q = some m) := alike m (below c hc hm)
                have similar := similar_replaceAt alike deeper
                rw [site?_replaceAt_self hc, site?_cons hc]
                dsimp only
                split
                · exact display_at?_congr similar
                · rw [Scope.inside?_congr similar, Option.map_bind, Option.map_bind]
                  exact Option.bind_congr fun inner _ =>
                    ih alike (fun m hm => behind m (below c hc hm)) inside
          · rw [site?_replaceAt_ne same fun c hc => Scope.behind_replaceAt
              (fun m hm => alike m (below c hc hm)) fun m hm => behind m (below c hc hm)]

/-- A sibling behind what is replaced is declared as before, apart from the scope's share. -/
theorem site?_behind {p : List Nat} {m : SyntaxNode} {i j : Nat} {d : Declaration}
    (alike : Alike c new) (hm : n.descend? p = some m) (hc : m.children[i]? = some c) (lt : i < j)
    (between : ∀ k x, i < k → k < j → m.children[k]? = some x →
      ∀ scope : Scope, scope.behind x = scope)
    (found : site? tree scope n (p ++ [j]) = some d) :
    ∃ s : Scope, ∃ d', d.scope = s.behind c ∧ d'.scope = s.behind new ∧ d'.node = d.node ∧
      site? tree scope (n.replaceAt new (p ++ [i])) (p ++ [j]) = some d' := by
  induction p generalizing n scope with
  | nil =>
      obtain rfl := Option.some.inj hm
      rw [List.nil_append] at found
      cases he : n.children[j]? with
      | none => simp [site?, he] at found
      | some e =>
          have he' := (children_replaceAt_ne n new [] (Nat.ne_of_lt lt)).trans he
          have between' (k : Nat) (x : SyntaxNode) (low : i < k) (high : k < j)
              (hx : (n.replaceAt new [i]).children[k]? = some x) :=
            between k x low high (children_replaceAt_ne n new [] (Nat.ne_of_lt low) ▸ hx)
          rw [site?_cons he, if_pos rfl, Scope.foldl_behind_take hc lt between] at found
          obtain ⟨isType, name, identifier, rfl⟩ := at?_eq_some found
          let s := (n.children.take i).foldl Scope.behind scope
          refine ⟨s, ⟨Binder.displayNameIn (s.behind new) name e, tree, e, s.behind new⟩, rfl, rfl,
            rfl, ?_⟩
          rw [List.nil_append, List.nil_append, site?_cons he', if_pos rfl,
            Scope.foldl_behind_take (children_replaceAt_self hc []) lt between',
            take_children_replaceAt, at?, if_pos isType, identifier]
          rfl
  | cons k p ih =>
      obtain ⟨x, hx, hm⟩ := Option.bind_eq_some_iff.mp hm
      have last : p ++ [j] ≠ [] := by simp
      have reached : ∀ y, x.descend? (p ++ [i]) = some y → Alike y new := by
        intro y hy
        rw [descend?_append, hm, Option.bind_some, descend?, hc, Option.bind_some] at hy
        exact Option.some.inj hy ▸ alike
      have similar := similar_replaceAt reached (by simp)
      rw [List.cons_append, site?_cons hx] at found
      dsimp only at found
      rw [if_neg last] at found
      obtain ⟨inner, entered, found⟩ := Option.bind_eq_some_iff.mp found
      obtain ⟨s, d', before, after, node, found'⟩ := ih hm found
      refine ⟨s, d', before, after, node, ?_⟩
      rw [List.cons_append, List.cons_append, site?_replaceAt_self hx]
      dsimp only
      rw [if_neg last, Scope.inside?_congr similar, entered, Option.bind_some, found']

/-- The name of the type that a file declares at a path. -/
def nameAt? (file : ParsedFile) (tree : Nat) (path : List Nat) : Option String :=
  (siteIn? file tree path).map (·.display)

/-- A path to a sibling behind what another path leads to, with no namespace in between that names
the siblings behind it. -/
def SiblingBehind (file : ParsedFile) (q path : List Nat) : Prop :=
  ∃ p i j m, q = p ++ [i] ∧ path = p ++ [j] ∧ i < j ∧ file.tree.root.descend? p = some m ∧
    ∀ k x, i < k → k < j → m.children[k]? = some x → x.kind = .namespaceDeclaration →
      x.isFileScoped = false

variable {file : ParsedFile}

theorem alike_of_namespace (isNamespace : c.kind = .namespaceDeclaration) :
    Alike c { kind := .other } := by
  refine ⟨?_, ?_, fun isList => ?_⟩
  · rw [isNamespace]
    rfl
  · rw [isNamespace]
    rfl
  · rw [isNamespace] at isList
    cases isList

theorem nameAt?_without (reached : file.tree.root.descend? q = some c)
    (isNamespace : c.kind = .namespaceDeclaration) (body : c.isFileScoped = false)
    (outside : ¬ q <+: path) :
    nameAt? (file.without q) tree path = nameAt? file tree path := by
  refine display_replaceAt (fun m hm => ?_) (fun m hm scope => ?_) outside
  · obtain rfl := Option.some.inj (reached.symm.trans hm)
    exact alike_of_namespace isNamespace
  · obtain rfl := Option.some.inj (reached.symm.trans hm)
    rw [Scope.behind_of_body scope fun _ => body, Scope.behind_other]

/-- Outside of types, the namespace comes in front of the identifier. -/
theorem display_of_namespace {d : Declaration} {ident : String}
    (found : site? tree scope n path = some d) (outside : d.scope.enclosing = [])
    (identifier : d.node.identifier? = some ident) :
    d.display = qualify d.scope.namespaceName ident ++ d.node.typeParameters := by
  obtain ⟨name, named, display⟩ := display_of_site? found
  obtain rfl := Option.some.inj (identifier.symm.trans named)
  rw [display, Binder.displayNameIn, outside]
  rfl

theorem display_behind_namespace (reached : file.tree.root.descend? q = some c)
    (isNamespace : c.kind = .namespaceDeclaration) (fileScoped : c.isFileScoped = true)
    {name : String} (named : c.identifier? = some name) (behind : SiblingBehind file q path)
    {d : Declaration} (found : siteIn? file tree path = some d) (outside : d.scope.enclosing = []) :
    ∃ ns ident, d.node.identifier? = some ident ∧
      d.display = qualify (qualify ns name) ident ++ d.node.typeParameters ∧
      nameAt? (file.without q) tree path = some (qualify ns ident ++ d.node.typeParameters) := by
  obtain ⟨p, i, j, m, rfl, rfl, lt, hm, between⟩ := behind
  rw [descend?_append, hm, Option.bind_some, descend?] at reached
  obtain ⟨c', hc, same⟩ := Option.bind_eq_some_iff.mp reached
  obtain rfl := Option.some.inj same
  obtain ⟨s, d', before, after, node, found'⟩ := site?_behind (alike_of_namespace isNamespace) hm hc
    lt (fun k x low high hx scope => scope.behind_of_body (between k x low high hx)) found
  rw [Scope.behind_other] at after
  have extended : d.scope = { s with namespaceName := qualify s.namespaceName name } := by
    rw [before, Scope.behind, if_pos ⟨isNamespace, fileScoped⟩, named]
    rfl
  obtain ⟨ident, identifier, -⟩ := display_of_site? found
  have top : s.enclosing = [] := by
    rw [extended] at outside
    exact outside
  refine ⟨s.namespaceName, ident, identifier, ?_, ?_⟩
  · rw [display_of_namespace found outside identifier, extended]
  · have display := display_of_namespace found' (after ▸ top) (node ▸ identifier)
    rw [after, node] at display
    rw [nameAt?, ← display]
    exact congrArg _ found'

end Declaration

namespace Binder

open Declaration

/-- What is declared at a path is found at the symbol of its name. -/
theorem symbol_of_nameAt? {files : List ParsedFile} {file : ParsedFile} {tree : Nat}
    {path : List Nat} {name : String} (hfile : files[tree]? = some file)
    (named : nameAt? file tree path = some name) :
    ∃ id s n, (bind files).symbol? id = some s ∧ s.displayName = name ∧
      file.tree.root.descend? path = some n ∧ SyntaxRef.ofNode tree n ∈ s.declared := by
  obtain ⟨d, found, rfl⟩ := Option.map_eq_some_iff.mp named
  obtain ⟨ofTree, node, -⟩ := node_of_site? found
  have located := mem_located_iff.mpr ⟨file, ofTree ▸ hfile, ofTree ▸ found⟩
  have hd : d ∈ ofFiles files := map_located files ▸ List.mem_map_of_mem located
  obtain ⟨id, entered⟩ := ((entered_declareFiles files).names d.display).mpr ⟨d, hd, rfl⟩
  obtain ⟨s, symbol, display⟩ := SymbolTable.nameOf?_eq_some_iff.mp
    ((grows_bind files).keepsNames _ _ entered)
  refine ⟨id, s, d.node, symbol, display, node, ?_⟩
  rw [declared_of_bind symbol, display, placesOf, ← ofTree]
  exact List.mem_map_of_mem (List.mem_filter.mpr ⟨hd, beq_self_eq_true _⟩)

/-- A namespace declaration without a `;` among its tokens, such as one with a body in braces, gives
a name to nothing outside of it. One with a `;` comes in front of the names of the siblings behind
it, up to the next of its kind. -/
theorem reach_of_namespace (file : ParsedFile) (tree : Nat) {q : List Nat} {c : SyntaxNode}
    (reached : file.tree.root.descend? q = some c) (isNamespace : c.kind = .namespaceDeclaration) :
    (c.isFileScoped = false → ∀ path, ¬ q <+: path →
      nameAt? (file.without q) tree path = nameAt? file tree path) ∧
    (c.isFileScoped = true → ∀ name, c.identifier? = some name → ∀ path d,
      SiblingBehind file q path → siteIn? file tree path = some d → d.scope.enclosing = [] →
      ∃ ns ident, d.node.identifier? = some ident ∧
        d.display = qualify (qualify ns name) ident ++ d.node.typeParameters ∧
        nameAt? (file.without q) tree path = some (qualify ns ident ++ d.node.typeParameters)) ∧
    ∀ files : List ParsedFile, files[tree]? = some file → ∀ path name,
      nameAt? file tree path = some name →
      ∃ id s n, (bind files).symbol? id = some s ∧ s.displayName = name ∧
        file.tree.root.descend? path = some n ∧ SyntaxRef.ofNode tree n ∈ s.declared :=
  ⟨fun body _ => nameAt?_without reached isNamespace body,
    fun fileScoped _ named _ _ behind found =>
      display_behind_namespace reached isNamespace fileScoped named behind found,
    fun _ hfile _ _ => symbol_of_nameAt? hfile⟩

/-- A namespace with a body in braces and tokens behind it, and a class behind the namespace. -/
def shopAndCrate (ending : List SyntaxNode) : ParsedFile where
  tree :=
    { path := "Shop.cs"
      root :=
        { kind := .compilationUnit
          children := [
            { kind := .namespaceDeclaration
              name := some "Shop"
              span := { startByte := 0, endByte := 33 }
              children := [
                { kind := .token, name := some "namespace" },
                { kind := .token, name := some "Shop" },
                { kind := .other
                  children := [
                    { kind := .token, name := some "\x7b" },
                    { kind := .classDeclaration
                      name := some "Order"
                      span := { startByte := 17, endByte := 30 } },
                    { kind := .token, name := some "\x7d" }] }] ++ ending },
            { kind := .classDeclaration
              name := some "Crate"
              span := { startByte := 34, endByte := 47 } }] } }

theorem reach_of_namespace_shopAndCrate :
    nameAt? ((shopAndCrate []).without [0]) 0 [1] = some "Crate" ∧
      nameAt? (shopAndCrate []) 0 [1] = some "Crate" ∧
      ∃ id s, (bind [shopAndCrate []]).symbol? id = some s ∧ s.displayName = "Crate" ∧
        ⟨0, 34, 47⟩ ∈ s.declared := by
  obtain ⟨outside, -, symbols⟩ := reach_of_namespace (shopAndCrate []) 0 (q := [0]) rfl rfl
  have alone : nameAt? ((shopAndCrate []).without [0]) 0 [1] = some "Crate" := by decide +kernel
  have named := (outside (by decide) [1] (by decide)).symm.trans alone
  obtain ⟨id, s, n, found, display, node, place⟩ := symbols [shopAndCrate []] rfl [1] "Crate" named
  obtain rfl := Option.some.inj node
  exact ⟨alone, named, id, s, found, display, place⟩

/-- With a `;` behind the braces the namespace holds for the class behind it. -/
theorem shopAndCrate_semicolon :
    let file := shopAndCrate [{ kind := .token, name := some ";" }]
    (∃ c, file.tree.root.descend? [0] = some c ∧ c.kind = .namespaceDeclaration ∧ c.hasBracedBody) ∧
      ((bind [file]).symbol? 1).map (fun s => (s.displayName, s.declared)) =
        some ("Shop.Crate", [⟨0, 34, 47⟩]) ∧
      nameAt? file 0 [1] = some "Shop.Crate" ∧ nameAt? (file.without [0]) 0 [1] = some "Crate" := by
  refine ⟨⟨_, rfl, rfl, ?_⟩, ?_, ?_, ?_⟩ <;> decide +kernel

end Binder
end Antipattern
