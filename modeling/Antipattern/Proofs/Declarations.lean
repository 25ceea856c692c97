import Antipattern.Binding.Binder
import Antipattern.Proofs.TableNames

/-!
The first pass. It enters the type declarations of all files one after the other, so the table that
it leaves can be read off their list: a symbol for each display name, with the kind of the first
declaration and the places of all of them in order.
-/

namespace Antipattern

namespace Scope

/-- The scope inside a node; none if nothing below it is declared. -/
def inside? (scope : Scope) (n : SyntaxNode) : Option Scope :=
  if n.kind = .namespaceDeclaration then
    n.identifier?.map fun name =>
      let qualified := qualify scope.namespaceName name
      if n.isFileScoped then { scope with namespaceName := qualified }
      else { namespaceName := qualified, usings := scope.usings }
  else if n.kind.isTypeDeclaration then
    n.identifier?.map fun name =>
      { scope with enclosing := scope.enclosing ++ [Binder.displayNameIn scope name n] }
  else if n.kind = .token then none
  else some scope

/-- The scope of the siblings behind a node. -/
def behind (scope : Scope) (n : SyntaxNode) : Scope :=
  if n.kind = .namespaceDeclaration ∧ n.isFileScoped then
    n.identifier?.elim scope fun name =>
      { scope with namespaceName := qualify scope.namespaceName name }
  else scope

end Scope

/-- A type declaration with the display name it gets. -/
structure Declaration where
  display : String
  tree : Nat
  node : SyntaxNode
  scope : Scope

namespace Declaration

def place (d : Declaration) : SyntaxRef :=
  .ofNode d.tree d.node

def isGeneric (d : Declaration) : Bool :=
  d.display.toList.contains '<'

/-- The name by which references with type arguments find the declaration. -/
def key (d : Declaration) : String :=
  withoutTypeArgs d.display

/-- What a node in a scope declares. -/
def at? (tree : Nat) (scope : Scope) (n : SyntaxNode) : Option Declaration :=
  if n.kind.isTypeDeclaration then
    n.identifier?.map fun name => ⟨Binder.displayNameIn scope name n, tree, n, scope⟩
  else none

theorem at?_eq_some {tree : Nat} {scope : Scope} {n : SyntaxNode} {d : Declaration}
    (h : at? tree scope n = some d) :
    n.kind.isTypeDeclaration ∧ ∃ name, n.identifier? = some name ∧
      d = ⟨Binder.displayNameIn scope name n, tree, n, scope⟩ := by
  rw [at?] at h
  split at h
  · next isType =>
      obtain ⟨name, named, rfl⟩ := Option.map_eq_some_iff.mp h
      exact ⟨isType, name, named, rfl⟩
  · simp at h

mutual
/-- The type declarations below a node in document order. -/
def below (tree : Nat) : SyntaxNode → Scope → List Declaration
  | ⟨_, _, _, _, _, _, children⟩, scope => among tree children scope

def among (tree : Nat) : List SyntaxNode → Scope → List Declaration
  | [], _ => []
  | n :: rest, scope =>
      (at? tree scope n).toList ++ ((scope.inside? n).elim [] (below tree n) ++
        among tree rest (scope.behind n))
end

/-- The type declarations of all files, by file and in document order. -/
def ofFiles (files : List ParsedFile) : List Declaration :=
  files.zipIdx.flatMap fun (file, index) => below index file.tree.root { usings := file.usings }

/-- The kind that a type has by its first declaration. -/
def kindOf (ds : List Declaration) (name : String) : TypeKind :=
  ((ds.find? (·.display == name)).map fun d => TypeKind.ofNodeKind d.node.kind).getD .unresolved

/-- The places that declare a type. -/
def placesOf (ds : List Declaration) (name : String) : List SyntaxRef :=
  (ds.filter (·.display == name)).map place

end Declaration

namespace Binder

def enter (b : Binder) (d : Declaration) : Binder :=
  b.register d.tree d.node d.display d.scope

mutual
theorem declareBelow_eq (tree : Nat) : (n : SyntaxNode) → (scope : Scope) → (b : Binder) →
    declareBelow tree n scope b = (Declaration.below tree n scope).foldl enter b
  | ⟨_, _, _, _, _, _, children⟩, scope, b => declareAmong_eq tree children scope b

theorem declareAmong_eq (tree : Nat) : (ns : List SyntaxNode) → (scope : Scope) → (b : Binder) →
    declareAmong tree ns scope b = (Declaration.among tree ns scope).foldl enter b
  | [], _, _ => rfl
  | n :: rest, scope, b => by
      have inside (inner : Scope) (b : Binder) := declareBelow_eq tree n inner b
      have behind (scope : Scope) (b : Binder) := declareAmong_eq tree rest scope b
      rw [declareAmong, Declaration.among, List.foldl_append, List.foldl_append]
      simp only [Declaration.at?, Scope.inside?, Scope.behind]
      by_cases isNamespace : n.kind = .namespaceDeclaration
      · cases n.identifier? with
        | none => simp [isNamespace, behind]
        | some name =>
            cases n.isFileScoped <;>
              simp [isNamespace, NodeKind.isTypeDeclaration, inside, behind]
      · by_cases isType : n.kind.isTypeDeclaration
        · cases n.identifier? <;> simp [isNamespace, isType, enter, inside, behind]
        · by_cases isToken : n.kind = .token
          · simp [isToken, NodeKind.isTypeDeclaration, behind]
          · simp [isNamespace, isType, isToken, inside, behind]
end

theorem declareFiles_eq (files : List ParsedFile) :
    declareFiles files = (Declaration.ofFiles files).foldl enter {} := by
  rw [declareFiles, Declaration.ofFiles, List.foldl_flatMap]
  congr 1
  funext b x
  exact declareBelow_eq x.2 x.1.tree.root _ b

/-- The symbol of a declared type after the first pass. -/
def declaredSymbol (ds : List Declaration) (name : String) (id : Nat) : TypeSymbol :=
  { id, name := simpleName name, displayName := name, kind := Declaration.kindOf ds name
    special := SpecialType.ofName name, declared := Declaration.placesOf ds name }

/-- What the first pass has done after some declarations. -/
structure Entered (ds : List Declaration) (b : Binder) : Prop where
  distinct : b.table.Distinct
  names : ∀ name, (∃ id, b.table.nameOf? id = some name) ↔ ∃ d ∈ ds, d.display = name
  symbols : ∀ id s, b.table.symbol? id = some s → s = declaredSymbol ds s.displayName id
  places : b.table.declarations.map (fun x => (x.1, b.table.nameOf? x.2)) =
    ds.reverse.map fun d => (d.place, some d.display)
  generics : b.generics.map (fun x => (x.1, b.table.nameOf? x.2)) =
    (ds.filter Declaration.isGeneric).reverse.map fun d => (d.key, some d.display)
  declared : b.declared.map (fun x => ((x.tree, x.node, x.scope), b.table.nameOf? x.id)) =
    ds.map fun d => ((d.tree, d.node, d.scope), some d.display)

theorem entered_nil : Entered [] {} where
  distinct := SymbolTable.distinct_empty
  names := by simp [SymbolTable.nameOf?, SymbolTable.symbol?]
  symbols := by simp [SymbolTable.symbol?]
  places := rfl
  generics := rfl
  declared := rfl

section
variable {ds : List Declaration} {d : Declaration} {name : String}

theorem kindOf_append_of_declared (h : ∃ e ∈ ds, e.display = name) (d : Declaration) :
    Declaration.kindOf (ds ++ [d]) name = Declaration.kindOf ds name := by
  obtain ⟨e, he, rfl⟩ := h
  have found : (ds.find? (·.display == e.display)).isSome = true :=
    List.find?_isSome.mpr ⟨e, he, by simp⟩
  rw [Declaration.kindOf, List.find?_append, Option.or_of_isSome found]
  rfl

theorem kindOf_append_of_new (h : ¬ ∃ e ∈ ds, e.display = d.display) :
    Declaration.kindOf (ds ++ [d]) d.display = .ofNodeKind d.node.kind := by
  have none : ds.find? (·.display == d.display) = none := by
    rw [List.find?_eq_none]
    intro e he same
    exact h ⟨e, he, by simpa using same⟩
  rw [Declaration.kindOf, List.find?_append, none]
  simp

theorem placesOf_append (ds : List Declaration) (d : Declaration) (name : String) :
    Declaration.placesOf (ds ++ [d]) name =
      Declaration.placesOf ds name ++ if d.display = name then [d.place] else [] := by
  rw [Declaration.placesOf, List.filter_append, List.map_append]
  by_cases h : d.display = name <;> simp [h, Declaration.placesOf]

theorem placesOf_of_new (h : ¬ ∃ e ∈ ds, e.display = name) : Declaration.placesOf ds name = [] := by
  rw [Declaration.placesOf, List.map_eq_nil_iff, List.filter_eq_nil_iff]
  intro e he same
  exact h ⟨e, he, by simpa using same⟩

/-- One more declaration adds its place to the symbol of its name and nothing to others. -/
theorem declaredSymbol_append (h : ∃ e ∈ ds, e.display = name) (d : Declaration) (id : Nat) :
    declaredSymbol (ds ++ [d]) name id =
      { declaredSymbol ds name id with
        declared := Declaration.placesOf ds name ++ if d.display = name then [d.place] else [] } := by
  rw [declaredSymbol, kindOf_append_of_declared h, placesOf_append]
  rfl

theorem declaredSymbol_append_new (h : ¬ ∃ e ∈ ds, e.display = d.display) (t : SymbolTable) :
    declaredSymbol (ds ++ [d]) d.display t.symbols.size =
      { t.newSymbol d.display (.ofNodeKind d.node.kind) with declared := [d.place] } := by
  rw [declaredSymbol, kindOf_append_of_new h, placesOf_append, placesOf_of_new h, if_pos rfl]
  rfl

end

theorem Entered.symbols_enter {ds : List Declaration} {b : Binder} (h : Entered ds b)
    (d : Declaration) (id : Nat) (s : TypeSymbol) (hs : (b.enter d).table.symbol? id = some s) :
    s = declaredSymbol (ds ++ [d]) s.displayName id := by
  let grown := b.table.addType d.display (.ofNodeKind d.node.kind)
  have table : (b.enter d).table = grown.2.addDeclaration grown.1 d.place := rfl
  -- A symbol that was there before belongs to an earlier declaration.
  have old : ∀ s, b.table.symbol? id = some s →
      b.table.nameOf? id = some s.displayName ∧ declaredSymbol (ds ++ [d]) s.displayName id =
        { s with declared := s.declared ++ if d.display = s.displayName then [d.place] else [] } := by
    intro s hs
    have named := SymbolTable.nameOf?_eq_some_iff.mpr ⟨s, hs, rfl⟩
    refine ⟨named, ?_⟩
    rw [declaredSymbol_append ((h.names _).mp ⟨id, named⟩), h.symbols id s hs]
    rfl
  rw [table, SymbolTable.symbol?_addDeclaration] at hs
  cases known : b.table.lookup? d.display with
  | some j =>
      have same : grown = (j, b.table) := SymbolTable.addType_of_known known _
      have named := SymbolTable.nameOf?_of_lookup? known
      rw [same] at hs
      split at hs
      · next eq =>
          obtain ⟨s, found, rfl⟩ := Option.map_eq_some_iff.mp hs
          obtain ⟨name, eqn⟩ := old s found
          simp only at eq
          subst eq
          have : d.display = s.displayName := by simpa [named] using name
          simp [eqn, this]
      · next ne =>
          obtain ⟨name, eqn⟩ := old s hs
          have : d.display ≠ s.displayName := by
            intro eq
            exact ne (h.distinct j id _ named (eq ▸ name))
          simp [eqn, this]
  | none =>
      have absent := SymbolTable.lookup?_eq_none_iff.mp known
      have new : ¬ ∃ e ∈ ds, e.display = d.display := by
        intro declared
        obtain ⟨j, named⟩ := (h.names _).mpr declared
        exact absent j named
      have same : grown.1 = b.table.symbols.size :=
        congrArg Prod.fst (SymbolTable.addType_of_new known _)
      rw [same, SymbolTable.symbol?_addType] at hs
      split at hs
      · next eq =>
          subst eq
          simp only [known, and_self, if_true, Option.map_some, Option.some.injEq] at hs
          subst hs
          exact (declaredSymbol_append_new new b.table).symm
      · next ne =>
          rw [if_neg fun both => ne both.2.symm] at hs
          obtain ⟨name, eqn⟩ := old s hs
          have : d.display ≠ s.displayName := by
            intro eq
            exact absent id (eq ▸ name)
          simp [eqn, this]

theorem Entered.enter {ds : List Declaration} {b : Binder} (h : Entered ds b) (d : Declaration) :
    Entered (ds ++ [d]) (b.enter d) := by
  let grown := b.table.addType d.display (.ofNodeKind d.node.kind)
  have table : (b.enter d).table = grown.2.addDeclaration grown.1 d.place := rfl
  have nameOf : ∀ id, (b.enter d).table.nameOf? id = grown.2.nameOf? id :=
    SymbolTable.nameOf?_addDeclaration _ _ _
  have self : (b.enter d).table.nameOf? grown.1 = some d.display :=
    (nameOf _).trans (SymbolTable.nameOf?_addType_self _ _ _)
  have keeps : b.table.KeepsNames (b.enter d).table := by
    intro id name hn
    exact (nameOf id).trans (SymbolTable.keepsNames_addType _ _ _ id name hn)
  refine ⟨?_, ?_, h.symbols_enter d, ?_, ?_, ?_⟩
  · intro i j name hi hj
    rw [nameOf] at hi hj
    exact h.distinct.addType _ _ i j name hi hj
  · intro name
    constructor
    · rintro ⟨id, hn⟩
      rw [nameOf] at hn
      rcases SymbolTable.nameOf?_addType.mp hn with old | ⟨-, -, rfl⟩
      · obtain ⟨e, he, eq⟩ := (h.names name).mp ⟨id, old⟩
        exact ⟨e, List.mem_append_left _ he, eq⟩
      · exact ⟨d, by simp, rfl⟩
    · rintro ⟨e, he, rfl⟩
      rcases List.mem_append.mp he with he | he
      · obtain ⟨id, hn⟩ := (h.names _).mpr ⟨e, he, rfl⟩
        exact ⟨id, keeps _ _ hn⟩
      · obtain rfl := List.mem_singleton.mp he
        exact ⟨_, self⟩
  · have old := keeps.map_named h.places
    rw [table, SymbolTable.declarations_addDeclaration, ← table, List.map_cons, self,
      SymbolTable.declarations_addType, old]
    simp
  · have old := keeps.map_named h.generics
    have generics : (b.enter d).generics =
        if d.isGeneric then (d.key, grown.1) :: b.generics else b.generics := rfl
    rw [generics, List.filter_append]
    cases isGeneric : d.isGeneric <;> simp [isGeneric, self, old]
  · have old := keeps.map_named h.declared
    have declared : (b.enter d).declared = b.declared ++ [⟨grown.1, d.tree, d.node, d.scope⟩] := rfl
    rw [declared, List.map_append, List.map_append, old]
    simp [self]

theorem Entered.foldl {earlier : List Declaration} (ds : List Declaration) {b : Binder}
    (h : Entered earlier b) : Entered (earlier ++ ds) (ds.foldl Binder.enter b) := by
  induction ds generalizing earlier b with
  | nil => simpa using h
  | cons d ds ih => simpa using ih (h.enter d)

theorem entered_declareFiles (files : List ParsedFile) :
    Entered (Declaration.ofFiles files) (declareFiles files) := by
  rw [declareFiles_eq]
  exact entered_nil.foldl (Declaration.ofFiles files)

end Binder
end Antipattern
