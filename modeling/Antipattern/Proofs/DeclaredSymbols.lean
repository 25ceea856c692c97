import Antipattern.Proofs.QualifiedNames
import Antipattern.Proofs.SecondPass

/-!
The declared symbols of a program. Every type declaration has one place, and the places are
shared out over the symbols by qualified name, in the order of the files and of the text.
-/

namespace Antipattern

namespace Binder

open SymbolTable (Grows)

theorem grows_finish (t : SymbolTable) : Grows t t.finish where
  kept {id s} found := by
    rw [SymbolTable.symbol?_finish, found]
    exact ⟨_, rfl, ⟨rfl, rfl, rfl, rfl, rfl, rfl⟩⟩
  new {id s} none found := by simp [SymbolTable.symbol?_finish, none] at found
  declarations := rfl
  distinct h := by
    intro i j name hi hj
    rw [SymbolTable.nameOf?_finish] at hi hj
    exact h i j name hi hj

theorem edits_defaultBase (generics : List (String × Nat)) (object : Nat) (d : Declared)
    (t : SymbolTable) : SymbolTable.Edits generics t (defaultBase object d t) := by
  rw [defaultBase]
  split
  · split
    · split
      · exact SymbolTable.Edits.refl.setBase _ _
      · exact .refl
    · exact .refl
  · exact .refl

/-- All that happens between the first pass and the finishing of the table are edits. -/
theorem edits_bind (files : List ParsedFile) :
    ∃ t, SymbolTable.Edits (declareFiles files).generics (declareFiles files).table t ∧
      bind files = t.finish := by
  have resolved := (resolves_foldl (declareFiles files).declared (declareFiles files)).edited.edits
  rw [bind]
  refine ⟨_, resolved.trans ?_, rfl⟩
  split
  · next object t taken =>
      exact (Catalog.edits_ensure? _ taken).trans
        (.foldl (fun t d => edits_defaultBase _ object d t) _ t)
  · exact .refl

/-- All that happens after the first pass leaves its symbols what they are. -/
theorem grows_bind (files : List ParsedFile) : Grows (declareFiles files).table (bind files) := by
  obtain ⟨t, edits, finished⟩ := edits_bind files
  rw [finished]
  exact edits.writes.grows.trans (grows_finish t)

section
variable {files : List ParsedFile}

theorem distinct_bind (files : List ParsedFile) : (bind files).Distinct :=
  (grows_bind files).distinct (entered_declareFiles files).distinct

theorem declared_of_bind {id : Nat} {s : TypeSymbol} (h : (bind files).symbol? id = some s) :
    s.declared = Declaration.placesOf (Declaration.ofFiles files) s.displayName := by
  cases first : (declareFiles files).table.symbol? id with
  | some old =>
      obtain ⟨s', found, same⟩ := (grows_bind files).kept first
      obtain rfl := Option.some.inj (found.symm.trans h)
      rw [same.declared, same.displayName, (entered_declareFiles files).symbols id old first]
      rfl
  | none =>
      -- The name of a later symbol is not declared, since names are distinct.
      rw [(grows_bind files).new first h, placesOf_of_new]
      intro declared
      obtain ⟨j, named⟩ := ((entered_declareFiles files).names _).mpr declared
      have later := SymbolTable.nameOf?_eq_some_iff.mpr ⟨s, h, rfl⟩
      have same := distinct_bind files j id _ ((grows_bind files).keepsNames j _ named) later
      rw [same, SymbolTable.nameOf?, first] at named
      simp at named

theorem declarations_bind (files : List ParsedFile) :
    (bind files).declarations.map (fun x => (x.1, (bind files).nameOf? x.2)) =
      (Declaration.ofFiles files).reverse.map fun d => (d.place, some d.display) := by
  rw [(grows_bind files).declarations]
  exact (grows_bind files).keepsNames.map_named (entered_declareFiles files).places

theorem declaredAt?_isSome {d : Declaration} (hd : d ∈ Declaration.ofFiles files) :
    ((bind files).declaredAt? d.place).isSome := by
  have listed := List.mem_map_of_mem (f := fun d => (Declaration.place d, some d.display))
    (List.mem_reverse.mpr hd)
  rw [← declarations_bind] at listed
  obtain ⟨x, hx, same⟩ := List.mem_map.mp listed
  exact List.lookup_isSome_iff.mpr ⟨x, hx, beq_iff_eq.mpr (congrArg Prod.fst same).symm⟩

theorem declaration_of_declaredAt? {place : SyntaxRef} {id : Nat}
    (h : (bind files).declaredAt? place = some id) :
    ∃ d ∈ Declaration.ofFiles files, d.place = place ∧
      (bind files).nameOf? id = some d.display := by
  have listed := List.mem_map_of_mem (f := fun x => (x.1, (bind files).nameOf? x.2))
    (mem_of_lookup h)
  rw [declarations_bind] at listed
  obtain ⟨d, hd, same⟩ := List.mem_map.mp listed
  exact ⟨d, List.mem_reverse.mp hd, congrArg Prod.fst same, (congrArg Prod.snd same).symm⟩

end

end Binder

/-- A node of a program by its tree and the child positions that lead to it. -/
structure TypeSite where
  tree : Nat
  path : List Nat
  node : SyntaxNode

namespace TypeSite

def place (x : TypeSite) : SyntaxRef :=
  .ofNode x.tree x.node

/-- By file, and then in document order. -/
def Before (x y : TypeSite) : Prop :=
  x.tree < y.tree ∨ x.tree = y.tree ∧ List.Lex (· < ·) x.path y.path

end TypeSite

/-- A type declaration of a program with its qualified name. -/
def Program.Declares (p : Program) (x : TypeSite) (name : String) : Prop :=
  ∃ t c outer, p.trees[x.tree]? = some t ∧ t.root.trail? [] x.path = some (c :: outer) ∧
    Crumb.DeclaresType c outer ∧ c.node = x.node ∧ Crumb.qualifiedName c outer = name

namespace Declaration

variable {files : List ParsedFile} {path path' : List Nat} {d d' : Declaration}

theorem descends_start {file : ParsedFile} (regular : file.tree.root.Regular) :
    Descends file.tree.root { usings := file.usings } [] :=
  ⟨regular, Scope.fits_start file.usings, fun around => absurd rfl around⟩

theorem declares_of_mem_located (regular : ∀ file ∈ files, file.tree.root.Regular)
    (h : (path, d) ∈ located files) :
    (Program.ofFiles files).Declares ⟨d.tree, path, d.node⟩ d.display := by
  obtain ⟨file, hfile, found⟩ := mem_located_iff.mp h
  have start := descends_start (regular file (List.mem_of_getElem? hfile))
  obtain ⟨c, outer, trail, declares, node, -, name⟩ := trail_of_site? start (by simp) found
  refine ⟨file.tree, c, outer, ?_, trail, declares, node.symm, name.symm⟩
  rw [Program.ofFiles, List.getElem?_map, hfile, Option.map_some]

theorem exists_located (regular : ∀ file ∈ files, file.tree.root.Regular) {x : TypeSite}
    {name : String} (h : (Program.ofFiles files).Declares x name) :
    ∃ d, (x.path, d) ∈ located files ∧ d.tree = x.tree ∧ d.node = x.node ∧ d.display = name := by
  obtain ⟨t, c, outer, ht, trail, declares, node, rfl⟩ := h
  rw [Program.ofFiles, List.getElem?_map, Option.map_eq_some_iff] at ht
  obtain ⟨file, hfile, rfl⟩ := ht
  have start := descends_start (regular file (List.mem_of_getElem? hfile))
  have nonempty : x.path ≠ [] := by
    intro empty
    simp [empty, SyntaxNode.trail?] at trail
  obtain ⟨d, found, same⟩ := site?_of_trail x.tree start trail nonempty declares
  obtain ⟨c', outer', trail', -, -, tree, name⟩ := trail_of_site? start (by simp) found
  obtain ⟨rfl, rfl⟩ := List.cons.inj (Option.some.inj (trail.symm.trans trail'))
  exact ⟨d, mem_located_iff.mpr ⟨file, tree ▸ hfile, tree ▸ found⟩, tree, same.trans node, name⟩

theorem eq_of_place (apart : ∀ file ∈ files, file.tree.root.SpansApart)
    (h : (path, d) ∈ located files) (h' : (path', d') ∈ located files)
    (same : d.place = d'.place) : path = path' ∧ d = d' := by
  obtain ⟨file, hfile, found⟩ := mem_located_iff.mp h
  obtain ⟨file', hfile', found'⟩ := mem_located_iff.mp h'
  obtain ⟨tree, start, stop⟩ := SyntaxRef.mk.inj same
  rw [← tree, hfile] at hfile'
  obtain rfl := Option.some.inj hfile'
  obtain ⟨-, node, isType⟩ := node_of_site? found
  obtain ⟨-, node', isType'⟩ := node_of_site? found'
  obtain rfl := (apart file (List.mem_of_getElem? hfile)).path_eq node node' isType isType' start stop
  rw [← tree, found] at found'
  exact ⟨rfl, Option.some.inj found'⟩

theorem places_nodup (apart : ∀ file ∈ files, file.tree.root.SpansApart) :
    ((ofFiles files).map place).Nodup := by
  rw [← map_located, List.map_map, List.Nodup, List.pairwise_map]
  refine (located_ordered files).imp_of_mem ?_
  rintro ⟨path, d⟩ ⟨path', d'⟩ h h' before same
  obtain ⟨rfl, rfl⟩ := eq_of_place apart h h' same
  rcases before with lt | ⟨-, lt⟩
  · exact Nat.lt_irrefl _ lt
  · exact absurd lt (List.lex_irrefl (fun a => Nat.lt_irrefl a) _)

theorem exists_path (hd : d ∈ ofFiles files) : ∃ path, (path, d) ∈ located files := by
  rw [← map_located] at hd
  obtain ⟨⟨path, d⟩, h, rfl⟩ := List.mem_map.mp hd
  exact ⟨path, h⟩

/-- The sites that declare a name, in order. -/
theorem placesOf_eq (files : List ParsedFile) (name : String) :
    placesOf (ofFiles files) name =
      ((located files).filter fun x => x.2.display == name).map fun x => x.2.place := by
  rw [placesOf, ← map_located, List.filter_map, List.map_map]
  rfl

end Declaration

open Declaration

namespace Binder

variable {files : List ParsedFile} {path : List Nat} {d : Declaration}

theorem symbol_of_declaration (apart : ∀ file ∈ files, file.tree.root.SpansApart)
    (h : (path, d) ∈ located files) :
    ∃ id s, (bind files).declaredAt? d.place = some id ∧ (bind files).symbol? id = some s ∧
      s.displayName = d.display := by
  have hd : d ∈ ofFiles files := map_located files ▸ List.mem_map_of_mem h
  obtain ⟨id, found⟩ := Option.isSome_iff_exists.mp (declaredAt?_isSome hd)
  obtain ⟨e, he, same, named⟩ := declaration_of_declaredAt? found
  obtain ⟨path', h'⟩ := exists_path he
  obtain ⟨-, rfl⟩ := eq_of_place apart h h' same.symm
  obtain ⟨s, symbol, name⟩ := SymbolTable.nameOf?_eq_some_iff.mp named
  exact ⟨id, s, found, symbol, name⟩

/-- A place is listed once, by the symbol of its declaration's name. -/
theorem count_place (apart : ∀ file ∈ files, file.tree.root.SpansApart)
    (h : (path, d) ∈ located files) {id : Nat} {s : TypeSymbol}
    (found : (bind files).symbol? id = some s) :
    s.declared.count d.place = if s.displayName = d.display then 1 else 0 := by
  have listed : d.place ∈ s.declared ↔ s.displayName = d.display := by
    rw [declared_of_bind found, placesOf_eq]
    simp only [List.mem_map, List.mem_filter, beq_iff_eq]
    constructor
    · rintro ⟨⟨path', e⟩, ⟨h', name⟩, same⟩
      obtain ⟨-, rfl⟩ := eq_of_place apart h h' same.symm
      exact name.symm
    · intro name
      exact ⟨(path, d), ⟨h, name.symm⟩, rfl⟩
  have once : s.declared.Nodup := by
    rw [declared_of_bind found]
    exact (places_nodup apart).sublist (List.filter_sublist.map place)
  rw [once.count]
  simp only [listed]

end Binder

theorem Program.symbol_of_declares {files : List ParsedFile}
    (regular : ∀ file ∈ files, file.tree.root.Regular)
    (apart : ∀ file ∈ files, file.tree.root.SpansApart) {x : TypeSite} {name : String}
    (declares : (ofFiles files).Declares x name) :
    ∃ id s, (ofFiles files).symbols.declaredAt? x.place = some id ∧
      (ofFiles files).symbols.symbol? id = some s ∧ s.displayName = name ∧
      ∀ j s', (ofFiles files).symbols.symbol? j = some s' →
        s'.declared.count x.place = if j = id then 1 else 0 := by
  obtain ⟨d, h, tree, node, rfl⟩ := exists_located regular declares
  have place : x.place = d.place := by rw [TypeSite.place, ← tree, ← node]; rfl
  obtain ⟨id, s, at', found, name⟩ := Binder.symbol_of_declaration apart h
  refine ⟨id, s, place ▸ at', found, name, fun j s' found' => ?_⟩
  rw [place, Binder.count_place apart h found']
  have same : s'.displayName = d.display ↔ j = id := by
    constructor
    · intro name'
      have named := SymbolTable.nameOf?_eq_some_iff.mpr ⟨s, found, name⟩
      have named' := SymbolTable.nameOf?_eq_some_iff.mpr ⟨s', found', name'⟩
      exact Binder.distinct_bind files j id _ named' named
    · rintro rfl
      obtain rfl := Option.some.inj (found.symm.trans found')
      exact name
  simp only [same]

/-- Each type declaration is found at one symbol, that of its qualified name. Nothing else is
declared, but a node that takes up the same bytes as a declaration is taken for it. -/
theorem Program.declared_symbols (files : List ParsedFile)
    (regular : ∀ file ∈ files, file.tree.root.Regular)
    (apart : ∀ file ∈ files, file.tree.root.SpansApart) :
    (∀ x name, (ofFiles files).Declares x name →
      ∃ id s, (ofFiles files).symbols.declaredAt? x.place = some id ∧
        (ofFiles files).symbols.symbol? id = some s ∧ s.displayName = name ∧
        ∀ j s', (ofFiles files).symbols.symbol? j = some s' →
          s'.declared.count x.place = if j = id then 1 else 0) ∧
    (∀ id s, (ofFiles files).symbols.symbol? id = some s →
      ∃ sites : List TypeSite, s.declared = sites.map TypeSite.place ∧
        sites.Pairwise TypeSite.Before ∧
        ∀ x ∈ sites, (ofFiles files).Declares x s.displayName) ∧
    (∀ place id, (ofFiles files).symbols.declaredAt? place = some id ↔
      ∃ x s, (ofFiles files).Declares x s.displayName ∧ x.place = place ∧
        (ofFiles files).symbols.symbol? id = some s) := by
  refine ⟨fun x name => symbol_of_declares regular apart, fun id s found => ?_,
    fun place id => ⟨fun found => ?_, ?_⟩⟩
  · refine ⟨((located files).filter fun x => x.2.display == s.displayName).map fun x =>
      ⟨x.2.tree, x.1, x.2.node⟩, ?_, ?_, ?_⟩
    · rw [Binder.declared_of_bind found, placesOf_eq, List.map_map]
      rfl
    · rw [List.pairwise_map]
      exact (located_ordered files).filter _
    · intro x hx
      obtain ⟨⟨path, d⟩, h, rfl⟩ := List.mem_map.mp hx
      obtain ⟨h, name⟩ := List.mem_filter.mp h
      rw [← beq_iff_eq.mp name]
      exact declares_of_mem_located regular h
  · obtain ⟨d, hd, rfl, named⟩ := Binder.declaration_of_declaredAt? found
    obtain ⟨path, h⟩ := exists_path hd
    obtain ⟨s, symbol, name⟩ := SymbolTable.nameOf?_eq_some_iff.mp named
    exact ⟨⟨d.tree, path, d.node⟩, s, name ▸ declares_of_mem_located regular h, rfl, symbol⟩
  · rintro ⟨x, s, declares, rfl, symbol⟩
    obtain ⟨id', s', found, symbol', name, -⟩ := symbol_of_declares regular apart declares
    have named := SymbolTable.nameOf?_eq_some_iff.mpr ⟨s, symbol, rfl⟩
    have named' := SymbolTable.nameOf?_eq_some_iff.mpr ⟨s', symbol', name⟩
    rw [Binder.distinct_bind files id id' _ named named', found]

/-- A generic class in two parts, the second in a namespace without a body and with a nested
class. -/
def Program.orderFiles : List ParsedFile := [
  { tree :=
      { path := "Order.cs"
        root :=
          { kind := .compilationUnit
            children := [
              { kind := .namespaceDeclaration
                name := some "Shop"
                children := [
                  { kind := .classDeclaration
                    span := { startByte := 17, endByte := 44 }
                    name := some "Order"
                    children := [{ kind := .typeParameterList, name := some "<T>" }] }] }] } } },
  { tree :=
      { path := "Order.Lines.cs"
        root :=
          { kind := .compilationUnit
            children := [
              { kind := .namespaceDeclaration
                name := some "Shop"
                children := [{ kind := .token, name := some ";" }] },
              { kind := .classDeclaration
                span := { startByte := 16, endByte := 60 }
                name := some "Order"
                children := [
                  { kind := .typeParameterList, name := some "< T >" },
                  { kind := .classDeclaration
                    span := { startByte := 45, endByte := 58 }
                    name := some "Line" }] }] } } }]

theorem Program.declared_symbols_orderFiles :
    ∃ id s, (ofFiles orderFiles).symbols.declaredAt? ⟨1, 45, 58⟩ = some id ∧
      (ofFiles orderFiles).symbols.symbol? id = some s ∧ s.displayName = "Shop.Order.Line" ∧
      ∀ j s', (ofFiles orderFiles).symbols.symbol? j = some s' →
        s'.declared.count ⟨1, 45, 58⟩ = if j = id then 1 else 0 :=
  (declared_symbols orderFiles (fun file _ => ⟨by revert file; decide, by revert file; decide⟩)
    (fun file _ => by revert file; decide)).1 ⟨1, [1, 1], _⟩ _
    ⟨_, _, _, rfl, rfl, ⟨rfl, rfl, by decide⟩, rfl, by decide⟩

/-- A file that holds a class and nothing around it, not even a line break. -/
def Program.classOnly : ParsedFile where
  tree :=
    { path := "A.cs"
      root :=
        { kind := .compilationUnit
          span := { startByte := 0, endByte := 9 }
          children := [
            { kind := .classDeclaration
              span := { startByte := 0, endByte := 9 }
              name := some "A"
              children := [
                { kind := .token, name := some "class", span := { startByte := 0, endByte := 5 } },
                { kind := .token, name := some "A", span := { startByte := 6, endByte := 7 } },
                { kind := .other
                  span := { startByte := 7, endByte := 9 }
                  children := [
                    { kind := .token, name := some "\x7b"
                      span := { startByte := 7, endByte := 8 } },
                    { kind := .token, name := some "\x7d"
                      span := { startByte := 8, endByte := 9 } }] }] }] } }

/-- Where a class takes up its whole file, the compilation unit is taken for the class. -/
theorem Program.unit_taken_for_class :
    let root := classOnly.tree.root
    root.Regular ∧ root.SpansApart ∧ (∀ name, ¬ (ofFiles [classOnly]).Declares ⟨0, [], root⟩ name) ∧
      ∃ id s, (ofFiles [classOnly]).symbols.declaredAt? (.ofNode 0 root) = some id ∧
        (ofFiles [classOnly]).symbols.symbol? id = some s ∧ s.displayName = "A" := by
  intro root
  refine ⟨⟨by decide, by decide⟩, by decide, ?_, ?_⟩
  · rintro name ⟨t, c, outer, -, trail, -⟩
    simp [SyntaxNode.trail?] at trail
  · have named : ((ofFiles [classOnly]).symbols.symbol? 0).map (·.displayName) = some "A" := by
      decide +kernel
    obtain ⟨s, found, name⟩ := Option.map_eq_some_iff.mp named
    exact ⟨0, s, by decide +kernel, found, name⟩

end Antipattern
