import Antipattern.Proofs.DeclaredSymbols
import Antipattern.Proofs.EndpointVerdict
import Antipattern.Proofs.InheritedInterfaces

/-!
Controllers in several parts. The endpoints of a controller are counted at its first declaration and
nowhere else. If that part is outside generated code they count once; if it is generated they do not
count at all, even where other parts are written by hand.
-/

namespace Antipattern

/-- A class declaration outside generated code. -/
structure Program.WritesClass (p : Program) (x : TypeSite) : Prop where
  node : ∃ t, p.trees[x.tree]? = some t ∧ t.root.descend? x.path = some x.node ∧
    ¬ t.GeneratedAt x.path
  kind : x.node.kind = .classDeclaration

theorem SyntaxTree.not_generatedAt {t : SyntaxTree} {path : List Nat} {n : SyntaxNode}
    (reached : t.root.descend? path = some n)
    (mark : t.root.markAt (t.generated || t.root.generated) path = false) :
    ¬ t.GeneratedAt path := by
  intro generated
  have place : (⟨path, n, false⟩ : Place) ∈ t.places :=
    SyntaxNode.mem_places_iff.mpr ⟨reached, mark.symm⟩
  cases (places_generated_iff place).mpr generated

/-- A controller that is first declared by a class declaration outside generated code. -/
structure Program.FirstWritten (cfg : Settings) (p : Program) (id : Nat) (s : TypeSymbol) :
    Prop where
  symbol : p.symbols.symbol? id = some s
  controller : p.symbols.isSubtypeOf (some id) (.named cfg.knownTypes.controller) = true
  first : ∃ x, p.WritesClass x ∧ s.declared.head? = some x.place

/-- Members with at least one attribute that provides a route. -/
def TypeSymbol.routed (cfg : Settings) (p : Program) (s : TypeSymbol) : Nat :=
  s.members.countP fun m =>
    ∃ a ∈ m.attributes, p.symbols.implements a.classId (.named cfg.knownTypes.routeProvider) = true

namespace Binder

variable {files : List ParsedFile}

/-- The symbol that lists a place is the one found there. -/
theorem declaredAt?_of_mem (apart : ∀ file ∈ files, file.tree.root.SpansApart) {id : Nat}
    {s : TypeSymbol} (hs : (bind files).symbol? id = some s) {place : SyntaxRef}
    (listed : place ∈ s.declared) : (bind files).declaredAt? place = some id := by
  rw [declared_of_bind hs, Declaration.placesOf_eq] at listed
  obtain ⟨⟨path, d⟩, h, rfl⟩ := List.mem_map.mp listed
  obtain ⟨h, name⟩ := List.mem_filter.mp h
  obtain ⟨j, s', found, hs', name'⟩ := symbol_of_declaration apart h
  have named := SymbolTable.nameOf?_eq_some_iff.mpr ⟨s, hs, (beq_iff_eq.mp name).symm⟩
  have named' := SymbolTable.nameOf?_eq_some_iff.mpr ⟨s', hs', name'⟩
  rw [found, distinct_bind files j id _ named' named]

end Binder

namespace ClassSite

variable {cfg : Settings} {files : List ParsedFile}

/-- The class with its position in the table. -/
def entry (p : Program) (x : ClassSite) : Nat × TypeSymbol :=
  ((p.symbols.declaredAt? x.ref).getD 0, x.symbol)

theorem Counts.symbol? {p : Program} {x : ClassSite} (h : x.Counts cfg p) :
    p.symbols.symbol? (x.entry p).1 = some x.symbol := by
  obtain ⟨id, declared, found, -⟩ := h.controller
  rw [entry, declared]
  exact found

/-- Where no two type declarations of a file share a span, a place leads to one node. -/
theorem Counts.eq_of_ref (apart : ∀ file ∈ files, file.tree.root.SpansApart) {x y : ClassSite}
    (hx : x.Counts cfg (.ofFiles files)) (hy : y.Counts cfg (.ofFiles files))
    (same : x.ref = y.ref) : x.tree = y.tree ∧ x.path = y.path := by
  obtain ⟨tree, start, stop⟩ := SyntaxRef.mk.inj same
  obtain ⟨t, ht, node, -⟩ := hx.shown
  obtain ⟨u, hu, node', -⟩ := hy.shown
  rw [← tree, ht] at hu
  obtain rfl := Option.some.inj hu
  rw [Program.ofFiles, List.getElem?_map, Option.map_eq_some_iff] at ht
  obtain ⟨file, hfile, rfl⟩ := ht
  have isType {n : SyntaxNode} (kind : n.kind = .classDeclaration) :
      n.kind.isTypeDeclaration = true := kind ▸ rfl
  exact ⟨tree, (apart file (List.mem_of_getElem? hfile)).path_eq node node' (isType hx.kind)
    (isType hy.kind) start stop⟩

theorem entries_nodup (apart : ∀ file ∈ files, file.tree.root.SpansApart) :
    (((ofProgram cfg (.ofFiles files)).map (entry (.ofFiles files))).map Prod.fst).Nodup := by
  rw [List.map_map, List.Nodup, List.pairwise_map]
  apply (ofProgram_apart cfg (.ofFiles files)).imp_of_mem
  intro x y hx hy different same
  have countsX := mem_ofProgram_iff.mp hx
  have countsY := mem_ofProgram_iff.mp hy
  have found := countsX.symbol?
  rw [show (x.entry _).1 = (y.entry _).1 from same, countsY.symbol?] at found
  have first := countsX.first
  rw [← Option.some.inj found, countsY.first] at first
  obtain ⟨tree, path⟩ := countsX.eq_of_ref apart countsY (Option.some.inj first).symm
  exact different.elim (fun ne => ne tree) fun ne => ne path

/-- The classes that count are the controllers that are first written outside generated code. -/
theorem mem_entries_iff (apart : ∀ file ∈ files, file.tree.root.SpansApart)
    (skipped : cfg.includeGenerated = false) {id : Nat} {s : TypeSymbol} :
    (id, s) ∈ (ofProgram cfg (.ofFiles files)).map (entry (.ofFiles files)) ↔
      Program.FirstWritten cfg (.ofFiles files) id s := by
  simp only [List.mem_map, mem_ofProgram_iff]
  constructor
  · rintro ⟨x, counts, same⟩
    obtain ⟨rfl, rfl⟩ := Prod.mk.inj same
    obtain ⟨j, declared, found, controller⟩ := counts.controller
    obtain ⟨t, ht, node, shown⟩ := counts.shown
    have written : ¬ t.GeneratedAt x.path := by simpa [skipped] using shown
    refine ⟨counts.symbol?, ?_, ⟨x.tree, x.path, x.node⟩, ⟨⟨t, ht, node, written⟩, counts.kind⟩,
      counts.first⟩
    rw [declared]
    exact controller
  · rintro ⟨found, controller, x, ⟨⟨t, ht, node, written⟩, kind⟩, first⟩
    have declared := Binder.declaredAt?_of_mem apart found (List.mem_of_head? first)
    exact ⟨⟨x.tree, x.path, x.node, s⟩, ⟨⟨t, ht, node, .inl written⟩, kind,
      ⟨id, declared, found, controller⟩, first⟩, Prod.ext (congrArg (·.getD 0) declared) rfl⟩

end ClassSite

namespace Runner

/-- The endpoints of a controller are counted once if its first declaration is outside generated
code, and otherwise not at all, whatever its other declarations are. -/
theorem controllers_counted (files : List ParsedFile)
    (apart : ∀ file ∈ files, file.tree.root.SpansApart) (cfg : Settings)
    (enabled : cfg.isEnabled Rule.nanoService.id = true) (skipped : cfg.includeGenerated = false)
    (mode : Mode) (finishes : (ofSettings cfg).Finishes (.ofFiles files) mode {}) :
    let p := Program.ofFiles files
    ∃ counted : List (Nat × TypeSymbol), (counted.map Prod.fst).Nodup ∧
      (∀ id s, (id, s) ∈ counted ↔ p.FirstWritten cfg id s) ∧
      ((ofSettings cfg).runIn p mode {}).2.endpoints =
        UInt64.ofNat (totalOf (fun c => c.2.routed cfg p) counted) := by
  intro p
  refine ⟨(ClassSite.ofProgram cfg p).map (ClassSite.entry p), ClassSite.entries_nodup apart,
    fun id s => ClassSite.mem_entries_iff apart skipped, ?_⟩
  obtain ⟨last, free, endpoints, run⟩ := runIn_eq_completed cfg p mode finishes
  have state := (completed p enabled free).1
  rw [totalOf_map, run, state]
  exact endpoints.trans (congrArg UInt64.ofNat (counted_total enabled p))

end Runner

/-- A controller in two parts, one of them generated. -/
def Program.ordersFiles (generatedFirst : Bool) : List ParsedFile :=
  let written : ParsedFile :=
    { usings := ["Microsoft.AspNetCore.Mvc"]
      tree :=
        { path := "Orders.cs"
          root :=
            { kind := .compilationUnit
              children := [
                { kind := .classDeclaration, span := { startByte := 32, endByte := 130 }
                  name := some "Orders"
                  children := [
                    { kind := .baseList
                      children := [{ kind := .token, name := some "ControllerBase" }] },
                    { kind := .methodDeclaration, name := some "List"
                      children := [
                        { kind := .attributeList
                          children := [{ kind := .attributeUse, name := some "Route" }] }] }] }] } } }
  let generated : ParsedFile :=
    { tree :=
        { path := "Orders.Designer.cs", generated := true
          root :=
            { kind := .compilationUnit
              children := [
                { kind := .classDeclaration, span := { startByte := 0, endByte := 30 }
                  name := some "Orders" }] } } }
  if generatedFirst then [generated, written] else [written, generated]

namespace Runner

theorem controllers_counted_orders :
    let files := Program.ordersFiles false
    let p := Program.ofFiles files
    let mode := Mode.parallel [1, 0, 0, 1, 0, 1, 0, 0, 0, 1, 1]
    (∀ file ∈ files, file.tree.root.SpansApart) ∧
      (ofSettings {}).Finishes p mode {} ∧
      ∃ counted : List (Nat × TypeSymbol), (counted.map Prod.fst).Nodup ∧
        (∃ s, s.displayName = "Orders" ∧ (0, s) ∈ counted) ∧
        ((ofSettings {}).runIn p mode {}).2.endpoints =
          UInt64.ofNat (totalOf (fun c => c.2.routed {} p) counted) := by
  intro files p mode
  have apart : ∀ file ∈ files, file.tree.root.SpansApart := by decide
  have finishes : (ofSettings {}).Finishes p mode {} :=
    finishes_of_turns _ _ _ _ (by decide +kernel)
  obtain ⟨counted, once, controllers, total⟩ :=
    controllers_counted files apart {} (by decide) rfl mode finishes
  have drawn : (p.symbols.symbol? 0).map (fun s => (s.displayName, s.declared.head?)) =
      some ("Orders", some ⟨0, 32, 130⟩) := by decide +kernel
  obtain ⟨s, hs, drawn⟩ := Option.map_eq_some_iff.mp drawn
  obtain ⟨name, first⟩ := Prod.mk.inj drawn
  have written : p.WritesClass ⟨0, [0], _⟩ :=
    ⟨⟨_, rfl, rfl, SyntaxTree.not_generatedAt rfl (by decide)⟩, rfl⟩
  exact ⟨apart, finishes, counted, once, ⟨s, name, (controllers 0 s).mpr
    ⟨hs, by decide +kernel, _, written, first⟩⟩, total⟩

/-- A controller whose first part is generated is not counted, though a part with endpoints is
written by hand. -/
theorem generated_first_uncounted :
    let p := Program.ofFiles (Program.ordersFiles true)
    ∃ s x, p.symbols.symbol? 0 = some s ∧ s.kind = .classType ∧
      p.symbols.isSubtypeOf (some 0) (.named ({} : Settings).knownTypes.controller) = true ∧
      p.WritesClass x ∧ x.place ∈ s.declared ∧ s.routed {} p = 1 ∧
      ((ofSettings {}).runIn p .sequential {}).2.endpoints = 0 := by
  intro p
  have drawn : (p.symbols.symbol? 0).map
        (fun s => (s.kind, s.declared, s.members.map (·.attributes))) =
      some (.classType, [⟨0, 0, 30⟩, ⟨1, 32, 130⟩], [[⟨"Route", some 3⟩]]) := by decide +kernel
  obtain ⟨s, hs, drawn⟩ := Option.map_eq_some_iff.mp drawn
  obtain ⟨kind, drawn⟩ := Prod.mk.inj drawn
  obtain ⟨declared, attributes⟩ := Prod.mk.inj drawn
  have written : p.WritesClass ⟨1, [0], _⟩ :=
    ⟨⟨_, rfl, rfl, SyntaxTree.not_generatedAt rfl (by decide)⟩, rfl⟩
  have listed : (p.symbols.symbol? 3).map (·.interfaces) = some [5] := by decide +kernel
  obtain ⟨route, hr, listed⟩ := Option.map_eq_some_iff.mp listed
  have provides : p.symbols.implements (some 3)
      (.named ({} : Settings).knownTypes.routeProvider) = true :=
    Binder.implements_of_listed hr (listed ▸ List.mem_cons_self) (by decide) (by decide +kernel)
  have routed : s.routed {} p = (s.members.map (·.attributes)).countP fun as =>
      ∃ a ∈ as, p.symbols.implements a.classId
        (.named ({} : Settings).knownTypes.routeProvider) = true := by
    rw [List.countP_map]
    rfl
  refine ⟨s, _, hs, kind, by decide +kernel, written, ?_, ?_, by decide +kernel⟩
  · rw [declared]
    exact List.mem_cons_of_mem _ List.mem_cons_self
  · rw [routed, attributes]
    simp [provides]

end Runner
end Antipattern
