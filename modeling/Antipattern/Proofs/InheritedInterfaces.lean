import Antipattern.Proofs.InterfaceClosure
import Antipattern.Proofs.OriginalDefinitions

/-!
Interfaces over base types. A type implements what its base types implement, unless a base type on
the way is a generic definition filled in with type arguments: the definition counts as a base type,
but the interfaces of the definition are not reached over the type that is filled in.
-/

namespace Antipattern

namespace SymbolTable

/-- Base types one after another, each replaced by its generic definition. -/
inductive Climbs (t : SymbolTable) (x : Nat) : Nat → Prop
  | self : Climbs t x x
  | next {y z : Nat} (climbed : Climbs t x y) (step : t.baseStep y = some z) : Climbs t x z

/-- The base type of a type is a generic definition filled in. -/
def FilledBase (t : SymbolTable) (x base : Nat) : Prop :=
  ∃ s, t.symbol? x = some s ∧ s.baseType = some base ∧ t.originalDefinition base ≠ base

/-- Where no base type is filled in, base types are reached. -/
theorem Climbs.reaches {t : SymbolTable} {x y : Nat} (h : t.Climbs x y) :
    t.Reaches x y ∨
      ∃ z base, t.Climbs x z ∧ t.FilledBase z base ∧ t.Climbs (t.originalDefinition base) y := by
  induction h with
  | self => exact .inl .self
  | @next y z climbed step ih =>
      rcases ih with reached | ⟨below, base, climbed', filled, above⟩
      · rw [baseStep, Option.map_eq_some_iff] at step
        obtain ⟨base, held, rfl⟩ := step
        obtain ⟨s, hs, held⟩ := Option.bind_eq_some_iff.mp held
        by_cases plain : t.originalDefinition base = base
        · rw [plain]
          exact .inl (reached.next ⟨s, hs, .inl held⟩)
        · exact .inr ⟨y, base, climbed, ⟨s, hs, held, plain⟩, .self⟩
      · exact .inr ⟨below, base, climbed', filled, above.next step⟩

end SymbolTable

namespace Binder

/-- A type implements what the interfaces that it reaches, or their definitions, are. -/
theorem implements_iff (files : List ParsedFile) (id : Nat) (k : KnownType) :
    (bind files).implements (some id) k = true ↔
      ∃ x, x ≠ id ∧ (bind files).Inherits id x ∧
        (bind files).is (some ((bind files).originalDefinition x)) k = true := by
  obtain ⟨t, -, finished⟩ := edits_bind files
  rw [finished]
  exact SymbolTable.implements_finish_iff

theorem implements_of_listed {files : List ParsedFile} {id interface : Nat} {s : TypeSymbol}
    {k : KnownType} (hs : (bind files).symbol? id = some s) (listed : interface ∈ s.interfaces)
    (other : interface ≠ id)
    (known : (bind files).is (some ((bind files).originalDefinition interface)) k = true) :
    (bind files).implements (some id) k = true :=
  (implements_iff files id k).mpr ⟨interface, other, ⟨id, s, .self, hs, listed⟩, known⟩

/-- What is known of a definition is known of the types that fill it in. -/
theorem is_of_definition {files : List ParsedFile} {id : Nat} {k : KnownType}
    (h : (bind files).is (some ((bind files).originalDefinition id)) k = true) :
    (bind files).is (some id) k = true := by
  rw [SymbolTable.is] at h
  cases hd : (bind files).symbol? ((bind files).originalDefinition id) with
  | none => simp [hd] at h
  | some d =>
      have known : k.matchesSymbol d = true := by
        simpa [hd, originalDefinition_idem files id] using h
      cases hs : (bind files).symbol? id with
      | none =>
          have self : (bind files).originalDefinition id = id := by
            simp [SymbolTable.originalDefinition, hs]
          rw [self, hs] at hd
          cases hd
      | some s => simp [SymbolTable.is, hs, hd, known]

theorem implements_of_base (files : List ParsedFile) (s t : Nat) (k : KnownType)
    (climbs : (bind files).Climbs s t)
    (implemented : (bind files).implements (some t) k = true)
    (other : (bind files).is (some s) k = false) :
    (bind files).implements (some s) k = true ∨
      ∃ x base, (bind files).Climbs s x ∧ (bind files).FilledBase x base ∧
        (bind files).Climbs ((bind files).originalDefinition base) t := by
  refine climbs.reaches.imp_left fun reached => ?_
  obtain ⟨x, -, ⟨y, z, further, hz, interface⟩, known⟩ := (implements_iff files t k).mp implemented
  refine (implements_iff files s k).mpr ⟨x, ?_, ⟨y, z, reached.trans further, hz, interface⟩, known⟩
  rintro rfl
  rw [is_of_definition known] at other
  cases other

/-- An interface, a class that lists it, and a class with a base type as it is written. -/
def auditedFiles (parameters : List SyntaxNode) (base : String) : List ParsedFile :=
  let listing (reference : String) : SyntaxNode :=
    { kind := .baseList, children := [{ kind := .other, name := some reference }] }
  [{ tree :=
      { path := "Orders.cs"
        root :=
          { kind := .compilationUnit
            children := [
              { kind := .interfaceDeclaration, name := some "IAudited" },
              { kind := .classDeclaration, name := some "Repository"
                children := parameters ++ [listing "IAudited"] },
              { kind := .classDeclaration, name := some "Orders", children := [listing base] }] } } }]

theorem implements_of_base_orders :
    let table := bind (auditedFiles [] "Repository")
    let audited := KnownType.named "IAudited"
    table.Climbs 2 1 ∧ table.implements (some 1) audited = true ∧
      table.is (some 2) audited = false ∧ table.implements (some 2) audited = true := by
  intro table audited
  have climbs : table.Climbs 2 1 := .next .self (by decide +kernel)
  have listed : (table.symbol? 1).map (·.interfaces) = some [0] := by decide +kernel
  obtain ⟨s, hs, listed⟩ := Option.map_eq_some_iff.mp listed
  have implemented : table.implements (some 1) audited = true :=
    implements_of_listed hs (listed ▸ List.mem_cons_self) (by decide) (by decide +kernel)
  have other : table.is (some 2) audited = false := by decide +kernel
  refine ⟨climbs, implemented, other, ?_⟩
  refine (implements_of_base _ 2 1 audited climbs implemented other).resolve_right ?_
  rintro ⟨x, base, -, ⟨-, -, -, filled⟩, -⟩
  have none : ∀ s ∈ table.symbols.toList, s.originalDefinition = none := by decide +kernel
  cases hb : table.symbol? base with
  | none => exact filled (by simp [SymbolTable.originalDefinition, table, hb])
  | some b =>
      have plain := none b (Array.mem_toList_iff.mpr (Array.mem_of_getElem? hb))
      exact filled (by simp [SymbolTable.originalDefinition, table, hb, plain])

/-- A class does not implement what a generic base type implements that it fills in. -/
theorem filled_base_not_implemented :
    let table := bind (auditedFiles [{ kind := .typeParameterList, name := some "<T>" }]
      "Repository<int>")
    let audited := KnownType.named "IAudited"
    table.isSubtypeOf (some 2) (.named "Repository<T>") = true ∧ table.Climbs 2 1 ∧
      table.implements (some 1) audited = true ∧ table.is (some 2) audited = false ∧
      table.implements (some 2) audited = false := by
  intro table audited
  have listed : (table.symbol? 1).map (·.interfaces) = some [0] := by decide +kernel
  obtain ⟨s, hs, listed⟩ := Option.map_eq_some_iff.mp listed
  refine ⟨by decide +kernel, .next .self (by decide +kernel), ?_, by decide +kernel, ?_⟩
  · exact implements_of_listed hs (listed ▸ List.mem_cons_self) (by decide) (by decide +kernel)
  · -- the class reaches its base type, which is filled in and reaches nothing
    have own : (table.symbol? 2).map (fun s => (s.baseType, s.interfaces)) = some (some 3, []) := by
      decide +kernel
    have filled : (table.symbol? 3).map (fun s => (s.baseType, s.interfaces)) = some (none, []) := by
      decide +kernel
    have links {id : Nat} {s : TypeSymbol} {base : Option Nat} {interfaces : List Nat}
        (held : (table.symbol? id).map (fun s => (s.baseType, s.interfaces)) =
          some (base, interfaces))
        (hs : table.symbol? id = some s) : s.baseType = base ∧ s.interfaces = interfaces := by
      rw [hs] at held
      exact Prod.mk.inj (Option.some.inj held)
    have reached {y : Nat} (h : table.Reaches 2 y) : y = 2 ∨ y = 3 := by
      induction h with
      | self => exact .inl rfl
      | next _ edge ih =>
          obtain ⟨s, hs, edge⟩ := edge
          rcases ih with rfl | rfl
          · rw [(links own hs).1, (links own hs).2] at edge
            exact .inr (edge.elim (fun base => (Option.some.inj base).symm) nofun)
          · rw [(links filled hs).1, (links filled hs).2] at edge
            exact edge.elim nofun nofun
    rw [Bool.eq_false_iff]
    intro implemented
    obtain ⟨x, -, ⟨y, s, further, hs, interface⟩, -⟩ := (implements_iff _ _ _).mp implemented
    rcases reached further with rfl | rfl
    · rw [(links own hs).2] at interface
      cases interface
    · rw [(links filled hs).2] at interface
      cases interface

end Binder
end Antipattern
