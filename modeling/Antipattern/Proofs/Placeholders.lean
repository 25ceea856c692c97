import Antipattern.Proofs.FrameworkTypes
import Antipattern.Proofs.InterfaceClosure

/-!
Types that nothing is known about. A reference to such a type is entered as a placeholder, a symbol
with a name and no more. Binding never adds to one, so questions about its place in the hierarchy
are answered by the name alone.
-/

namespace Antipattern

/-- A symbol that says nothing beyond what it is called. -/
structure TypeSymbol.Blank (s : TypeSymbol) : Prop where
  baseType : s.baseType = none
  interfaces : s.interfaces = []
  allInterfaces : s.allInterfaces = []
  originalDefinition : s.originalDefinition = none
  attributes : s.attributes = []
  members : s.members = []
  declared : s.declared = []

/-- Portraits show all that a symbol says. -/
theorem TypeSymbol.blank_of_portrait {s : TypeSymbol} {nameAt : Nat → String} {kind : TypeKind}
    (looks : s.portrait nameAt = { kind }) : s.Blank where
  baseType := Option.map_eq_none_iff.mp (congrArg Portrait.base looks)
  interfaces := List.map_eq_nil_iff.mp (congrArg Portrait.interfaces looks)
  allInterfaces := List.map_eq_nil_iff.mp (congrArg Portrait.allInterfaces looks)
  originalDefinition := Option.map_eq_none_iff.mp (congrArg Portrait.original looks)
  attributes := List.map_eq_nil_iff.mp (congrArg Portrait.attributes looks)
  members := List.map_eq_nil_iff.mp (congrArg Portrait.members looks)
  declared := congrArg Portrait.declared looks

/-- A known type is a symbol's own if it has its name, or its tag where it has one. -/
theorem KnownType.matchesSymbol_iff {k : KnownType} {s : TypeSymbol} :
    k.matchesSymbol s = true ↔
      k = .named s.displayName ∨ k = .special s.special ∧ s.special ≠ .none := by
  cases k with
  | named name => simp [matchesSymbol, matchesSpecial, matchesName]
  | special tag =>
      simp only [matchesSymbol, matchesSpecial, matchesName, Bool.or_false, Bool.and_eq_true,
        bne_iff_ne, beq_iff_eq, special.injEq, reduceCtorEq, false_or]
      constructor
      · rintro ⟨some, rfl⟩
        exact ⟨rfl, some⟩
      · rintro ⟨rfl, some⟩
        exact ⟨some, rfl⟩

namespace SymbolTable

section
variable {t : SymbolTable} {id : Nat} {s : TypeSymbol}

/-- The climb from a blank symbol ends where it starts. -/
theorem isSubtypeOf_of_blank (found : t.symbol? id = some s) (blank : s.Blank) (k : KnownType) :
    t.isSubtypeOf (some id) k = k.matchesSymbol s := by
  have ends : t.baseStep id = none := by
    rw [baseStep, found, Option.bind_some, blank.baseType, Option.map_none]
  have own : t.originalDefinition id = id := by
    rw [originalDefinition, found, Option.bind_some, blank.originalDefinition, Option.getD_none]
  have is : t.is (some id) k = k.matchesSymbol s := by
    simp [SymbolTable.is, found, own]
  simp [isSubtypeOf, maxDepth, climb, ends, is]

theorem Reaches.eq_of_blank {x : Nat} (h : t.Reaches id x) (found : t.symbol? id = some s)
    (blank : s.Blank) : x = id := by
  induction h with
  | self => rfl
  | next _ edge same =>
      obtain ⟨s', found', leads⟩ := edge
      rw [same, found] at found'
      obtain rfl := Option.some.inj found'
      simp [blank.baseType, blank.interfaces] at leads

theorem reachedInterfaces_of_blank (found : t.symbol? id = some s) (blank : s.Blank) :
    t.reachedInterfaces id = [] := by
  rw [List.eq_nil_iff_forall_not_mem]
  intro x hx
  obtain ⟨-, y, s', reached, found', listed⟩ := mem_reachedInterfaces_iff.mp hx
  rw [reached.eq_of_blank found blank, found] at found'
  obtain rfl := Option.some.inj found'
  simp [blank.interfaces] at listed

theorem implements_of_blank (found : t.symbol? id = some s) (blank : s.Blank) (k : KnownType) :
    t.implements (some id) k = false := by
  simp [implements, found, blank.allInterfaces]

end

end SymbolTable

namespace Binder

open Declaration

/-- Placeholders of a bound program stay blank, and no type that is declared or listed is one. -/
theorem placeholders_bind (files : List ParsedFile) (tidy : ∀ file ∈ files, file.Tidy) :
    (∀ id s, (bind files).symbol? id = some s → s.kind = .unresolved →
      s.Blank ∧
        (∀ k, (bind files).isSubtypeOf (some id) k = true ↔
          k = .named s.displayName ∨ k = .special s.special ∧ s.special ≠ .none) ∧
        ∀ k, (bind files).implements (some id) k = false) ∧
      ∀ id s, (bind files).symbol? id = some s →
        isDeclared (ofFiles files) s.displayName ∨ (Catalog.find? s.displayName).isSome →
        s.kind ≠ .unresolved := by
  obtain ⟨b, bound, orderly, -⟩ := orderly_bind files
  rw [bound]
  refine ⟨fun id s found kind => ?_, fun id s found known => ?_⟩
  · obtain ⟨before, earlier, rfl⟩ := SymbolTable.symbol?_of_finish found
    have drawn := orderly.sound.distinct.portrait?_eq earlier
    obtain ⟨looks, -⟩ := orderly.placeholders (cleanKeys_ofFiles tidy) drawn kind
    have blank := TypeSymbol.blank_of_portrait looks
    -- Finishing the table adds the interfaces that are reached, of which there are none.
    have reached := SymbolTable.reachedInterfaces_of_blank earlier blank
    have finished : TypeSymbol.Blank { before with allInterfaces := b.table.reachedInterfaces id } :=
      { blank with allInterfaces := reached }
    refine ⟨finished, fun k => ?_, SymbolTable.implements_of_blank found finished⟩
    rw [SymbolTable.isSubtypeOf_of_blank found finished, KnownType.matchesSymbol_iff]
  · obtain ⟨before, earlier, rfl⟩ := SymbolTable.symbol?_of_finish found
    exact orderly.accounted.known id before earlier (isKnown_iff.mpr known)

theorem placeholders_bind_tagged :
    let files := [ParsedFile.sales, .tagged]
    (∀ file ∈ files, file.Tidy) ∧
      (∃ id s, (bind files).symbol? id = some s ∧ s.displayName = "Absent" ∧ s.Blank ∧
        (bind files).isSubtypeOf (some id) (.named "System.Object") = false) ∧
      ∃ id s, (bind files).symbol? id = some s ∧ s.displayName = "global::x<int>" ∧ s.Blank := by
  intro files
  have tidy : ∀ file ∈ files, file.Tidy := by decide +kernel
  have absent : ((bind files).symbol? 6).map (fun s => (s.displayName, s.kind)) =
      some ("Absent", .unresolved) := by decide +kernel
  have tag : ((bind files).symbol? 7).map (fun s => (s.displayName, s.kind)) =
      some ("global::x<int>", .unresolved) := by decide +kernel
  obtain ⟨s, found, absent⟩ := Option.map_eq_some_iff.mp absent
  obtain ⟨name, kind⟩ := Prod.mk.inj absent
  obtain ⟨s', found', tag⟩ := Option.map_eq_some_iff.mp tag
  obtain ⟨name', kind'⟩ := Prod.mk.inj tag
  obtain ⟨placeholders, -⟩ := placeholders_bind files tidy
  obtain ⟨blank, subtypes, -⟩ := placeholders 6 s found kind
  refine ⟨tidy, ⟨6, s, found, name, blank, Bool.eq_false_iff.mpr fun derives => ?_⟩, 7, s', found',
    name', (placeholders 7 s' found' kind').1⟩
  rcases (subtypes _).mp derives with same | same
  · rw [name] at same
    exact absurd same (by decide)
  · exact absurd same.1 (by simp)

/-- A type that is found under a name with a colon can be filled in to the text of an attribute that
was entered as a placeholder. -/
theorem placeholder_of_untidy_files :
    let files := [ParsedFile.colons, .tagged, .derived]
    (∀ file ∈ files, file.Clean) ∧
      ∃ id s, (bind files).symbol? id = some s ∧ s.kind = .unresolved ∧
        s.originalDefinition = some 0 := by
  intro files
  have filled : ((bind files).symbol? 3).map (fun s => (s.kind, s.originalDefinition)) =
      some (.unresolved, some 0) := by decide +kernel
  obtain ⟨s, found, filled⟩ := Option.map_eq_some_iff.mp filled
  obtain ⟨kind, original⟩ := Prod.mk.inj filled
  exact ⟨by decide +kernel, 3, s, found, kind, original⟩

end Binder
end Antipattern
