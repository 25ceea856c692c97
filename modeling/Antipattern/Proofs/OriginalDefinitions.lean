import Antipattern.Proofs.DeclaredSymbols
import Antipattern.Proofs.NameResolution

/-!
Original definitions. A symbol refers to the generic definition that its name asks for, so a
definition has no definition of its own.
-/

namespace Antipattern

/-- Every original definition is the generic definition that the symbol's name asks for. -/
def SymbolTable.FilledFrom (generics : List (String × Nat)) (t : SymbolTable) : Prop :=
  ∀ id s definition, t.symbol? id = some s → s.originalDefinition = some definition →
    ∃ name args, s.displayName = name ++ args ∧ AreTypeArgs args ∧ args ≠ "" ∧
      generics.lookup name = some definition ∧ id ≠ definition

namespace SymbolTable.FilledFrom

variable {generics : List (String × Nat)} {t t' : SymbolTable}

theorem enter (h : t.FilledFrom generics) (name : String) (kind : TypeKind) :
    (t.addType name kind).2.FilledFrom generics := by
  intro id s definition hs origin
  rw [symbol?_addType] at hs
  split at hs
  · obtain rfl := Option.some.inj hs
    cases origin
  · exact h id s definition hs origin

theorem link (h : t.FilledFrom generics) (id : Nat) {f : TypeSymbol → TypeSymbol}
    (same : ∀ s : TypeSymbol, s.SameIdentity (f s))
    (origin : ∀ s, (f s).originalDefinition = s.originalDefinition) :
    (t.update id f fun s => (same s).displayName).FilledFrom generics := by
  intro j s definition hs filled
  rw [symbol?_update] at hs
  split at hs
  · obtain ⟨old, hold, rfl⟩ := Option.map_eq_some_iff.mp hs
    rw [origin] at filled
    rw [(same old).displayName]
    exact h j old definition hold filled
  · exact h j s definition hs filled

theorem fill (h : t.FilledFrom generics) {id definition : Nat} {name args : String}
    (named : t.nameOf? id = some (name ++ args)) (generic : generics.lookup name = some definition)
    (opens : AreTypeArgs args) (nonempty : args ≠ "") (other : id ≠ definition) :
    (t.setOriginalDefinition id definition).FilledFrom generics := by
  intro j s filling hs filled
  rw [setOriginalDefinition, symbol?_update] at hs
  split at hs
  · next same =>
      subst same
      obtain ⟨old, hold, rfl⟩ := Option.map_eq_some_iff.mp hs
      obtain rfl := Option.some.inj filled
      obtain ⟨_, hold', display⟩ := nameOf?_eq_some_iff.mp named
      obtain rfl := Option.some.inj (hold.symm.trans hold')
      exact ⟨name, args, display, opens, nonempty, generic, other⟩
  · exact h j s filling hs filled

theorem edits (h : t.FilledFrom generics) (edits : Edits generics t t') :
    t'.FilledFrom generics := by
  induction edits with
  | refl => exact h
  | enter _ _ ih => exact ih.enter _ _
  | link _ id same origin ih => exact ih.link id same origin
  | fill _ _ named generic opens nonempty other ih =>
      exact ih.fill named generic opens nonempty other

theorem finish (h : t.FilledFrom generics) : t.finish.FilledFrom generics := by
  intro id s definition hs origin
  rw [symbol?_finish] at hs
  obtain ⟨old, hold, rfl⟩ := Option.map_eq_some_iff.mp hs
  exact h id old definition hold origin

end SymbolTable.FilledFrom

namespace Declaration

theorem display_of_site? {tree : Nat} {scope : Scope} {n : SyntaxNode} {path : List Nat}
    {d : Declaration} (h : site? tree scope n path = some d) :
    ∃ name, d.node.identifier? = some name ∧
      d.display = Binder.displayNameIn d.scope name d.node := by
  induction path generalizing n scope with
  | nil => simp [site?] at h
  | cons i path ih =>
      cases hc : n.children[i]? with
      | none => simp [site?, hc] at h
      | some c =>
          rw [site?_cons hc] at h
          split at h
          · obtain ⟨-, name, named, rfl⟩ := at?_eq_some h
            exact ⟨name, named, rfl⟩
          · obtain ⟨inner, -, h⟩ := Option.bind_eq_some_iff.mp h
            exact ih h

/-- Where names are written cleanly, a type is generic by its type parameters. -/
theorem typeParameters_of_isGeneric {files : List ParsedFile} {d : Declaration}
    (clean : ∀ file ∈ files, file.Clean) (hd : d ∈ ofFiles files) (generic : d.isGeneric) :
    ¬ PlainName d.node.typeParameters := by
  intro plain
  obtain ⟨declared, scope, node⟩ := clean_of_mem_ofFiles clean hd
  obtain ⟨isType, name, named, same⟩ := at?_eq_some declared
  apply isGeneric_iff.mp generic
  rw [congrArg Declaration.display same, Binder.displayNameIn]
  refine (PlainName.qualify ?_ (node.ofType isType named).plain).append plain
  split
  · exact plain_withoutTypeArgs _
  · exact scope.1

end Declaration

namespace Binder

theorem filledFrom_bind (files : List ParsedFile) :
    (bind files).FilledFrom (declareFiles files).generics := by
  have first : (declareFiles files).table.FilledFrom (declareFiles files).generics := by
    intro id s definition hs origin
    rw [(entered_declareFiles files).symbols id s hs] at origin
    cases origin
  obtain ⟨t, edits, finished⟩ := edits_bind files
  rw [finished]
  exact (first.edits edits).finish

/-- What is listed as a generic definition is declared, under its name up to the type parameters. -/
theorem declaration_of_generic {files : List ParsedFile} {name : String} {definition : Nat}
    (generic : (declareFiles files).generics.lookup name = some definition) :
    ∃ d ∈ Declaration.ofFiles files, d.isGeneric ∧ d.key = name ∧
      (bind files).nameOf? definition = some d.display := by
  have listed := List.mem_map_of_mem
    (f := fun x => (x.1, (declareFiles files).table.nameOf? x.2)) (mem_of_lookup generic)
  rw [(entered_declareFiles files).generics] at listed
  obtain ⟨d, hd, same⟩ := List.mem_map.mp listed
  obtain ⟨key, named⟩ := Prod.mk.inj same
  obtain ⟨hd, generic⟩ := List.mem_filter.mp (List.mem_reverse.mp hd)
  exact ⟨d, hd, generic, key, (grows_bind files).keepsNames _ _ named.symm⟩

/-- A generic definition has no definition of its own. -/
theorem originalDefinition_of_definition {files : List ParsedFile} {id definition : Nat}
    {s d : TypeSymbol} (hs : (bind files).symbol? id = some s)
    (origin : s.originalDefinition = some definition)
    (hd : (bind files).symbol? definition = some d) : d.originalDefinition = none := by
  obtain ⟨name, args, -, -, -, generic, -⟩ := filledFrom_bind files id s definition hs origin
  obtain ⟨declared, -, -, key, named⟩ := declaration_of_generic generic
  have display := SymbolTable.nameOf?_eq_some_iff.mpr ⟨d, hd, rfl⟩
  cases deeper : d.originalDefinition with
  | none => rfl
  | some other =>
      -- its own name would ask for another definition of the name that led to it
      obtain ⟨name', args', split, opens, -, generic', ne⟩ :=
        filledFrom_bind files definition d other hd deeper
      obtain ⟨declared', -, -, key', -⟩ := declaration_of_generic generic'
      have plain : PlainName name' := key' ▸ plain_withoutTypeArgs declared'.display
      have same : name = name' := by
        rw [← key, Declaration.key, Option.some.inj (named.symm.trans display), split,
          withoutTypeArgs_append plain opens]
      rw [same, generic'] at generic
      exact absurd (Option.some.inj generic).symm ne

theorem originalDefinition_idem (files : List ParsedFile) (id : Nat) :
    (bind files).originalDefinition ((bind files).originalDefinition id) =
      (bind files).originalDefinition id := by
  cases hs : (bind files).symbol? id with
  | none => simp [SymbolTable.originalDefinition, hs]
  | some s =>
      cases origin : s.originalDefinition with
      | none => simp [SymbolTable.originalDefinition, hs, origin]
      | some definition =>
          have filled : (bind files).originalDefinition id = definition := by
            simp [SymbolTable.originalDefinition, hs, origin]
          rw [filled, SymbolTable.originalDefinition]
          cases hd : (bind files).symbol? definition with
          | none => rfl
          | some d => simp [originalDefinition_of_definition hs origin hd]

/-- A symbol and its definition have the same name up to the type arguments. -/
theorem withoutTypeArgs_of_definition {files : List ParsedFile} {id definition : Nat}
    {s d : TypeSymbol} (hs : (bind files).symbol? id = some s)
    (origin : s.originalDefinition = some definition)
    (hd : (bind files).symbol? definition = some d) :
    withoutTypeArgs d.displayName = withoutTypeArgs s.displayName := by
  obtain ⟨name, args, split, opens, -, generic, -⟩ :=
    filledFrom_bind files id s definition hs origin
  obtain ⟨e, -, -, key, named⟩ := declaration_of_generic generic
  have plain : PlainName name := key ▸ plain_withoutTypeArgs e.display
  have display := SymbolTable.nameOf?_eq_some_iff.mpr ⟨d, hd, rfl⟩
  rw [split, withoutTypeArgs_append plain opens, ← key, Declaration.key,
    Option.some.inj (named.symm.trans display)]

/-- The declaration of a definition. -/
theorem declaration_of_definition {files : List ParsedFile} {id definition : Nat} {s : TypeSymbol}
    (hs : (bind files).symbol? id = some s) (origin : s.originalDefinition = some definition) :
    ∃ d e, (bind files).symbol? definition = some d ∧ e ∈ Declaration.ofFiles files ∧
      e.display = d.displayName ∧ e.isGeneric ∧ e.place ∈ d.declared := by
  obtain ⟨name, args, -, -, -, generic, -⟩ := filledFrom_bind files id s definition hs origin
  obtain ⟨e, he, isGeneric, -, named⟩ := declaration_of_generic generic
  obtain ⟨d, hd, display⟩ := SymbolTable.nameOf?_eq_some_iff.mp named
  refine ⟨d, e, hd, he, display.symm, isGeneric, ?_⟩
  rw [declared_of_bind hd, Declaration.placesOf]
  exact List.mem_map_of_mem (List.mem_filter.mpr ⟨he, beq_iff_eq.mpr display.symm⟩)

/-- Original definitions are one level deep. A definition is another type, declared and generic,
without a definition of its own and with the same name up to the type arguments. -/
theorem definitions_bind (files : List ParsedFile) :
    (∀ id s definition, (bind files).symbol? id = some s →
      s.originalDefinition = some definition →
      definition ≠ id ∧ ∃ d, (bind files).symbol? definition = some d ∧
        (∃ e ∈ Declaration.ofFiles files, e.display = d.displayName ∧ e.isGeneric ∧
          e.place ∈ d.declared ∧
          ((∀ file ∈ files, file.Clean) → ¬ PlainName e.node.typeParameters)) ∧
        d.originalDefinition = none ∧
        withoutTypeArgs d.displayName = withoutTypeArgs s.displayName) ∧
    ∀ id, (bind files).originalDefinition ((bind files).originalDefinition id) =
      (bind files).originalDefinition id := by
  refine ⟨fun id s definition hs origin => ?_, originalDefinition_idem files⟩
  obtain ⟨-, -, -, -, -, -, other⟩ := filledFrom_bind files id s definition hs origin
  obtain ⟨d, e, hd, he, display, isGeneric, place⟩ := declaration_of_definition hs origin
  have parameters (clean : ∀ file ∈ files, file.Clean) : ¬ PlainName e.node.typeParameters :=
    Declaration.typeParameters_of_isGeneric clean he isGeneric
  exact ⟨Ne.symm other, d, hd, ⟨e, he, display, isGeneric, place, parameters⟩,
    originalDefinition_of_definition hs origin hd, withoutTypeArgs_of_definition hs origin hd⟩

theorem definitions_bind_boxAndCrate :
    let t := bind [boxAndCrate]
    ∃ s d, t.symbol? 2 = some s ∧ s.displayName = "Shop.Box<int>" ∧ s.originalDefinition = some 0 ∧
      t.symbol? 0 = some d ∧ d.declared ≠ [] ∧ d.originalDefinition = none ∧
      withoutTypeArgs d.displayName = "Shop.Box" ∧
      t.originalDefinition (t.originalDefinition 2) = 0 := by
  intro t
  obtain ⟨deep, idem⟩ := definitions_bind [boxAndCrate]
  have filled : (t.symbol? 2).map (fun s => (s.displayName, s.originalDefinition)) =
      some ("Shop.Box<int>", some 0) := by decide +kernel
  obtain ⟨s, hs, same⟩ := Option.map_eq_some_iff.mp filled
  obtain ⟨display, origin⟩ := Prod.mk.inj same
  obtain ⟨-, d, hd, ⟨e, -, -, -, place, -⟩, none, name⟩ := deep 2 s 0 hs origin
  refine ⟨s, d, hs, display, origin, hd, List.ne_nil_of_mem place, none, ?_, ?_⟩
  · rw [name, display]
    decide
  · rw [idem 2]
    decide +kernel

end Binder
end Antipattern
