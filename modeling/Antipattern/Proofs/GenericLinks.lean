import Antipattern.Proofs.OriginalDefinitions
import Antipattern.Proofs.PassEffects

/-!
Which types are filled in from which generic types. Every link comes from a reference with type
arguments, and the generic type is the last that is declared under the nearest name for which there
is one, whatever the number of its type parameters. So arguments and parameters agree in number
where all types that the reference can mean have the right number, and not in general.
-/

namespace Antipattern

/-- The bracket that closes another one. -/
def closing? (c : Char) : Option Char :=
  [('<', '>'), ('(', ')'), ('[', ']')].lookup c

/-- Counts the entries of a list up to the bracket that ends it, which has to be the last character.
The brackets that are open wait for the characters that close them, the innermost first. -/
def countEntries : List Char → List Char → Nat → Option Nat
  | [], _, _ => none
  | _, [], _ => none
  | c :: rest, close :: outer, n =>
      if c = close then
        if outer.isEmpty then if rest.isEmpty then some n else none
        else countEntries rest outer n
      else
        match closing? c with
        | some close' => countEntries rest (close' :: close :: outer) n
        | none =>
            if [')', ']', '>'].contains c then none
            else countEntries rest (close :: outer) (if c = ',' && outer.isEmpty then n + 1 else n)

/-- The number of types in one complete list of type arguments or parameters. -/
def arity? (list : String) : Option Nat :=
  match list.toList with
  | '<' :: rest => countEntries rest ['>'] 1
  | _ => none

example : arity? "<Map<K,V>,(int,int),long[,]>" = some 3 ∧ arity? "<int>.Inner" = none := by decide

namespace Declaration

variable {ds : List Declaration} {d : Declaration} {scope : Scope}
  {reference name definition : String}

/-- The texts by which an attribute is looked up. -/
def attributeTexts (name : String) : List String :=
  if Text.endsWith "Attribute".toList name.toList then [name] else [name ++ "Attribute", name]

/-- The references of a declaration: those of its base list, and those that its attributes and its
members' are looked up by. -/
def references (d : Declaration) : List String :=
  d.node.baseReferences ++ (d.node.attributes ++ d.node.members.flatMap (·.attributes)).flatMap
    fun a => attributeTexts (a.identifier?.getD "")

/-- The generic types that a reference with type arguments can mean have as many type parameters,
and the arguments are one complete list. -/
def FitsArity (ds : List Declaration) (scope : Scope) (reference : String) : Prop :=
  let text := normalizeReference reference
  ∀ e ∈ ds, e.isGeneric → e.key ∈ scope.candidates (withoutTypeArgs text) →
    (arity? (typeArgs text)).isSome ∧ arity? (typeArgs e.display) = arity? (typeArgs text)

instance (ds : List Declaration) (scope : Scope) (reference : String) :
    Decidable (FitsArity ds scope reference) :=
  inferInstanceAs (Decidable (∀ e ∈ ds, e.isGeneric → _ → _))

theorem typeArgs_append {args : String} (plain : PlainName name) (opens : AreTypeArgs args) :
    typeArgs (name ++ args) = args := by
  have whole := withoutTypeArgs_append_typeArgs (name ++ args)
  rw [withoutTypeArgs_append plain opens] at whole
  exact (String.append_right_inj name).mp whole

/-- What a reference leads to, by its parts. -/
theorem constructed?_eq_some (h : constructed? ds scope reference = some (name, definition)) :
    withoutTypeArgs name ∈ scope.candidates (withoutTypeArgs (normalizeReference reference)) ∧
      typeArgs name = typeArgs (normalizeReference reference) ∧
      definition? ds (withoutTypeArgs name) = some definition := by
  rw [constructed?] at h
  split at h
  · cases h
  · obtain ⟨c, nearest, h⟩ := Option.bind_eq_some_iff.mp h
    obtain ⟨original, known, same⟩ := Option.map_eq_some_iff.mp h
    obtain ⟨rfl, rfl⟩ := Prod.mk.inj same
    have plain := plain_of_isGenericName (List.find?_some nearest)
    have opens := areTypeArgs_typeArgs (normalizeReference reference)
    rw [withoutTypeArgs_append plain opens, typeArgs_append plain opens]
    exact ⟨List.mem_of_find?_eq_some nearest, rfl, known⟩

theorem arity_of_constructed? (h : constructed? ds scope reference = some (name, definition))
    (fits : FitsArity ds scope reference) :
    withoutTypeArgs definition = withoutTypeArgs name ∧
      ∃ n, arity? (typeArgs name) = some n ∧ arity? (typeArgs definition) = some n := by
  obtain ⟨candidate, args, known⟩ := constructed?_eq_some h
  obtain ⟨e, he, generic, key, rfl⟩ := declared_of_definition? known
  rw [← key] at candidate
  obtain ⟨complete, same⟩ := fits e he generic candidate
  obtain ⟨n, counted⟩ := Option.isSome_iff_exists.mp complete
  rw [args]
  exact ⟨key, n, counted, same.trans counted⟩

theorem mem_proper {x : String × String} {o : Option (String × String)} :
    x ∈ Binder.proper o ↔ o = some x ∧ x.1 ≠ x.2 := by
  rw [Binder.proper, List.mem_filter, Option.mem_toList, bne_iff_ne]

theorem exists_attributeText
    (h : attributeConstructed? ds scope reference = some (name, definition)) :
    ∃ text ∈ attributeTexts reference, constructed? ds scope text = some (name, definition) := by
  rw [attributeConstructed?, Option.or_eq_some_iff] at h
  rw [attributeTexts]
  rcases h with h | ⟨-, h⟩
  · split at h
    · cases h
    · next unsuffixed =>
        rw [if_neg unsuffixed]
        exact ⟨_, List.mem_cons_self, h⟩
  · refine ⟨reference, ?_, h⟩
    split <;> simp

/-- Names that a declaration fills in come from its references. -/
theorem exists_reference (h : (name, definition) ∈ filled ds d) :
    name ≠ definition ∧
      ∃ r ∈ d.references, constructed? ds d.inner r = some (name, definition) := by
  rw [filled, List.mem_append, List.mem_flatMap, List.mem_flatMap] at h
  rcases h with ⟨r, hr, h⟩ | ⟨a, ha, h⟩
  · obtain ⟨led, other⟩ := mem_proper.mp h
    exact ⟨other, r, List.mem_append_left _ hr, led⟩
  · obtain ⟨led, other⟩ := mem_proper.mp h
    obtain ⟨text, htext, led⟩ := exists_attributeText led
    exact ⟨other, text, List.mem_append_right _ (List.mem_flatMap.mpr ⟨a, ha, htext⟩), led⟩

end Declaration

namespace Binder

open Declaration

theorem linksTo_bind {files : List ParsedFile} {name definition : String} :
    (bind files).LinksTo name definition ↔
      ∃ d ∈ ofFiles files, (name, definition) ∈ d.filled (ofFiles files) := by
  obtain ⟨t, bound, sound, -, definitions⟩ := effects_bind files
  rw [bound, SymbolTable.linksTo_finish, sound.linksTo_iff, definitions, ← List.mem_flatMap]
  constructor
  · intro h
    exact List.mem_reverse.mp (mem_of_lookup h)
  · intro h
    have led {other : String} (h : (name, other) ∈ (ofFiles files).flatMap
        (Declaration.filled (ofFiles files))) :
        definition? (ofFiles files) (withoutTypeArgs name) = some other := by
      obtain ⟨d, -, h⟩ := List.mem_flatMap.mp h
      obtain ⟨-, r, -, led⟩ := exists_reference h
      exact (constructed?_eq_some led).2.2
    have found := List.lookup_isSome_iff.mpr ⟨_, List.mem_reverse.mpr h, beq_self_eq_true name⟩
    obtain ⟨other, found⟩ := Option.isSome_iff_exists.mp found
    rw [found, ← led h, ← led (List.mem_reverse.mp (mem_of_lookup found))]

/-- Links are what references with type arguments lead to. Where all generic types that these
references can mean have as many type parameters as there are arguments in one complete list, so
has the definition that is linked. -/
theorem arity_of_links (files : List ParsedFile) :
    (∀ name definition, (bind files).LinksTo name definition ↔
      ∃ d ∈ ofFiles files, (name, definition) ∈ d.filled (ofFiles files)) ∧
    ∀ name definition, (bind files).LinksTo name definition →
      (∀ d ∈ ofFiles files, ∀ r ∈ d.references,
        constructed? (ofFiles files) d.inner r = some (name, definition) →
          FitsArity (ofFiles files) d.inner r) →
      ∃ args n, name = withoutTypeArgs definition ++ args ∧ arity? args = some n ∧
        arity? (typeArgs definition) = some n := by
  refine ⟨fun name definition => linksTo_bind, fun name definition linked fits => ?_⟩
  obtain ⟨d, hd, h⟩ := linksTo_bind.mp linked
  obtain ⟨-, r, hr, led⟩ := exists_reference h
  obtain ⟨key, n, args, parameters⟩ := arity_of_constructed? led (fits d hd r hr led)
  refine ⟨typeArgs name, n, ?_, args, parameters⟩
  rw [key, withoutTypeArgs_append_typeArgs]

/-- Two generic types of one name, a reference to a type inside a generic type, and type arguments
inside of others. -/
def genericBases : ParsedFile where
  tree :=
    { path := "Bases.cs"
      root :=
        { kind := .compilationUnit
          children := [
            genericClass "Foo" "<T>", genericClass "Foo" "<T, U>", derivedClass "Bar" "Foo<int>",
            genericClass "Outer" "<T>", derivedClass "Baz" "Outer<int>.Inner",
            genericClass "Map" "<K, V>", derivedClass "Index" "Map<int, Map<int, string>>"] } }
where
  genericClass (name parameters : String) : SyntaxNode :=
    { kind := .classDeclaration
      name
      children := [{ kind := .typeParameterList, name := parameters }] }
  derivedClass (name base : String) : SyntaxNode :=
    { kind := .classDeclaration
      name
      children := [{ kind := .baseList, children := [{ kind := .other, name := base }] }] }

theorem linksTo_of_definition {t : SymbolTable} {name definition : String} (id : Nat)
    (h : ((t.symbol? id).bind fun s =>
      (s.originalDefinition.bind t.nameOf?).map (s.displayName, ·)) = some (name, definition)) :
    t.LinksTo name definition := by
  obtain ⟨s, hs, h⟩ := Option.bind_eq_some_iff.mp h
  obtain ⟨definition, found, same⟩ := Option.map_eq_some_iff.mp h
  obtain ⟨rfl, rfl⟩ := Prod.mk.inj same
  obtain ⟨k, origin, named⟩ := Option.bind_eq_some_iff.mp found
  obtain ⟨d, hd, display⟩ := SymbolTable.nameOf?_eq_some_iff.mp named
  exact ⟨id, s, k, d, hs, rfl, origin, hd, display⟩

theorem arity_of_links_genericBases :
    (bind [genericBases]).LinksTo "Map<int,Map<int,string>>" "Map<K,V>" ∧
      ∃ args n, "Map<int,Map<int,string>>" = "Map" ++ args ∧ arity? args = some n ∧
        arity? "<K,V>" = some n := by
  have linked : (bind [genericBases]).LinksTo "Map<int,Map<int,string>>" "Map<K,V>" :=
    linksTo_of_definition 9 (by decide +kernel)
  have fits : ∀ d ∈ ofFiles [genericBases], ∀ r ∈ d.references,
      constructed? (ofFiles [genericBases]) d.inner r =
        some ("Map<int,Map<int,string>>", "Map<K,V>") →
      FitsArity (ofFiles [genericBases]) d.inner r := by decide +kernel
  have key : withoutTypeArgs "Map<K,V>" = "Map" := by decide
  have parameters : typeArgs "Map<K,V>" = "<K,V>" := by decide
  have arities := (arity_of_links [genericBases]).2 _ _ linked fits
  rw [key, parameters] at arities
  exact ⟨linked, arities⟩

/-- The last of two generic types is taken for both arities, and what stands behind the type
arguments for a part of them. -/
theorem genericBases_of_other_arity :
    (bind [genericBases]).LinksTo "Foo<int>" "Foo<T,U>" ∧
      (∃ d ∈ ofFiles [genericBases], d.display = "Foo<T>") ∧
      arity? "<int>" = some 1 ∧ arity? "<T>" = some 1 ∧ arity? "<T,U>" = some 2 ∧
      (bind [genericBases]).LinksTo "Outer<int>.Inner" "Outer<T>" ∧
      arity? "<int>.Inner" = none := by
  exact ⟨linksTo_of_definition 7 (by decide +kernel), by decide +kernel, by decide, by decide,
    by decide, linksTo_of_definition 8 (by decide +kernel), by decide⟩

end Binder
end Antipattern
