import Antipattern.Binding.Binder
import Antipattern.Proofs.TableNames
import Antipattern.Proofs.TypeReferences

/-!
What the second pass does to a table. It enters names, each for one of three reasons, and changes
what symbols refer to, never what they are. So the symbols of the first pass keep their names,
kinds and places, and no symbol that comes later has a place.
-/

namespace Antipattern

/-- What stays of a symbol once it is in a table: all but what it refers to. -/
structure TypeSymbol.SameIdentity (s s' : TypeSymbol) : Prop where
  id : s'.id = s.id
  name : s'.name = s.name
  displayName : s'.displayName = s.displayName
  kind : s'.kind = s.kind
  special : s'.special = s.special
  declared : s'.declared = s.declared

namespace TypeSymbol

theorem SameIdentity.refl (s : TypeSymbol) : s.SameIdentity s :=
  ⟨rfl, rfl, rfl, rfl, rfl, rfl⟩

theorem SameIdentity.trans {s s' s'' : TypeSymbol} (h : s.SameIdentity s')
    (h' : s'.SameIdentity s'') : s.SameIdentity s'' :=
  ⟨h'.id.trans h.id, h'.name.trans h.name, h'.displayName.trans h.displayName,
    h'.kind.trans h.kind, h'.special.trans h.special, h'.declared.trans h.declared⟩

theorem sameIdentity_base (s : TypeSymbol) (base : Option Nat) :
    s.SameIdentity { s with baseType := base } :=
  ⟨rfl, rfl, rfl, rfl, rfl, rfl⟩

theorem sameIdentity_interface (s : TypeSymbol) (interface : Nat) :
    s.SameIdentity (if s.interfaces.contains interface then s
      else { s with interfaces := s.interfaces ++ [interface] }) := by
  split <;> exact ⟨rfl, rfl, rfl, rfl, rfl, rfl⟩

end TypeSymbol

namespace SymbolTable

/-- Names that resolving references enters, with their kinds. -/
inductive Entry (generics : List (String × Nat)) : String → TypeKind → Prop
  | framework {name : String} {type : CatalogType} (listed : (name, type) ∈ Catalog.types) :
      Entry generics name type.kind
  | constructed {definition args : String} (kind : TypeKind)
      (generic : (generics.lookup definition).isSome) (opens : AreTypeArgs args)
      (nonempty : args ≠ "") : Entry generics (definition ++ args) kind
  | unresolved {name : String} (unlisted : Catalog.find? name = none) :
      Entry generics name .unresolved

/-- Entering names and changing symbols apart from their identity, any number of times. -/
inductive Writes (generics : List (String × Nat)) (t : SymbolTable) : SymbolTable → Prop
  | refl : Writes generics t t
  | enter {t' : SymbolTable} {name : String} {kind : TypeKind} (writes : Writes generics t t')
      (entry : Entry generics name kind) : Writes generics t (t'.addType name kind).2
  | change {t' : SymbolTable} {f : TypeSymbol → TypeSymbol} (writes : Writes generics t t')
      (id : Nat) (same : ∀ s : TypeSymbol, s.SameIdentity (f s)) :
      Writes generics t (t'.update id f fun s => (same s).displayName)

namespace Writes

variable {generics : List (String × Nat)} {t t' t'' : SymbolTable}

theorem trans (h : Writes generics t t') (h' : Writes generics t' t'') :
    Writes generics t t'' := by
  induction h' with
  | refl => exact h
  | enter _ entry ih => exact ih.enter entry
  | change _ id same ih => exact ih.change id same

theorem setBase (h : Writes generics t t') (id base : Nat) :
    Writes generics t (t'.setBase id base) :=
  h.change id fun s => s.sameIdentity_base _

theorem addInterface (h : Writes generics t t') (id interface : Nat) :
    Writes generics t (t'.addInterface id interface) :=
  h.change id fun s => s.sameIdentity_interface interface

theorem setOriginalDefinition (h : Writes generics t t') (id original : Nat) :
    Writes generics t (t'.setOriginalDefinition id original) :=
  h.change (f := fun s => { s with originalDefinition := some original }) id
    fun _ => ⟨rfl, rfl, rfl, rfl, rfl, rfl⟩

theorem addMember (h : Writes generics t t') (id : Nat) (m : MemberSymbol) :
    Writes generics t (t'.addMember id m) :=
  h.change (f := fun s => { s with members := s.members ++ [m] }) id
    fun _ => ⟨rfl, rfl, rfl, rfl, rfl, rfl⟩

end Writes

/-- The single changes that resolving makes, any number of them. What a symbol refers to changes in
all but its original definition, or a symbol gets the generic definition that its name asks for. -/
inductive Edits (generics : List (String × Nat)) (t : SymbolTable) : SymbolTable → Prop
  | refl : Edits generics t t
  | enter {t' : SymbolTable} {name : String} {kind : TypeKind} (edits : Edits generics t t')
      (entry : Entry generics name kind) : Edits generics t (t'.addType name kind).2
  | link {t' : SymbolTable} {f : TypeSymbol → TypeSymbol} (edits : Edits generics t t') (id : Nat)
      (same : ∀ s : TypeSymbol, s.SameIdentity (f s))
      (origin : ∀ s, (f s).originalDefinition = s.originalDefinition) :
      Edits generics t (t'.update id f fun s => (same s).displayName)
  | fill {t' : SymbolTable} {name args : String} {definition : Nat} (edits : Edits generics t t')
      (id : Nat) (named : t'.nameOf? id = some (name ++ args))
      (generic : generics.lookup name = some definition) (opens : AreTypeArgs args)
      (nonempty : args ≠ "") (other : id ≠ definition) :
      Edits generics t (t'.setOriginalDefinition id definition)

namespace Edits

variable {generics : List (String × Nat)} {t t' t'' : SymbolTable}

theorem writes (h : Edits generics t t') : Writes generics t t' := by
  induction h with
  | refl => exact .refl
  | enter _ entry ih => exact ih.enter entry
  | link _ id same _ ih => exact ih.change id same
  | fill _ id _ _ _ _ _ ih => exact ih.setOriginalDefinition id _

theorem trans (h : Edits generics t t') (h' : Edits generics t' t'') : Edits generics t t'' := by
  induction h' with
  | refl => exact h
  | enter _ entry ih => exact ih.enter entry
  | link _ id same origin ih => exact ih.link id same origin
  | fill _ id named generic opens nonempty other ih =>
      exact ih.fill id named generic opens nonempty other

theorem setBase (h : Edits generics t t') (id base : Nat) :
    Edits generics t (t'.setBase id base) :=
  h.link id (fun s => s.sameIdentity_base _) fun _ => rfl

theorem addInterface (h : Edits generics t t') (id interface : Nat) :
    Edits generics t (t'.addInterface id interface) :=
  h.link id (fun s => s.sameIdentity_interface interface) fun s => by split <;> rfl

theorem foldl {α : Type} {f : SymbolTable → α → SymbolTable}
    (step : ∀ t x, Edits generics t (f t x)) (xs : List α) (t : SymbolTable) :
    Edits generics t (xs.foldl f t) := by
  induction xs generalizing t with
  | nil => exact .refl
  | cons x xs ih => exact (step t x).trans (ih _)

end Edits

/-- A table with more symbols, in which the old ones are what they were. -/
structure Grows (t t' : SymbolTable) : Prop where
  kept : ∀ {id s}, t.symbol? id = some s → ∃ s', t'.symbol? id = some s' ∧ s.SameIdentity s'
  new : ∀ {id s}, t.symbol? id = none → t'.symbol? id = some s → s.declared = []
  declarations : t'.declarations = t.declarations
  distinct : t.Distinct → t'.Distinct

theorem Grows.refl (t : SymbolTable) : Grows t t where
  kept h := ⟨_, h, .refl _⟩
  new none some := by simp [none] at some
  declarations := rfl
  distinct := id

theorem Grows.trans {t t' t'' : SymbolTable} (h : Grows t t') (h' : Grows t' t'') :
    Grows t t'' where
  kept found := by
    obtain ⟨s', found', same⟩ := h.kept found
    obtain ⟨s'', found'', same'⟩ := h'.kept found'
    exact ⟨s'', found'', same.trans same'⟩
  new {id s} none found := by
    cases middle : t'.symbol? id with
    | none => exact h'.new middle found
    | some s' =>
        obtain ⟨s'', found', same⟩ := h'.kept middle
        obtain rfl := Option.some.inj (found'.symm.trans found)
        rw [same.declared, h.new none middle]
  declarations := h'.declarations.trans h.declarations
  distinct := h'.distinct ∘ h.distinct

theorem Grows.keepsNames {t t' : SymbolTable} (h : Grows t t') : t.KeepsNames t' := by
  intro id name named
  obtain ⟨s, found, rfl⟩ := nameOf?_eq_some_iff.mp named
  obtain ⟨s', found', same⟩ := h.kept found
  exact nameOf?_eq_some_iff.mpr ⟨s', found', same.displayName⟩

theorem grows_addType (t : SymbolTable) (name : String) (kind : TypeKind) :
    Grows t (t.addType name kind).2 where
  kept {id s} found := by
    refine ⟨s, ?_, .refl s⟩
    rw [symbol?_addType, if_neg, found]
    rintro ⟨-, rfl⟩
    simp [symbol?_size] at found
  new {id s} none found := by
    rw [symbol?_addType] at found
    split at found
    · obtain rfl := Option.some.inj found
      rfl
    · simp [none] at found
  declarations := declarations_addType t name kind
  distinct h := h.addType name kind

theorem grows_update {t : SymbolTable} {f : TypeSymbol → TypeSymbol} (id : Nat)
    (same : ∀ s : TypeSymbol, s.SameIdentity (f s)) :
    Grows t (t.update id f fun s => (same s).displayName) where
  kept {j s} found := by
    rw [symbol?_update, found]
    split
    · exact ⟨_, rfl, same s⟩
    · exact ⟨_, rfl, .refl s⟩
  new {j s} none found := by simp [symbol?_update, none] at found
  declarations := rfl
  distinct h := by
    intro i j name hi hj
    rw [nameOf?_update fun s => (same s).displayName] at hi hj
    exact h i j name hi hj

theorem Writes.grows {generics : List (String × Nat)} {t t' : SymbolTable}
    (h : Writes generics t t') : Grows t t' := by
  induction h with
  | refl => exact .refl t
  | enter _ _ ih => exact ih.trans (grows_addType _ _ _)
  | change _ id same ih => exact ih.trans (grows_update id same)

end SymbolTable

open SymbolTable (Writes Edits Entry)

namespace Catalog

/-- Takes over the base of a type that has been entered, and links it. -/
def linkBase (list : List (String × CatalogType)) (id : Nat) (base : Option String)
    (t : SymbolTable) : SymbolTable :=
  match base with
  | none => t
  | some base =>
      match takeOver list base t with
      | none => t
      | some (baseId, t) => t.setBase id baseId

def linkInterface (list : List (String × CatalogType)) (id : Nat) (t : SymbolTable)
    (interface : String) : SymbolTable :=
  match takeOver list interface t with
  | none => t
  | some (interfaceId, t) => t.addInterface id interfaceId

theorem takeOver_cons (entry : String) (type : CatalogType) (rest : List (String × CatalogType))
    (name : String) (t : SymbolTable) :
    takeOver ((entry, type) :: rest) name t =
      if entry = name then
        match t.lookup? name with
        | some id => some (id, t)
        | none =>
            let added := t.addType name type.kind
            some (added.1, type.interfaces.foldl (linkInterface rest added.1)
              (linkBase rest added.1 type.base added.2))
      else takeOver rest name t := by
  rw [takeOver]
  rfl

/-- A type of the list is in the table already, or is entered with its links behind it. -/
def Taken (generics : List (String × Nat)) (list : List (String × CatalogType)) (name : String)
    (t : SymbolTable) (found : Nat × SymbolTable) : Prop :=
  t.lookup? name = some found.1 ∧ found.2 = t ∨
    t.lookup? name = none ∧ ∃ type, (name, type) ∈ list ∧
      found.1 = (t.addType name type.kind).1 ∧
      Writes generics (t.addType name type.kind).2 found.2

theorem Taken.nameOf? {generics : List (String × Nat)} {list : List (String × CatalogType)}
    {name : String} {t : SymbolTable} {found : Nat × SymbolTable}
    (h : Taken generics list name t found) : found.2.nameOf? found.1 = some name := by
  rcases h with ⟨known, same⟩ | ⟨-, type, -, id, links⟩
  · exact same ▸ SymbolTable.nameOf?_of_lookup? known
  · rw [id]
    exact links.grows.keepsNames _ _ (SymbolTable.nameOf?_addType_self t name type.kind)

section
variable {generics : List (String × Nat)} {list : List (String × CatalogType)}
  (takes : ∀ {name t found}, takeOver list name t = some found → Edits generics t found.2)
include takes

theorem edits_linkBase (id : Nat) (base : Option String) (t : SymbolTable) :
    Edits generics t (linkBase list id base t) := by
  cases base with
  | none => exact .refl
  | some base =>
      rw [linkBase]
      split
      · exact .refl
      · next taken => exact (takes taken).setBase id _

theorem edits_linkInterface (id : Nat) (t : SymbolTable) (interface : String) :
    Edits generics t (linkInterface list id t interface) := by
  rw [linkInterface]
  split
  · exact .refl
  · next taken => exact (takes taken).addInterface id _

theorem edits_links (id : Nat) (type : CatalogType) (t : SymbolTable) :
    Edits generics t (type.interfaces.foldl (linkInterface list id)
      (linkBase list id type.base t)) :=
  (edits_linkBase takes id type.base t).trans (.foldl (edits_linkInterface takes id) _ _)

end

theorem edits_takeOver (generics : List (String × Nat)) {list : List (String × CatalogType)}
    (listed : ∀ x ∈ list, x ∈ types) {name : String} {t : SymbolTable} {found : Nat × SymbolTable}
    (h : takeOver list name t = some found) : Edits generics t found.2 := by
  induction list generalizing name t found with
  | nil => simp [takeOver] at h
  | cons x rest ih =>
      obtain ⟨entry, type⟩ := x
      have listed' : ∀ x ∈ rest, x ∈ types := fun x hx => listed x (List.mem_cons_of_mem _ hx)
      rw [takeOver_cons] at h
      split at h
      · next eq =>
          subst eq
          split at h
          · obtain rfl := Option.some.inj h
            exact .refl
          · obtain rfl := Option.some.inj h
            exact (Edits.refl.enter (.framework (listed _ List.mem_cons_self))).trans
              (edits_links (ih listed') _ type _)
      · exact ih listed' h

theorem taken_takeOver (generics : List (String × Nat)) {list : List (String × CatalogType)}
    (listed : ∀ x ∈ list, x ∈ types) {name : String} {t : SymbolTable} {found : Nat × SymbolTable}
    (h : takeOver list name t = some found) : Taken generics list name t found := by
  induction list generalizing name t found with
  | nil => simp [takeOver] at h
  | cons x rest ih =>
      obtain ⟨entry, type⟩ := x
      have listed' : ∀ x ∈ rest, x ∈ types := fun x hx => listed x (List.mem_cons_of_mem _ hx)
      rw [takeOver_cons] at h
      split at h
      · next eq =>
          subst eq
          split at h
          · next known =>
              obtain rfl := Option.some.inj h
              exact .inl ⟨known, rfl⟩
          · next fresh =>
              obtain rfl := Option.some.inj h
              exact .inr ⟨fresh, type, List.mem_cons_self, rfl,
                (edits_links (edits_takeOver generics listed') _ type _).writes⟩
      · rcases ih listed' h with known | ⟨fresh, type, hx, links⟩
        · exact .inl known
        · exact .inr ⟨fresh, type, List.mem_cons_of_mem _ hx, links⟩

theorem taken_ensure? (generics : List (String × Nat)) {name : String} {t : SymbolTable}
    {found : Nat × SymbolTable} (h : ensure? name t = some found) :
    Taken generics types name t found :=
  taken_takeOver generics (fun _ listed => listed) h

theorem edits_ensure? (generics : List (String × Nat)) {name : String} {t : SymbolTable}
    {found : Nat × SymbolTable} (h : ensure? name t = some found) : Edits generics t found.2 :=
  edits_takeOver generics (fun _ listed => listed) h

theorem writes_ensure? (generics : List (String × Nat)) {name : String} {t : SymbolTable}
    {found : Nat × SymbolTable} (h : ensure? name t = some found) : Writes generics t found.2 :=
  (edits_ensure? generics h).writes

theorem takeOver_isSome_iff {list : List (String × CatalogType)} {name : String}
    {t : SymbolTable} : (takeOver list name t).isSome ↔ ∃ type, (name, type) ∈ list := by
  induction list with
  | nil => simp [takeOver]
  | cons x rest ih =>
      obtain ⟨entry, type⟩ := x
      rw [takeOver_cons]
      split
      · next eq =>
          subst eq
          split <;> simp
      · next ne =>
          rw [ih]
          simp [Ne.symm ne]

theorem ensure?_isSome_iff {name : String} {t : SymbolTable} :
    (ensure? name t).isSome ↔ (find? name).isSome := by
  rw [find?_isSome_iff]
  exact takeOver_isSome_iff

theorem ensure?_eq_none_iff {name : String} {t : SymbolTable} :
    ensure? name t = none ↔ find? name = none := by
  rw [← Option.not_isSome_iff_eq_none, ← Option.not_isSome_iff_eq_none, ensure?_isSome_iff]

end Catalog

namespace Binder

theorem edits_resolvePlain? (generics : List (String × Nat)) {candidates : List String}
    {t t' : SymbolTable} {id : Nat} (h : resolvePlain? candidates t = some (id, t')) :
    Edits generics t t' := by
  induction candidates with
  | nil => simp [resolvePlain?] at h
  | cons c rest ih =>
      rw [resolvePlain?] at h
      split at h
      · obtain ⟨-, rfl⟩ := Prod.mk.inj (Option.some.inj h)
        exact .refl
      · split at h
        · next taken =>
            obtain rfl := Option.some.inj h
            exact Catalog.edits_ensure? generics taken
        · exact ih h

theorem unlisted_of_resolvePlain? {candidates : List String} {t : SymbolTable}
    (h : resolvePlain? candidates t = none) : ∀ c ∈ candidates, Catalog.find? c = none := by
  induction candidates with
  | nil => simp
  | cons c rest ih =>
      rw [resolvePlain?] at h
      split at h
      · simp at h
      · split at h
        · simp at h
        · next absent =>
            rw [List.forall_mem_cons]
            exact ⟨Catalog.ensure?_eq_none_iff.mp absent, ih h⟩

/-- Fills a generic definition in: the result refers back to it, unless it is the definition. -/
def construct (t : SymbolTable) (name : String) (definition : Nat) : Nat × SymbolTable :=
  let added := t.addType name (((t.symbol? definition).map (·.kind)).getD .classType)
  (added.1, if added.1 = definition then added.2
    else added.2.setOriginalDefinition added.1 definition)

theorem resolveGeneric?_eq (generics : List (String × Nat)) (args : String) (t : SymbolTable)
    (candidates : List String) :
    resolveGeneric? generics args t candidates =
      (candidates.findSome? fun c => (generics.lookup c).map (c, ·)).map
        fun (c, definition) => construct t (c ++ args) definition := by
  induction candidates with
  | nil => rfl
  | cons c rest ih =>
      rw [resolveGeneric?, List.findSome?_cons]
      cases generics.lookup c with
      | none => exact ih
      | some definition =>
          simp only [Option.map_some, construct]
          split <;> rfl

theorem edits_construct {generics : List (String × Nat)} {name args : String} {definition : Nat}
    (generic : generics.lookup name = some definition) (opens : AreTypeArgs args)
    (nonempty : args ≠ "") (t : SymbolTable) :
    Edits generics t (construct t (name ++ args) definition).2 := by
  have entered (kind) : Edits generics t (t.addType (name ++ args) kind).2 :=
    Edits.refl.enter (.constructed kind (by simp [generic]) opens nonempty)
  rw [construct]
  dsimp only
  split
  · exact entered _
  · next other =>
      exact (entered _).fill _ (SymbolTable.nameOf?_addType_self _ _ _) generic opens nonempty other

theorem writes_construct {generics : List (String × Nat)} {name args : String} {definition : Nat}
    (generic : generics.lookup name = some definition) (opens : AreTypeArgs args)
    (nonempty : args ≠ "") (t : SymbolTable) :
    Writes generics t (construct t (name ++ args) definition).2 :=
  (edits_construct generic opens nonempty t).writes

theorem edits_resolveGeneric? {generics : List (String × Nat)} {args : String}
    (opens : AreTypeArgs args) (nonempty : args ≠ "") {candidates : List String}
    {t t' : SymbolTable} {id : Nat}
    (h : resolveGeneric? generics args t candidates = some (id, t')) : Edits generics t t' := by
  rw [resolveGeneric?_eq, Option.map_eq_some_iff] at h
  obtain ⟨⟨c, definition⟩, found, built⟩ := h
  obtain ⟨c', -, found⟩ := List.exists_of_findSome?_eq_some found
  obtain ⟨definition', known, same⟩ := Option.map_eq_some_iff.mp found
  obtain ⟨rfl, rfl⟩ := Prod.mk.inj same
  obtain ⟨-, rfl⟩ := Prod.mk.inj built
  exact edits_construct known opens nonempty t

theorem resolve?_eq (b : Binder) (scope : Scope) (reference : String) :
    b.resolve? scope reference =
      (if typeArgs (normalizeReference reference) = "" then
        resolvePlain? (scope.candidates (withoutTypeArgs (normalizeReference reference))) b.table
      else
        resolveGeneric? b.generics (typeArgs (normalizeReference reference)) b.table
          (scope.candidates (withoutTypeArgs (normalizeReference reference)))).map
        fun (id, table) => (id, { b with table }) := by
  rw [resolve?]
  simp only [String.isEmpty_iff]
  rfl

/-- A binder that has written to its table and kept all else. -/
structure Follows (b b' : Binder) : Prop where
  generics : b'.generics = b.generics
  declared : b'.declared = b.declared
  writes : Writes b.generics b.table b'.table

theorem Follows.refl (b : Binder) : Follows b b := ⟨rfl, rfl, .refl⟩

theorem Follows.trans {b b' b'' : Binder} (h : Follows b b') (h' : Follows b' b'') :
    Follows b b'' where
  generics := h'.generics.trans h.generics
  declared := h'.declared.trans h.declared
  writes := h.writes.trans (h.generics ▸ h'.writes)

/-- A binder that has edited its table and kept all else. -/
structure Edited (b b' : Binder) : Prop where
  generics : b'.generics = b.generics
  declared : b'.declared = b.declared
  edits : Edits b.generics b.table b'.table

theorem Edited.refl (b : Binder) : Edited b b := ⟨rfl, rfl, .refl⟩

theorem Edited.trans {b b' b'' : Binder} (h : Edited b b') (h' : Edited b' b'') : Edited b b'' where
  generics := h'.generics.trans h.generics
  declared := h'.declared.trans h.declared
  edits := h.edits.trans (h.generics ▸ h'.edits)

theorem Edited.follows {b b' : Binder} (h : Edited b b') : Follows b b' :=
  ⟨h.generics, h.declared, h.edits.writes⟩

theorem edited_resolve? {b b' : Binder} {scope : Scope} {reference : String} {id : Nat}
    (h : b.resolve? scope reference = some (id, b')) : Edited b b' := by
  rw [resolve?_eq, Option.map_eq_some_iff] at h
  obtain ⟨⟨id, table⟩, found, same⟩ := h
  obtain ⟨-, rfl⟩ := Prod.mk.inj same
  refine ⟨rfl, rfl, ?_⟩
  split at found
  · exact edits_resolvePlain? b.generics found
  · next nonempty => exact edits_resolveGeneric? (areTypeArgs_typeArgs _) nonempty found

theorem follows_resolve? {b b' : Binder} {scope : Scope} {reference : String} {id : Nat}
    (h : b.resolve? scope reference = some (id, b')) : Follows b b' :=
  (edited_resolve? h).follows

/-- A reference that does not resolve is not to a framework type. -/
theorem unlisted_of_resolve? {b : Binder} {scope : Scope} {reference : String}
    (h : b.resolve? scope reference = none) :
    Catalog.find? (normalizeReference reference) = none := by
  rw [resolve?_eq, Option.map_eq_none_iff] at h
  split at h
  · next empty =>
      have plain := typeArgs_eq_empty_iff.mp empty
      rw [withoutTypeArgs_of_plain plain] at h
      exact unlisted_of_resolvePlain? h _ (scope.mem_candidates_self _)
  · next nonempty =>
      exact Catalog.find?_of_not_plain fun plain => nonempty (typeArgs_eq_empty_iff.mpr plain)

theorem edited_addType {b : Binder} {name : String} {kind : TypeKind}
    (h : Entry b.generics name kind) :
    Edited b { b with table := (b.table.addType name kind).2 } :=
  ⟨rfl, rfl, Edits.refl.enter h⟩

theorem edited_resolveType (b : Binder) (scope : Scope) (reference : String) :
    Edited b (b.resolveType scope reference).2 := by
  rw [resolveType]
  split
  · next found => exact edited_resolve? found
  · next none => exact edited_addType (.unresolved (unlisted_of_resolve? none))

theorem follows_resolveType (b : Binder) (scope : Scope) (reference : String) :
    Follows b (b.resolveType scope reference).2 :=
  (edited_resolveType b scope reference).follows

/-- What an attribute's name resolves to, with the suffix first. -/
def attributeTarget? (b : Binder) (scope : Scope) (name : String) : Option (Nat × Binder) :=
  (if Text.endsWith "Attribute".toList name.toList then none
    else b.resolve? scope (name ++ "Attribute")).or (b.resolve? scope name)

theorem resolveAttribute_eq (b : Binder) (scope : Scope) (n : SyntaxNode) :
    b.resolveAttribute scope n =
      let name := n.identifier?.getD ""
      if name.isEmpty then (⟨name, none⟩, b)
      else
        match b.attributeTarget? scope name with
        | some (id, b) => (⟨name, some id⟩, b)
        | none =>
            let added := b.table.addType name .unresolved
            (⟨name, some added.1⟩, { b with table := added.2 }) := by
  simp only [attributeTarget?, Option.or_eq_orElse]
  rfl

theorem resolve?_of_attributeTarget? {b : Binder} {scope : Scope} {name : String}
    {found : Nat × Binder} (h : b.attributeTarget? scope name = some found) :
    ∃ reference, b.resolve? scope reference = some found := by
  rw [attributeTarget?, Option.or_eq_some_iff] at h
  rcases h with h | ⟨-, h⟩
  · split at h
    · simp at h
    · exact ⟨_, h⟩
  · exact ⟨_, h⟩

theorem unresolved_of_attributeTarget? {b : Binder} {scope : Scope} {name : String}
    (h : b.attributeTarget? scope name = none) : b.resolve? scope name = none := by
  rw [attributeTarget?, Option.or_eq_none_iff] at h
  exact h.2

theorem unlisted_of_attributeTarget? {b : Binder} {scope : Scope} {name : String}
    (h : b.attributeTarget? scope name = none) : Catalog.find? name = none := by
  rw [← Option.not_isSome_iff_eq_none]
  intro listed
  have unlisted := unlisted_of_resolve? (unresolved_of_attributeTarget? h)
  rw [normalizeReference_of_clean (Catalog.clean_of_find? listed)] at unlisted
  simp [unlisted] at listed

theorem edited_resolveAttribute (b : Binder) (scope : Scope) (n : SyntaxNode) :
    Edited b (b.resolveAttribute scope n).2 := by
  rw [resolveAttribute_eq]
  dsimp only
  split
  · exact .refl b
  · split
    · next found =>
        obtain ⟨reference, found⟩ := resolve?_of_attributeTarget? found
        exact edited_resolve? found
    · next none => exact edited_addType (.unresolved (unlisted_of_attributeTarget? none))

/-- Steps of the second pass, any number of them: it resolves references and attributes and
changes symbols apart from their identity. -/
inductive Passes (b : Binder) : Binder → Prop
  | refl : Passes b b
  | reference {b' : Binder} (passes : Passes b b') (scope : Scope) (reference : String) :
      Passes b (b'.resolveType scope reference).2
  | applied {b' : Binder} (passes : Passes b b') (scope : Scope) (n : SyntaxNode) :
      Passes b (b'.resolveAttribute scope n).2
  | change {b' : Binder} {f : TypeSymbol → TypeSymbol} (passes : Passes b b') (id : Nat)
      (same : ∀ s : TypeSymbol, s.SameIdentity (f s)) :
      Passes b { b' with table := b'.table.update id f fun s => (same s).displayName }

theorem Passes.follows {b b' : Binder} (h : Passes b b') : Follows b b' := by
  induction h with
  | refl => exact .refl b
  | reference _ scope reference ih =>
      exact ih.trans (edited_resolveType _ scope reference).follows
  | applied _ scope n ih => exact ih.trans (edited_resolveAttribute _ scope n).follows
  | change _ id same ih => exact ih.trans ⟨rfl, rfl, Writes.refl.change id same⟩

/-- The steps that the second pass takes by itself: besides resolving, it changes what symbols refer
to in all but their original definitions. -/
inductive Resolves (b : Binder) : Binder → Prop
  | refl : Resolves b b
  | reference {b' : Binder} (resolves : Resolves b b') (scope : Scope) (reference : String) :
      Resolves b (b'.resolveType scope reference).2
  | applied {b' : Binder} (resolves : Resolves b b') (scope : Scope) (n : SyntaxNode) :
      Resolves b (b'.resolveAttribute scope n).2
  | link {b' : Binder} {f : TypeSymbol → TypeSymbol} (resolves : Resolves b b') (id : Nat)
      (same : ∀ s : TypeSymbol, s.SameIdentity (f s))
      (origin : ∀ s, (f s).originalDefinition = s.originalDefinition) :
      Resolves b { b' with table := b'.table.update id f fun s => (same s).displayName }

namespace Resolves

variable {b b' b'' : Binder}

theorem passes (h : Resolves b b') : Passes b b' := by
  induction h with
  | refl => exact .refl
  | reference _ scope reference ih => exact ih.reference scope reference
  | applied _ scope n ih => exact ih.applied scope n
  | link _ id same _ ih => exact ih.change id same

theorem edited (h : Resolves b b') : Edited b b' := by
  induction h with
  | refl => exact .refl b
  | reference _ scope reference ih => exact ih.trans (edited_resolveType _ scope reference)
  | applied _ scope n ih => exact ih.trans (edited_resolveAttribute _ scope n)
  | link _ id same origin ih => exact ih.trans ⟨rfl, rfl, Edits.refl.link id same origin⟩

theorem trans (h : Resolves b b') (h' : Resolves b' b'') : Resolves b b'' := by
  induction h' with
  | refl => exact h
  | reference _ scope reference ih => exact ih.reference scope reference
  | applied _ scope n ih => exact ih.applied scope n
  | link _ id same origin ih => exact ih.link id same origin

theorem setBase (h : Resolves b b') (id base : Nat) :
    Resolves b { b' with table := b'.table.setBase id base } :=
  h.link id (fun s => s.sameIdentity_base _) fun _ => rfl

theorem addInterface (h : Resolves b b') (id interface : Nat) :
    Resolves b { b' with table := b'.table.addInterface id interface } :=
  h.link id (fun s => s.sameIdentity_interface interface) fun s => by split <;> rfl

theorem addAttribute (h : Resolves b b') (id : Nat) (a : AppliedAttribute) :
    Resolves b { b' with table := b'.table.addAttribute id a } :=
  h.link (f := fun s => { s with attributes := s.attributes ++ [a] }) id
    (fun _ => ⟨rfl, rfl, rfl, rfl, rfl, rfl⟩) fun _ => rfl

theorem addMember (h : Resolves b b') (id : Nat) (m : MemberSymbol) :
    Resolves b { b' with table := b'.table.addMember id m } :=
  h.link (f := fun s => { s with members := s.members ++ [m] }) id
    (fun _ => ⟨rfl, rfl, rfl, rfl, rfl, rfl⟩) fun _ => rfl

end Resolves

theorem resolves_resolveAttributes (scope : Scope) (ns : List SyntaxNode) (b : Binder) :
    Resolves b (resolveAttributes scope ns b).2 := by
  induction ns generalizing b with
  | nil => exact .refl
  | cons n ns ih => exact (Resolves.refl.applied scope n).trans (ih _)

/-- Links a declaration to what one reference of its base list resolved to. -/
def linkTarget (d : Declared) (reference : String) (position target : Nat) (b : Binder) : Binder :=
  let kind := (b.table.symbol? target).map (·.kind)
  if isBase d.node.kind kind (position == 0) reference then
    { b with table := b.table.setBase d.id target }
  else if d.node.kind = .enumDeclaration then b
  else { b with table := b.table.addInterface d.id target }

theorem resolveBases_cons (d : Declared) (scope : Scope) (reference : String) (position : Nat)
    (rest : List (String × Nat)) (b : Binder) :
    resolveBases d scope ((reference, position) :: rest) b =
      resolveBases d scope rest ((b.resolveType scope reference).2.linkTarget d reference position
        (b.resolveType scope reference).1) := by
  simp only [resolveBases, linkTarget, apply_ite (f := fun table : SymbolTable =>
    ({ (b.resolveType scope reference).2 with table } : Binder))]

theorem resolves_linkTarget (d : Declared) (reference : String) (position target : Nat)
    (b : Binder) : Resolves b (b.linkTarget d reference position target) := by
  rw [linkTarget]
  split
  · exact Resolves.refl.setBase d.id target
  · split
    · exact .refl
    · exact Resolves.refl.addInterface d.id target

theorem resolves_resolveBases (d : Declared) (scope : Scope) (references : List (String × Nat))
    (b : Binder) : Resolves b (resolveBases d scope references b) := by
  induction references generalizing b with
  | nil => exact .refl
  | cons x references ih =>
      obtain ⟨reference, position⟩ := x
      rw [resolveBases_cons]
      exact ((Resolves.refl.reference scope reference).trans
        (resolves_linkTarget d reference position _ _)).trans (ih _)

theorem resolves_resolveMembers (d : Declared) (scope : Scope) (ns : List SyntaxNode) (b : Binder) :
    Resolves b (resolveMembers d scope ns b) := by
  induction ns generalizing b with
  | nil => exact .refl
  | cons n ns ih =>
      rw [resolveMembers]
      exact ((resolves_resolveAttributes scope n.attributes b).addMember d.id _).trans (ih _)

theorem resolves_addAttributes (id : Nat) (attributes : List AppliedAttribute) (b : Binder) :
    Resolves b { b with table := attributes.foldl (fun t a => t.addAttribute id a) b.table } := by
  induction attributes generalizing b with
  | nil => exact .refl
  | cons a attributes ih =>
      exact (Resolves.refl.addAttribute id a).trans (ih { b with table := b.table.addAttribute id a })

theorem resolves_resolveDeclared (d : Declared) (b : Binder) : Resolves b (resolveDeclared d b) := by
  rw [resolveDeclared]
  exact (((resolves_resolveBases d _ _ b).trans (resolves_resolveAttributes _ _ _)).trans
    (resolves_addAttributes d.id _ _)).trans (resolves_resolveMembers d _ _ _)

theorem resolves_foldl (ds : List Declared) (b : Binder) :
    Resolves b (ds.foldl (fun b d => resolveDeclared d b) b) := by
  induction ds generalizing b with
  | nil => exact .refl
  | cons d ds ih => exact (resolves_resolveDeclared d b).trans (ih _)

theorem passes_foldl (ds : List Declared) (b : Binder) :
    Passes b (ds.foldl (fun b d => resolveDeclared d b) b) :=
  (resolves_foldl ds b).passes

end Binder

end Antipattern
