import Antipattern.Proofs.CleanNames
import Antipattern.Proofs.SecondPass

/-!
What a reference means. By then the table also holds unresolved names, types filled in with
arguments and framework types taken over on their first use. None of them changes a later answer:
the meaning of a reference is a function of the declarations, the catalog and the scope.
-/

namespace Antipattern

namespace Declaration

def isDeclared (ds : List Declaration) (name : String) : Bool :=
  ds.any fun d => d.display == name

/-- Whether a name is declared or in the catalog. -/
def isKnown (ds : List Declaration) (name : String) : Bool :=
  isDeclared ds name || (Catalog.find? name).isSome

/-- Whether a name is that of a generic type up to its type parameters. -/
def isGenericName (ds : List Declaration) (name : String) : Bool :=
  ds.any fun d => d.isGeneric && d.key == name

/-- The name of the type that a reference means: the nearest candidate that is known, or with type
arguments the nearest that names a generic type, filled in with them. -/
def meaning? (ds : List Declaration) (scope : Scope) (reference : String) : Option String :=
  let text := normalizeReference reference
  let candidates := scope.candidates (withoutTypeArgs text)
  if typeArgs text = "" then candidates.find? (isKnown ds)
  else (candidates.find? (isGenericName ds)).map (· ++ typeArgs text)

variable {ds : List Declaration} {name : String}

theorem isDeclared_iff : isDeclared ds name ↔ ∃ d ∈ ds, d.display = name := by
  simp [isDeclared]

theorem isKnown_iff :
    isKnown ds name ↔ isDeclared ds name ∨ (Catalog.find? name).isSome := by
  simp [isKnown]

theorem isGenericName_iff :
    isGenericName ds name ↔ ∃ d ∈ ds, d.isGeneric ∧ d.key = name := by
  simp [isGenericName]

theorem isGeneric_iff {d : Declaration} : d.isGeneric ↔ ¬ PlainName d.display := by
  simp [isGeneric, PlainName]

theorem plain_of_isGenericName (h : isGenericName ds name) : PlainName name := by
  obtain ⟨d, -, -, rfl⟩ := isGenericName_iff.mp h
  exact plain_withoutTypeArgs d.display

theorem CleanKeys.of_isGenericName (h : CleanKeys ds) (generic : isGenericName ds name) :
    CleanName name := by
  obtain ⟨d, hd, -, rfl⟩ := isGenericName_iff.mp generic
  exact h d hd

theorem isGenericName_of_declared (h : isDeclared ds name) (open' : ¬ PlainName name) :
    isGenericName ds (withoutTypeArgs name) := by
  obtain ⟨d, hd, rfl⟩ := isDeclared_iff.mp h
  exact isGenericName_iff.mpr ⟨d, hd, isGeneric_iff.mpr open', rfl⟩

/-- What a reference can mean: a known name, or a generic type filled in. -/
theorem meant_of_meaning? {scope : Scope} (plain : scope.Plain) {reference : String}
    (means : meaning? ds scope reference = some name) :
    PlainName name ∧ isKnown ds name ∨
      ¬ PlainName name ∧ isGenericName ds (withoutTypeArgs name) := by
  have plainName := plain_withoutTypeArgs (normalizeReference reference)
  rw [meaning?] at means
  split at means
  · exact .inl ⟨plain.candidates plainName name (List.mem_of_find?_eq_some means),
      List.find?_some means⟩
  · next nonempty =>
      have opens := areTypeArgs_typeArgs (normalizeReference reference)
      obtain ⟨c, found, rfl⟩ := Option.map_eq_some_iff.mp means
      have : PlainName c := plain.candidates plainName c (List.mem_of_find?_eq_some found)
      rw [withoutTypeArgs_append this opens]
      exact .inr ⟨not_plain_append opens nonempty, List.find?_some found⟩

/-- A reference without a meaning is itself neither a known name nor a generic type filled in. -/
theorem unknown_of_meaning? {scope : Scope} {reference : String}
    (means : meaning? ds scope reference = none) :
    ¬ isKnown ds (normalizeReference reference) ∧
      (PlainName (normalizeReference reference) ∨
        ¬ isGenericName ds (withoutTypeArgs (normalizeReference reference))) := by
  rw [meaning?] at means
  split at means
  · next empty =>
      have plain := typeArgs_eq_empty_iff.mp empty
      rw [withoutTypeArgs_of_plain plain] at means
      exact ⟨List.find?_eq_none.mp means _ (scope.mem_candidates_self _), .inl plain⟩
  · next nonempty =>
      have open' := fun plain => nonempty (typeArgs_eq_empty_iff.mpr plain)
      have notGeneric := List.find?_eq_none.mp (Option.map_eq_none_iff.mp means) _
        (scope.mem_candidates_self _)
      refine ⟨fun known => ?_, .inr notGeneric⟩
      rcases isKnown_iff.mp known with declared | listed
      · exact notGeneric (isGenericName_of_declared declared open')
      · exact open' (Catalog.clean_of_find? listed).plain

/-- Where declarations are found under clean names, a text without a meaning is neither known nor
filled in by the name that it is written with. -/
theorem CleanKeys.unknown_of_meaning? (clean : CleanKeys ds) {scope : Scope} {text : String}
    (means : meaning? ds scope text = none) :
    ¬ isKnown ds text ∧ (PlainName text ∨ ¬ isGenericName ds (withoutTypeArgs text)) := by
  obtain ⟨unknown, open'⟩ := Declaration.unknown_of_meaning? means
  have notFilled : PlainName text ∨ ¬ isGenericName ds (withoutTypeArgs text) := by
    refine open'.imp plain_normalizeReference_iff.mp fun notGeneric generic => notGeneric ?_
    rwa [withoutTypeArgs_normalizeReference (clean.of_isGenericName generic)]
  have notListed : ¬ (Catalog.find? text).isSome := by
    intro listed
    rw [normalizeReference_of_clean (Catalog.clean_of_find? listed)] at unknown
    exact unknown (isKnown_iff.mpr (.inr listed))
  refine ⟨fun known => ?_, notFilled⟩
  have declared := (isKnown_iff.mp known).resolve_right notListed
  by_cases plain : PlainName text
  · obtain ⟨d, hd, rfl⟩ := isDeclared_iff.mp declared
    have cleanName : CleanName d.display := withoutTypeArgs_of_plain plain ▸ clean d hd
    exact unknown ((normalizeReference_of_clean cleanName).symm ▸ known)
  · exact notFilled.elim plain fun notGeneric =>
      notGeneric (isGenericName_of_declared declared plain)

theorem kindOf_ne_unresolved (h : isDeclared ds name) : kindOf ds name ≠ .unresolved := by
  obtain ⟨d, hd, same⟩ := isDeclared_iff.mp h
  have found : (ds.find? (·.display == name)).isSome := List.find?_isSome.mpr ⟨d, hd, by simpa⟩
  obtain ⟨first, eq⟩ := Option.isSome_iff_exists.mp found
  rw [kindOf, eq]
  simp only [Option.map_some, Option.getD_some, TypeKind.ofNodeKind]
  split <;> simp

end Declaration

open Declaration

namespace Binder

/-- What the kinds of the symbols in a table say about their names. -/
structure Accounted (ds : List Declaration) (b : Binder) : Prop where
  distinct : b.table.Distinct
  generics : ∀ name, (b.generics.lookup name).isSome = isGenericName ds name
  declared : ∀ name, isDeclared ds name → ∃ id, b.table.nameOf? id = some name
  known : ∀ id s, b.table.symbol? id = some s → isKnown ds s.displayName → s.kind ≠ .unresolved
  resolved : ∀ id s, b.table.symbol? id = some s → s.kind ≠ .unresolved →
    isKnown ds s.displayName ∨
      ¬ PlainName s.displayName ∧ isGenericName ds (withoutTypeArgs s.displayName)

theorem Entered.accounted {ds : List Declaration} {b : Binder} (h : Entered ds b) :
    Accounted ds b := by
  have isDeclared_of_symbol : ∀ id s, b.table.symbol? id = some s → isDeclared ds s.displayName := by
    intro id s found
    exact isDeclared_iff.mpr
      ((h.names _).mp ⟨id, SymbolTable.nameOf?_eq_some_iff.mpr ⟨s, found, rfl⟩⟩)
  refine ⟨h.distinct, ?_, ?_, ?_, ?_⟩
  · intro name
    have keys : b.generics.map (·.1) = (ds.filter isGeneric).reverse.map key := by
      simpa [Function.comp_def] using congrArg (List.map Prod.fst) h.generics
    rw [Bool.eq_iff_iff, isGenericName_iff, List.lookup_isSome_iff]
    calc (∃ x ∈ b.generics, (name == x.1) = true)
      _ ↔ name ∈ b.generics.map (·.1) := by simp only [beq_iff_eq, List.mem_map, eq_comm (a := name)]
      _ ↔ ∃ d ∈ ds, d.isGeneric ∧ d.key = name := by simp [keys, and_assoc]
  · exact fun name declared => (h.names name).mpr (isDeclared_iff.mp declared)
  · intro id s found _
    rw [h.symbols id s found]
    exact kindOf_ne_unresolved (isDeclared_of_symbol id s found)
  · intro id s found _
    exact .inl (isKnown_iff.mpr (.inl (isDeclared_of_symbol id s found)))

theorem Accounted.enter {ds : List Declaration} {b : Binder} (h : Accounted ds b) {name : String}
    {kind : TypeKind} (entry : SymbolTable.Entry b.generics name kind) :
    Accounted ds { b with table := (b.table.addType name kind).2 } := by
  -- All that matters is what happens to a name that is new, and so not declared.
  have new (fresh : b.table.lookup? name = none) :
      (isKnown ds name → kind ≠ .unresolved) ∧ (kind ≠ .unresolved → isKnown ds name ∨
        ¬ PlainName name ∧ isGenericName ds (withoutTypeArgs name)) := by
    have undeclared : ¬ isDeclared ds name := by
      intro declared
      obtain ⟨id, named⟩ := h.declared name declared
      exact SymbolTable.lookup?_eq_none_iff.mp fresh id named
    rw [isKnown_iff, or_iff_right undeclared]
    cases entry with
    | @framework _ type listed =>
        have found := Catalog.find?_isSome_iff.mpr ⟨type, listed⟩
        exact ⟨fun _ => Catalog.kind_of_listed _ listed, fun _ => .inl found⟩
    | @constructed definition args _ generic opens nonempty =>
        rw [h.generics] at generic
        have open' : ¬ PlainName (definition ++ args) := not_plain_append opens nonempty
        refine ⟨fun listed => absurd (Catalog.clean_of_find? listed).plain open', fun _ => .inr ?_⟩
        rw [withoutTypeArgs_append (plain_of_isGenericName generic) opens]
        exact ⟨open', generic⟩
    | unresolved unlisted => simp [unlisted]
  refine ⟨h.distinct.addType name kind, h.generics, ?_, ?_, ?_⟩
  · intro other declared
    obtain ⟨id, named⟩ := h.declared other declared
    exact ⟨id, SymbolTable.keepsNames_addType _ _ _ id other named⟩
  · intro id s found
    rcases SymbolTable.symbol_of_addType found with old | ⟨fresh, -, rfl⟩
    · exact h.known id s old
    · exact (new fresh).1
  · intro id s found
    rcases SymbolTable.symbol_of_addType found with old | ⟨fresh, -, rfl⟩
    · exact h.resolved id s old
    · exact (new fresh).2

theorem Accounted.change {ds : List Declaration} {b : Binder} (h : Accounted ds b) (id : Nat)
    {f : TypeSymbol → TypeSymbol} (same : ∀ s : TypeSymbol, s.SameIdentity (f s)) :
    Accounted ds { b with table := b.table.update id f fun s => (same s).displayName } := by
  have grows := SymbolTable.grows_update (t := b.table) id same
  have symbols : ∀ j s, (b.table.update id f fun s => (same s).displayName).symbol? j = some s →
      ∃ old, b.table.symbol? j = some old ∧ old.SameIdentity s := by
    intro j s found
    rw [SymbolTable.symbol?_update] at found
    split at found
    · obtain ⟨old, before, rfl⟩ := Option.map_eq_some_iff.mp found
      exact ⟨old, before, same old⟩
    · exact ⟨s, found, .refl s⟩
  refine ⟨grows.distinct h.distinct, h.generics, ?_, ?_, ?_⟩
  · intro name declared
    obtain ⟨j, named⟩ := h.declared name declared
    exact ⟨j, grows.keepsNames j name named⟩
  · intro j s found
    obtain ⟨old, found, same⟩ := symbols j s found
    rw [same.displayName, same.kind]
    exact h.known j old found
  · intro j s found
    obtain ⟨old, found, same⟩ := symbols j s found
    rw [same.displayName, same.kind]
    exact h.resolved j old found

theorem Accounted.writes {ds : List Declaration} {b : Binder} (h : Accounted ds b)
    {t : SymbolTable} (writes : SymbolTable.Writes b.generics b.table t) :
    Accounted ds { b with table := t } := by
  induction writes with
  | refl => exact h
  | enter _ entry ih => exact ih.enter entry
  | change _ id same ih => exact ih.change id same

theorem Accounted.follows {ds : List Declaration} {b b' : Binder} (h : Accounted ds b)
    (follows : Follows b b') : Accounted ds b' := by
  obtain ⟨t, generics, declared⟩ := b'
  obtain ⟨rfl, rfl, writes⟩ := follows
  exact h.writes writes

section
variable {ds : List Declaration} {b : Binder}

/-- A symbol of the table, or else a framework type. -/
def fetch? (name : String) (t : SymbolTable) : Option (Nat × SymbolTable) :=
  match t.lookup? name with
  | some id => some (id, t)
  | none => Catalog.ensure? name t

theorem nameOf?_fetch? {name : String} {t : SymbolTable} {found : Nat × SymbolTable}
    (h : fetch? name t = some found) : found.2.nameOf? found.1 = some name := by
  rw [fetch?] at h
  split at h
  · next known =>
      obtain rfl := Option.some.inj h
      exact SymbolTable.nameOf?_of_lookup? known
  · exact (Catalog.taken_ensure? [] h).nameOf?

theorem Accounted.fetch?_isSome (h : Accounted ds b) {name : String} (known : isKnown ds name) :
    (fetch? name b.table).isSome := by
  rw [fetch?]
  split
  · rfl
  · next fresh =>
      rcases isKnown_iff.mp known with declared | listed
      · obtain ⟨id, named⟩ := h.declared name declared
        exact absurd named (SymbolTable.lookup?_eq_none_iff.mp fresh id)
      · exact Catalog.ensure?_isSome_iff.mpr listed

/-- What the resolver does with one candidate. -/
theorem resolvePlain?_cons (c : String) (rest : List String) (t : SymbolTable) :
    resolvePlain? (c :: rest) t =
      (((t.lookup? c).filter fun id => (t.symbol? id).map (·.kind) != some .unresolved).map
        (·, t)).or ((Catalog.ensure? c t).or (resolvePlain? rest t)) := by
  rw [resolvePlain?]
  cases (t.lookup? c).filter _ with
  | some id => rfl
  | none => cases Catalog.ensure? c t <;> rfl

theorem Accounted.resolvePlain?_eq (h : Accounted ds b) {candidates : List String}
    (plain : ∀ c ∈ candidates, PlainName c) :
    resolvePlain? candidates b.table =
      (candidates.find? (isKnown ds)).bind fun c => fetch? c b.table := by
  induction candidates with
  | nil => rfl
  | cons c rest ih =>
      have ih := ih fun c hc => plain c (List.mem_cons_of_mem _ hc)
      have plain := plain c List.mem_cons_self
      -- A symbol of this name is resolved exactly if the name is known.
      have resolved (id) (found : b.table.lookup? c = some id) :
          ((b.table.symbol? id).map (·.kind) != some .unresolved) = isKnown ds c := by
        obtain ⟨s, symbol, rfl⟩ :=
          SymbolTable.nameOf?_eq_some_iff.mp (SymbolTable.nameOf?_of_lookup? found)
        rw [symbol, Bool.eq_iff_iff]
        simp only [Option.map_some, bne_iff_ne, ne_eq, Option.some.injEq]
        constructor
        · intro kind
          rcases h.resolved id s symbol kind with known | ⟨open', -⟩
          · exact known
          · exact absurd plain open'
        · exact h.known id s symbol
      rw [resolvePlain?_cons, List.find?_cons, ih]
      cases found : b.table.lookup? c with
      | some id =>
          rw [Option.filter_some, resolved id found]
          cases known : isKnown ds c with
          | true => simp [fetch?, found]
          | false =>
              have unlisted : Catalog.find? c = none := by simp_all [isKnown]
              simp [Catalog.ensure?_eq_none_iff.mpr unlisted]
      | none =>
          cases known : isKnown ds c with
          | true =>
              have fetched : fetch? c b.table = Catalog.ensure? c b.table := by rw [fetch?, found]
              have taken := fetched ▸ h.fetch?_isSome known
              simp [fetched, Option.or_of_isSome taken]
          | false =>
              have unlisted : Catalog.find? c = none := by simp_all [isKnown]
              simp [Catalog.ensure?_eq_none_iff.mpr unlisted]

theorem Accounted.resolveGeneric?_eq (h : Accounted ds b) (args : String)
    (candidates : List String) :
    resolveGeneric? b.generics args b.table candidates =
      (candidates.find? (isGenericName ds)).bind fun c =>
        (b.generics.lookup c).map (construct b.table (c ++ args)) := by
  induction candidates with
  | nil => rfl
  | cons c rest ih =>
      have generic := h.generics c
      rw [Binder.resolveGeneric?_eq] at ih ⊢
      rw [List.find?_cons, List.findSome?_cons]
      cases found : b.generics.lookup c with
      | none =>
          rw [found] at generic
          simp only [Option.map_none, ← generic]
          exact ih
      | some definition =>
          rw [found] at generic
          simp [← generic, found]

/-- The symbol of a name that a reference means. -/
def provide? (b : Binder) (name : String) : Option (Nat × SymbolTable) :=
  if PlainName name then fetch? name b.table
  else (b.generics.lookup (withoutTypeArgs name)).map (construct b.table name)

theorem nameOf?_construct (t : SymbolTable) (name : String) (definition : Nat) :
    (construct t name definition).2.nameOf? (construct t name definition).1 = some name := by
  have named := SymbolTable.nameOf?_addType_self t name
    (((t.symbol? definition).map (·.kind)).getD .classType)
  rw [construct]
  dsimp only
  split
  · exact named
  · exact (SymbolTable.nameOf?_setOriginalDefinition _ _ _ _).trans named

theorem nameOf?_provide? {name : String} {found : Nat × SymbolTable}
    (h : b.provide? name = some found) : found.2.nameOf? found.1 = some name := by
  rw [provide?] at h
  split at h
  · exact nameOf?_fetch? h
  · obtain ⟨definition, -, rfl⟩ := Option.map_eq_some_iff.mp h
    exact nameOf?_construct _ _ _

theorem Accounted.resolve?_eq (h : Accounted ds b) {scope : Scope} (plain : scope.Plain)
    (reference : String) :
    b.resolve? scope reference = (meaning? ds scope reference).bind fun name =>
      (b.provide? name).map fun (id, table) => (id, { b with table }) := by
  have plainName := plain_withoutTypeArgs (normalizeReference reference)
  rw [Binder.resolve?_eq, meaning?]
  dsimp only
  split
  · rw [h.resolvePlain?_eq (plain.candidates plainName)]
    cases found : (scope.candidates _).find? (isKnown ds) with
    | none => rfl
    | some c =>
        have : PlainName c := plain.candidates plainName c (List.mem_of_find?_eq_some found)
        simp [provide?, this]
  · next nonempty =>
      have opens := areTypeArgs_typeArgs (normalizeReference reference)
      rw [h.resolveGeneric?_eq]
      cases found : (scope.candidates _).find? (isGenericName ds) with
      | none => rfl
      | some c =>
          have : PlainName c := plain.candidates plainName c (List.mem_of_find?_eq_some found)
          simp [provide?, not_plain_append opens nonempty, withoutTypeArgs_append this opens]

theorem Accounted.provide?_isSome (h : Accounted ds b) {scope : Scope} (plain : scope.Plain)
    {reference name : String} (means : meaning? ds scope reference = some name) :
    (b.provide? name).isSome := by
  rcases meant_of_meaning? plain means with ⟨plainName, known⟩ | ⟨open', generic⟩
  · rw [provide?, if_pos plainName]
    exact h.fetch?_isSome known
  · rw [provide?, if_neg open', Option.isSome_map, h.generics]
    exact generic

/-- A name without a meaning is never that of a resolved symbol. -/
theorem Accounted.unresolved_of_meaning? (h : Accounted ds b) {scope : Scope}
    {reference : String} (means : meaning? ds scope reference = none) {id : Nat} {s : TypeSymbol}
    (found : b.table.symbol? id = some s) (named : s.displayName = normalizeReference reference) :
    s.kind = .unresolved := by
  refine Decidable.byContradiction fun kind => ?_
  obtain ⟨unknown, plain | notGeneric⟩ := unknown_of_meaning? means
  · exact (h.resolved id s found kind).elim (named ▸ unknown) fun open' => open'.1 (named ▸ plain)
  · exact (h.resolved id s found kind).elim (named ▸ unknown) fun generic =>
      notGeneric (named ▸ generic.2)

theorem Accounted.resolveType_unresolved (h : Accounted ds b) {scope : Scope}
    {reference : String} (means : meaning? ds scope reference = none)
    (none : b.resolve? scope reference = none) :
    ∃ s, (b.resolveType scope reference).2.table.symbol? (b.resolveType scope reference).1 = some s ∧
      s.kind = .unresolved ∧ s.displayName = normalizeReference reference := by
  have named : (b.resolveType scope reference).2.table.nameOf? (b.resolveType scope reference).1 =
      some (normalizeReference reference) := by
    rw [resolveType, none]
    exact SymbolTable.nameOf?_addType_self _ _ _
  obtain ⟨s, found, name⟩ := SymbolTable.nameOf?_eq_some_iff.mp named
  have after := h.follows (follows_resolveType b scope reference)
  exact ⟨s, found, after.unresolved_of_meaning? means found name, name⟩

end

end Binder

namespace Binder

theorem plain_of_mem_declared {files : List ParsedFile} (clean : ∀ file ∈ files, file.Clean)
    {d : Declared} (hd : d ∈ (declareFiles files).declared) : d.scope.Plain := by
  have listed := List.mem_map_of_mem
    (f := fun x => ((x.tree, x.node, x.scope), (declareFiles files).table.nameOf? x.id)) hd
  rw [(entered_declareFiles files).declared] at listed
  obtain ⟨e, he, eq⟩ := List.mem_map.mp listed
  have scope : e.scope = d.scope := congrArg (fun x => x.1.2.2) eq
  exact scope ▸ (clean_of_mem_ofFiles clean he).2.1

/-- At every point of the second pass a reference resolves to what it means. -/
theorem resolve?_meaning (files : List ParsedFile) (clean : ∀ file ∈ files, file.Clean) :
    (∀ d ∈ (declareFiles files).declared, d.scope.Plain) ∧
      ∀ b, Passes (declareFiles files) b → ∀ scope : Scope, scope.Plain → ∀ reference,
        match meaning? (Declaration.ofFiles files) scope reference with
        | some name => ∃ id b', b.resolve? scope reference = some (id, b') ∧
            ∀ j, b'.table.nameOf? j = some name ↔ j = id
        | none => b.resolve? scope reference = none ∧
            ∃ id b' s, b.resolveType scope reference = (id, b') ∧ b'.table.symbol? id = some s ∧
              s.kind = .unresolved ∧ s.displayName = normalizeReference reference := by
  refine ⟨fun d => plain_of_mem_declared clean, fun b passes scope plain reference => ?_⟩
  have accounted : Accounted (Declaration.ofFiles files) b :=
    (entered_declareFiles files).accounted.follows passes.follows
  split
  · next name means =>
      obtain ⟨⟨id, table⟩, provided⟩ :=
        Option.isSome_iff_exists.mp (accounted.provide?_isSome plain means)
      have found : b.resolve? scope reference = some (id, { b with table }) := by
        rw [accounted.resolve?_eq plain, means]
        simp [provided]
      have named := nameOf?_provide? provided
      refine ⟨id, _, found, fun j => ⟨fun other => ?_, ?_⟩⟩
      · exact (accounted.follows (follows_resolve? found)).distinct j id name other named
      · rintro rfl
        exact named
  · next means =>
      have none : b.resolve? scope reference = none := by
        rw [accounted.resolve?_eq plain, means, Option.bind_none]
      obtain ⟨s, found, kind, name⟩ := accounted.resolveType_unresolved means none
      exact ⟨none, (b.resolveType scope reference).1, (b.resolveType scope reference).2, s,
        (Prod.eta _).symm, found, kind, name⟩

/-- A generic class, and a class with attributes that derives from it with a type argument. -/
def boxAndCrate : ParsedFile where
  tree :=
    { path := "Shop.cs"
      root :=
        { kind := .compilationUnit
          children := [
            { kind := .namespaceDeclaration
              name := some "Shop"
              children := [
                { kind := .classDeclaration
                  name := some "Box"
                  children := [{ kind := .typeParameterList, name := some "<T>" }] },
                { kind := .classDeclaration
                  name := some "Crate"
                  children := [
                    { kind := .attributeList
                      children := [
                        { kind := .attributeUse, name := some "global::System.Obsolete" },
                        { kind := .attributeUse, name := some "Tag < int >" }] },
                    { kind := .baseList
                      children := [{ kind := .other, name := some "Box<int>" }] }] }] }] } }

theorem resolve?_meaning_boxAndCrate :
    ∃ id b', ((declareFiles [boxAndCrate]).declared.foldl (fun b d => resolveDeclared d b)
        (declareFiles [boxAndCrate])).resolve? { namespaceName := "Shop.Orders" } "Box < int >" =
          some (id, b') ∧
      ∀ j, b'.table.nameOf? j = some "Shop.Box<int>" ↔ j = id := by
  have meaning : meaning? (Declaration.ofFiles [boxAndCrate]) { namespaceName := "Shop.Orders" }
      "Box < int >" = some "Shop.Box<int>" := by decide +kernel
  have resolved := (resolve?_meaning [boxAndCrate] (by decide +kernel)).2 _
    (passes_foldl (declareFiles [boxAndCrate]).declared _) { namespaceName := "Shop.Orders" }
    ⟨by decide, by decide⟩ "Box < int >"
  rw [meaning] at resolved
  exact resolved

end Binder
end Antipattern
