import Mathlib.Data.List.Nodup
import Antipattern.Proofs.CatalogClosure
import Antipattern.Proofs.NameResolution

/-!
References as effects on portraits. Resolving a reference adds the type that it means with what
that type needs, unless they are there. A type that no source declares looks the same whenever it
is added, so the declarations as a whole determine what it looks like.
-/

namespace Antipattern

namespace Declaration

/-- The generic type that a name up to its type parameters stands for. -/
def definition? (ds : List Declaration) (name : String) : Option String :=
  ((ds.filter isGeneric).reverse.map fun d => (d.key, d.display)).lookup name

/-- The portrait of a type that no source declares: one of the catalog, or a generic type filled
in, or unresolved. -/
def fresh (ds : List Declaration) (name : String) : Portrait :=
  match Catalog.find? name with
  | some type => type.portrait
  | none =>
      match if PlainName name then none else definition? ds (withoutTypeArgs name) with
      | some definition => { kind := kindOf ds definition, original := some definition }
      | none => { kind := .unresolved }

/-- The kind that a name stands for. -/
def kindIn (ds : List Declaration) (name : String) : TypeKind :=
  if isDeclared ds name then kindOf ds name else (fresh ds name).kind

/-- What is added for a name: the type with all that it needs. -/
def Adds (ds : List Declaration) : String → String → Prop :=
  Catalog.Needs (isDeclared ds)

/-- Each name is declared once, and up to type parameters each generic name is. -/
structure Unique (ds : List Declaration) : Prop where
  displays : (ds.map (·.display)).Nodup
  keys : ((ds.filter isGeneric).map key).Nodup

section
variable {ds : List Declaration} {name : String}

theorem fresh_listed {type : CatalogType} (h : Catalog.find? name = some type) :
    fresh ds name = type.portrait := by
  rw [fresh, h]

theorem fresh_constructed {definition : String} (unlisted : Catalog.find? name = none)
    (open' : ¬ PlainName name) (h : definition? ds (withoutTypeArgs name) = some definition) :
    fresh ds name = { kind := kindOf ds definition, original := some definition } := by
  rw [fresh, unlisted]
  simp [open', h]

theorem fresh_unresolved (unlisted : Catalog.find? name = none)
    (h : PlainName name ∨ definition? ds (withoutTypeArgs name) = none) :
    fresh ds name = { kind := .unresolved } := by
  rw [fresh, unlisted]
  rcases h with plain | none
  · simp [plain]
  · simp [none]

theorem definition?_isSome : (definition? ds name).isSome = isGenericName ds name := by
  rw [Bool.eq_iff_iff, definition?, List.lookup_isSome_iff, isGenericName_iff]
  constructor
  · rintro ⟨x, hx, same⟩
    obtain ⟨d, hd, rfl⟩ := List.mem_map.mp hx
    obtain ⟨hd, generic⟩ := List.mem_filter.mp (List.mem_reverse.mp hd)
    exact ⟨d, hd, generic, (beq_iff_eq.mp same).symm⟩
  · rintro ⟨d, hd, generic, rfl⟩
    exact ⟨_, List.mem_map_of_mem (List.mem_reverse.mpr (List.mem_filter.mpr ⟨hd, generic⟩)),
      beq_self_eq_true _⟩

theorem declared_of_definition? {definition : String} (h : definition? ds name = some definition) :
    ∃ d ∈ ds, d.isGeneric ∧ d.key = name ∧ d.display = definition := by
  obtain ⟨d, hd, same⟩ := List.mem_map.mp (mem_of_lookup h)
  obtain ⟨hd, generic⟩ := List.mem_filter.mp (List.mem_reverse.mp hd)
  exact ⟨d, hd, generic, congrArg Prod.fst same, congrArg Prod.snd same⟩

theorem Unique.definition?_key (unique : Unique ds) {d : Declaration} (hd : d ∈ ds)
    (generic : d.isGeneric) : definition? ds d.key = some d.display := by
  have found : (definition? ds d.key).isSome :=
    definition?_isSome.trans (isGenericName_iff.mpr ⟨d, hd, generic, rfl⟩)
  obtain ⟨definition, found⟩ := Option.isSome_iff_exists.mp found
  obtain ⟨e, he, generic', same, rfl⟩ := declared_of_definition? found
  have eq := List.inj_on_of_nodup_map unique.keys (List.mem_filter.mpr ⟨he, generic'⟩)
    (List.mem_filter.mpr ⟨hd, generic⟩) same
  rw [found, eq]

theorem Unique.split (unique : Unique ds) {d : Declaration} (hd : d ∈ ds) :
    ∃ before after, ds = before ++ d :: after ∧ (∀ e ∈ before, d.display ≠ e.display) ∧
      ∀ e ∈ after, d.display ≠ e.display := by
  obtain ⟨before, after, rfl⟩ := List.append_of_mem hd
  have nodup := unique.displays
  rw [List.map_append, List.map_cons, List.nodup_append, List.nodup_cons] at nodup
  obtain ⟨-, ⟨later, -⟩, apart⟩ := nodup
  refine ⟨before, after, rfl, fun e he same => ?_, fun e he same => ?_⟩
  · exact apart _ (List.mem_map_of_mem he) _ List.mem_cons_self same.symm
  · exact later (same ▸ List.mem_map_of_mem he)

theorem Unique.filter_display (unique : Unique ds) {d : Declaration} (hd : d ∈ ds) :
    ds.filter (·.display == d.display) = [d] := by
  obtain ⟨before, after, rfl, earlier, later⟩ := unique.split hd
  have others : ∀ es : List Declaration, (∀ e ∈ es, d.display ≠ e.display) →
      es.filter (·.display == d.display) = [] := by
    intro es apart
    rw [List.filter_eq_nil_iff]
    exact fun e he same => apart e he (beq_iff_eq.mp same).symm
  rw [List.filter_append, List.filter_cons, if_pos (beq_self_eq_true _), others before earlier,
    others after later, List.nil_append]

theorem Unique.kindOf (unique : Unique ds) {d : Declaration} (hd : d ∈ ds) :
    kindOf ds d.display = .ofNodeKind d.node.kind := by
  rw [Declaration.kindOf, ← List.head?_filter, unique.filter_display hd]
  rfl

theorem kindOf_of_undeclared (undeclared : ¬ isDeclared ds name) :
    Declaration.kindOf ds name = .unresolved := by
  have none : ds.find? (·.display == name) = none := by
    rw [List.find?_eq_none]
    exact fun d hd same => undeclared (isDeclared_iff.mpr ⟨d, hd, beq_iff_eq.mp same⟩)
  rw [Declaration.kindOf, none]
  rfl

theorem Unique.placesOf (unique : Unique ds) {d : Declaration} (hd : d ∈ ds) :
    placesOf ds d.display = [d.place] := by
  rw [Declaration.placesOf, unique.filter_display hd]
  rfl

/-- A declared name with type parameters is the definition of its own key. -/
theorem Unique.definition?_of_declared (unique : Unique ds) (declared : isDeclared ds name)
    (open' : ¬ PlainName name) : definition? ds (withoutTypeArgs name) = some name := by
  obtain ⟨d, hd, rfl⟩ := isDeclared_iff.mp declared
  exact unique.definition?_key hd (isGeneric_iff.mpr open')

theorem adds_of_unlisted (unlisted : Catalog.find? name = none) {other : String} :
    Adds ds name other ↔ other = name := by
  constructor
  · intro adds
    cases adds with
    | self => rfl
    | link _ listed => simp [unlisted] at listed
  · rintro rfl
    exact .self other

/-- The type that a base list's reference stands for. -/
def target (ds : List Declaration) (scope : Scope) (reference : String) : String :=
  (meaning? ds scope reference).getD (normalizeReference reference)

/-- The class that an attribute's name means: first with the usual suffix. -/
def attributeMeaning? (ds : List Declaration) (scope : Scope) (name : String) : Option String :=
  (if Text.endsWith "Attribute".toList name.toList then none
    else meaning? ds scope (name ++ "Attribute")).or (meaning? ds scope name)

def attributePortrait (ds : List Declaration) (scope : Scope) (n : SyntaxNode) :
    AttributePortrait :=
  let name := n.identifier?.getD ""
  ⟨name, if name.isEmpty then none else some ((attributeMeaning? ds scope name).getD name)⟩

end

end Declaration

open Declaration

namespace Binder

/-- A point of the second pass at which all references so far are settled. -/
structure Settled (ds : List Declaration) (b : Binder) : Prop where
  accounted : Accounted ds b
  sound : b.table.Sound
  definitions : ∀ name,
    (b.generics.lookup name).map b.table.nameOf? = (definition? ds name).map some
  kinds : ∀ {name p}, isDeclared ds name → b.table.portrait? name = some p →
    p.kind = kindOf ds name
  others : ∀ {name p}, isDeclared ds name = false → b.table.portrait? name = some p →
    p = fresh ds name
  saturated : Catalog.Saturated (isDeclared ds) Catalog.types b.table

/-- A part of the second pass: it adds some names, and changes the portraits of declared types. -/
structure Step (ds : List Declaration) (g : String → Portrait → Portrait) (new : String → Prop)
    (b b' : Binder) : Prop where
  settled : Settled ds b'
  follows : Follows b b'
  names : ∀ name, b'.table.Has name ↔ b.table.Has name ∨ new name
  portraits : ∀ name, isDeclared ds name →
    b'.table.portrait? name = (b.table.portrait? name).map (g name)

section
variable {ds : List Declaration} {b b' b'' : Binder} {g g' : String → Portrait → Portrait}
  {new new' : String → Prop}

theorem Step.refl (h : Settled ds b) : Step ds (fun _ p => p) (fun _ => False) b b :=
  ⟨h, .refl b, by simp, by simp⟩

theorem Step.trans (h : Step ds g new b b') (h' : Step ds g' new' b' b'') :
    Step ds (fun name p => g' name (g name p)) (fun name => new name ∨ new' name) b b'' where
  settled := h'.settled
  follows := h.follows.trans h'.follows
  names name := by rw [h'.names, h.names, or_assoc]
  portraits name declared := by
    rw [h'.portraits name declared, h.portraits name declared, Option.map_map]
    rfl

/-- The same effect in other words. -/
theorem Step.congr (h : Step ds g new b b')
    (effect : ∀ name p, isDeclared ds name → b.table.portrait? name = some p →
      g name p = g' name p)
    (names : ∀ name, new name ↔ new' name) : Step ds g' new' b b' where
  settled := h.settled
  follows := h.follows
  names name := by rw [h.names, names]
  portraits name declared := by
    rw [h.portraits name declared]
    exact Option.map_congr fun p drawn => effect name p declared drawn

theorem Step.adds (h : Step ds g new b b') (names : ∀ name, new name ↔ new' name) :
    Step ds g new' b b' :=
  h.congr (fun _ _ _ _ => rfl) names

theorem Settled.has (h : Settled ds b) {name : String} (declared : isDeclared ds name) :
    b.table.Has name :=
  h.accounted.declared name declared

theorem Settled.has_of_adds (h : Settled ds b) {name other : String} (present : b.table.Has name)
    (adds : Adds ds name other) : b.table.Has other := by
  cases adds with
  | self => exact present
  | link undeclared found hr needs =>
      obtain ⟨type, listed⟩ := Catalog.find?_isSome_iff.mp (Option.isSome_of_eq_some found)
      exact h.saturated.has Catalog.ordered_types (fun _ hx => hx) ⟨_, listed, rfl⟩ present
        (.link undeclared found hr needs)

/-- Changing the table within the effect of a step. -/
theorem Settled.step (h : Settled ds b) {t : SymbolTable}
    (writes : SymbolTable.Writes b.generics b.table t) (sound : t.Sound)
    (names : ∀ name, t.Has name ↔ b.table.Has name ∨ new name)
    (portraits : ∀ name, isDeclared ds name →
      t.portrait? name = (b.table.portrait? name).map (g name))
    (kind : ∀ name p, (g name p).kind = p.kind)
    (others : ∀ name p, isDeclared ds name = false → t.portrait? name = some p →
      p = fresh ds name)
    (saturated : Catalog.Saturated (isDeclared ds) Catalog.types t) :
    Step ds g new b { b with table := t } where
  settled :=
    { accounted := h.accounted.writes writes
      sound
      definitions := by
        intro name
        rw [← h.definitions name]
        cases found : b.generics.lookup name with
        | none => rfl
        | some id =>
            have named := h.definitions name
            rw [found, Option.map_some] at named
            obtain ⟨definition, -, same⟩ := Option.map_eq_some_iff.mp named.symm
            rw [Option.map_some, Option.map_some, ← same,
              writes.grows.keepsNames id definition same.symm]
      kinds := by
        intro name p declared drawn
        rw [portraits name declared] at drawn
        obtain ⟨old, before, rfl⟩ := Option.map_eq_some_iff.mp drawn
        rw [kind, h.kinds declared before]
      others := fun undeclared => others _ _ undeclared
      saturated }
  follows := ⟨rfl, rfl, writes⟩
  names := names
  portraits := portraits

theorem Settled.stay (h : Settled ds b) {name : String} (present : b.table.Has name) :
    Step ds (fun _ p => p) (Adds ds name) b b where
  settled := h
  follows := .refl b
  names other := by
    rw [iff_self_or]
    exact h.has_of_adds present
  portraits := by simp

theorem Settled.step_ensure? (h : Settled ds b) {name : String}
    (listed : (Catalog.find? name).isSome) :
    ∃ found, Catalog.ensure? name b.table = some found ∧ found.2.nameOf? found.1 = some name ∧
      Step ds (fun _ p => p) (Adds ds name) b { b with table := found.2 } := by
  obtain ⟨found, taken, outcome⟩ :=
    Catalog.takesOver_ensure? listed h.sound (fun _ declared => h.has declared) h.saturated
  refine ⟨found, taken, outcome.named, h.step (Catalog.writes_ensure? b.generics taken)
    outcome.sound outcome.names ?_ (fun _ _ => rfl) ?_ outcome.saturated⟩
  · intro other declared
    rw [outcome.old other (h.has declared), Option.map_id_fun']
    rfl
  · intro other p undeclared drawn
    by_cases present : b.table.Has other
    · rw [outcome.old other present] at drawn
      exact h.others undeclared drawn
    · obtain ⟨type, listed, looks⟩ :=
        outcome.new other present (SymbolTable.has_of_portrait? drawn)
      rw [fresh_listed listed]
      exact Option.some.inj (drawn.symm.trans looks)

theorem Settled.step_fetch? (h : Settled ds b) {name : String} (known : isKnown ds name) :
    ∃ found, fetch? name b.table = some found ∧
      Step ds (fun _ p => p) (Adds ds name) b { b with table := found.2 } := by
  cases present : b.table.lookup? name with
  | some id =>
      exact ⟨(id, b.table), by rw [fetch?, present],
        h.stay ⟨id, SymbolTable.nameOf?_of_lookup? present⟩⟩
  | none =>
      have listed : (Catalog.find? name).isSome := by
        refine (isKnown_iff.mp known).resolve_left fun declared => ?_
        obtain ⟨id, named⟩ := h.has declared
        exact SymbolTable.lookup?_eq_none_iff.mp present id named
      obtain ⟨found, taken, -, step⟩ := h.step_ensure? listed
      exact ⟨found, by rw [fetch?, present, taken], step⟩

/-- Adding a type that the catalog does not list. -/
theorem Settled.step_new (h : Settled ds b) {name : String} (absent : ¬ b.table.Has name)
    (unlisted : Catalog.find? name = none) {t : SymbolTable}
    (writes : SymbolTable.Writes b.generics b.table t) (sound : t.Sound)
    (portraits : ∀ other, t.portrait? other =
      if other = name then some (fresh ds name) else b.table.portrait? other) :
    Step ds (fun _ p => p) (Adds ds name) b { b with table := t } := by
  have names : ∀ other, t.Has other ↔ b.table.Has other ∨ other = name := by
    intro other
    rw [SymbolTable.has_iff, SymbolTable.has_iff, portraits]
    split
    · next same => simp [same]
    · next differs => simp [differs]
  refine h.step writes sound ?_ ?_ (fun _ _ => rfl) ?_ ?_
  · intro other
    rw [names, adds_of_unlisted unlisted]
  · intro other declared
    have differs : other ≠ name := by
      rintro rfl
      exact absent (h.has declared)
    rw [portraits, if_neg differs]
    simp
  · intro other p undeclared drawn
    rw [portraits] at drawn
    split at drawn
    · next same =>
        rw [same]
        exact (Option.some.inj drawn).symm
    · exact h.others undeclared drawn
  · intro x hx undeclared present r hr
    rcases (names x.1).mp present with old | same
    · exact (names r).mpr (.inl (h.saturated x hx undeclared old r hr))
    · rw [← same, Catalog.find?_of_mem hx] at unlisted
      simp at unlisted

theorem Settled.step_unresolved (h : Settled ds b) {name : String}
    (unknown : ¬ isKnown ds name)
    (open' : PlainName name ∨ ¬ isGenericName ds (withoutTypeArgs name)) :
    Step ds (fun _ p => p) (Adds ds name) b
      { b with table := (b.table.addType name .unresolved).2 } := by
  have unlisted : Catalog.find? name = none := by
    rw [isKnown_iff, not_or] at unknown
    simpa using unknown.2
  have looks : fresh ds name = { kind := .unresolved } := by
    refine fresh_unresolved unlisted (open'.imp_right fun notGeneric => ?_)
    rwa [← definition?_isSome, Option.not_isSome_iff_eq_none] at notGeneric
  by_cases present : b.table.Has name
  · rw [SymbolTable.addType_of_has present]
    exact h.stay present
  · refine h.step_new present unlisted (.enter .refl (.unresolved unlisted))
      (h.sound.addType name _) fun other => ?_
    rw [h.sound.portrait?_addType present, looks]

/-- The kind that the table gives to a type. -/
theorem Settled.kind_of_named (h : Settled ds b) {id : Nat} {name : String}
    (named : b.table.nameOf? id = some name) :
    (b.table.symbol? id).map (·.kind) = some (kindIn ds name) := by
  obtain ⟨s, found, rfl⟩ := SymbolTable.nameOf?_eq_some_iff.mp named
  have drawn := h.sound.distinct.portrait?_eq found
  have kind : (s.portrait b.table.nameAt).kind = s.kind := rfl
  rw [found, Option.map_some, kindIn, ← kind]
  split
  · next declared => rw [h.kinds declared drawn]
  · next undeclared => rw [← h.others (by simpa using undeclared) drawn]

theorem Settled.definition_named (h : Settled ds b) {name : String} {id : Nat}
    (generic : b.generics.lookup name = some id) :
    ∃ definition, definition? ds name = some definition ∧
      b.table.nameOf? id = some definition := by
  have names := h.definitions name
  rw [generic, Option.map_some] at names
  obtain ⟨definition, found, named⟩ := Option.map_eq_some_iff.mp names.symm
  exact ⟨definition, found, named.symm⟩

/-- A change of one portrait. -/
def onlyAt (name : String) (f : Portrait → Portrait) (other : String) (p : Portrait) : Portrait :=
  if other = name then f p else p

theorem Settled.step_redraw (h : Settled ds b) {name : String} {t : SymbolTable}
    {f : Portrait → Portrait} (redraws : SymbolTable.Redraws b.table t name f)
    (writes : SymbolTable.Writes b.generics b.table t) (kind : ∀ p, (f p).kind = p.kind)
    (undeclared : isDeclared ds name = false → f (fresh ds name) = fresh ds name) :
    Step ds (onlyAt name f) (fun _ => False) b { b with table := t } := by
  refine h.step writes redraws.sound ?_ ?_ ?_ ?_ ?_
  · intro other
    rw [redraws.has, or_false]
  · intro other _
    rw [redraws.portrait?]
    unfold onlyAt
    split <;> simp
  · intro other p
    unfold onlyAt
    split
    · exact kind p
    · rfl
  · intro other p undeclared' drawn
    rw [redraws.portrait?] at drawn
    split at drawn
    · next same =>
        subst same
        obtain ⟨old, before, rfl⟩ := Option.map_eq_some_iff.mp drawn
        rw [h.others undeclared' before, undeclared undeclared']
    · exact h.others undeclared' drawn
  · intro x hx undeclared' present r hr
    rw [redraws.has] at present ⊢
    exact h.saturated x hx undeclared' present r hr

section
variable {name original : String} {definition : Nat} (h : Settled ds b)
  (open' : ¬ PlainName name) (known : definition? ds (withoutTypeArgs name) = some original)
  (named : b.table.nameOf? definition = some original)
include h open' known named

/-- A type that was filled in before already refers to its definition. -/
theorem Settled.step_refilled (unique : Unique ds) {id : Nat}
    (present : b.table.nameOf? id = some name) (differs : id ≠ definition) :
    Step ds (fun _ p => p) (Adds ds name) b
      { b with table := b.table.setOriginalDefinition id definition } := by
  have looks := fresh_constructed (Catalog.find?_of_not_plain open') open' known
  -- A declared type of this name would be the definition.
  have undeclared : ¬ isDeclared ds name := by
    intro declared
    rw [unique.definition?_of_declared declared open'] at known
    exact differs (h.sound.distinct id definition name present (Option.some.inj known ▸ named))
  have redraws := h.sound.redraws_setOriginalDefinition present named
  have same := h.step_redraw redraws (SymbolTable.Writes.refl.setOriginalDefinition _ _)
    (fun _ => rfl) fun _ => by rw [looks]
  refine ((h.stay ⟨id, present⟩).trans same).congr ?_ (by simp)
  intro other p declared _
  have differs : other ≠ name := by
    rintro rfl
    exact undeclared declared
  exact if_neg differs

/-- A type that is filled in for the first time. -/
theorem Settled.step_filled (absent : ¬ b.table.Has name) {t : SymbolTable}
    (table : t = (b.table.addType name (kindOf ds original)).2.setOriginalDefinition
      (b.table.addType name (kindOf ds original)).1 definition)
    (writes : SymbolTable.Writes b.generics b.table t) :
    Step ds (fun _ p => p) (Adds ds name) b { b with table := t } := by
  have unlisted := Catalog.find?_of_not_plain open'
  have redraws := (h.sound.addType name (kindOf ds original)).redraws_setOriginalDefinition
    (SymbolTable.nameOf?_addType_self _ _ _)
    (SymbolTable.keepsNames_addType b.table name (kindOf ds original) _ _ named)
  subst table
  refine h.step_new absent unlisted writes redraws.sound fun other => ?_
  rw [redraws.portrait?, h.sound.portrait?_addType absent, fresh_constructed unlisted open' known]
  split <;> rfl

end

theorem Settled.step_construct (h : Settled ds b) (unique : Unique ds) {name : String}
    (open' : ¬ PlainName name) {definition : Nat}
    (generic : b.generics.lookup (withoutTypeArgs name) = some definition) :
    Step ds (fun _ p => p) (Adds ds name) b
      { b with table := (construct b.table name definition).2 } := by
  obtain ⟨original, known, named⟩ := h.definition_named generic
  have writes : SymbolTable.Writes b.generics b.table (construct b.table name definition).2 := by
    have writes := writes_construct generic (areTypeArgs_typeArgs name)
      (fun empty => open' (typeArgs_eq_empty_iff.mp empty)) b.table
    rwa [withoutTypeArgs_append_typeArgs] at writes
  have kind : (b.table.symbol? definition).map (·.kind) = some (kindOf ds original) := by
    obtain ⟨d, hd, -, -, rfl⟩ := declared_of_definition? known
    rw [h.kind_of_named named, kindIn, if_pos (isDeclared_iff.mpr ⟨d, hd, rfl⟩)]
  rw [construct, kind, Option.getD_some] at writes ⊢
  dsimp only at writes ⊢
  cases lookup : b.table.lookup? name with
  | some id =>
      have present := SymbolTable.nameOf?_of_lookup? lookup
      rw [SymbolTable.addType_of_known lookup]
      by_cases same : id = definition
      · rw [if_pos same]
        exact h.stay ⟨id, present⟩
      · rw [if_neg same]
        exact h.step_refilled open' known named unique present same
  | none =>
      have absent : ¬ b.table.Has name := by
        rintro ⟨id, present⟩
        exact SymbolTable.lookup?_eq_none_iff.mp lookup id present
      -- The new symbol is not the definition, which has been there before.
      have differs : (b.table.addType name (kindOf ds original)).1 ≠ definition := by
        intro same
        have new := SymbolTable.nameOf?_addType_self b.table name (kindOf ds original)
        rw [same, SymbolTable.keepsNames_addType _ _ _ _ _ named] at new
        exact absent ⟨definition, named.trans new⟩
      exact h.step_filled open' known named absent (if_neg differs) writes

/-- The symbol of a name that a reference means. -/
theorem Settled.step_provide? (h : Settled ds b) (unique : Unique ds) {scope : Scope}
    (plain : scope.Plain) {reference name : String}
    (means : meaning? ds scope reference = some name) :
    ∃ found, b.provide? name = some found ∧ found.2.nameOf? found.1 = some name ∧
      Step ds (fun _ p => p) (Adds ds name) b { b with table := found.2 } := by
  have provided : ∃ found, b.provide? name = some found ∧
      Step ds (fun _ p => p) (Adds ds name) b { b with table := found.2 } := by
    rcases meant_of_meaning? plain means with ⟨plainName, known⟩ | ⟨open', generic⟩
    · rw [provide?, if_pos plainName]
      exact h.step_fetch? known
    · rw [← h.accounted.generics] at generic
      obtain ⟨definition, found⟩ := Option.isSome_iff_exists.mp generic
      exact ⟨_, by rw [provide?, if_neg open', found, Option.map_some],
        h.step_construct unique open' found⟩
  obtain ⟨found, eq, step⟩ := provided
  exact ⟨found, eq, nameOf?_provide? eq, step⟩

theorem Settled.step_resolveType (h : Settled ds b) (unique : Unique ds) {scope : Scope}
    (plain : scope.Plain) (reference : String) :
    Step ds (fun _ p => p) (Adds ds (target ds scope reference)) b
        (b.resolveType scope reference).2 ∧
      (b.resolveType scope reference).2.table.nameOf? (b.resolveType scope reference).1 =
        some (target ds scope reference) := by
  have resolved := h.accounted.resolve?_eq plain reference
  rw [resolveType, target]
  cases means : meaning? ds scope reference with
  | some name =>
      obtain ⟨found, provided, named, step⟩ := h.step_provide? unique plain means
      rw [means, Option.bind_some, provided, Option.map_some] at resolved
      rw [resolved]
      exact ⟨step, named⟩
  | none =>
      rw [means, Option.bind_none] at resolved
      rw [resolved]
      obtain ⟨unknown, notGeneric⟩ := unknown_of_meaning? means
      exact ⟨h.step_unresolved unknown notGeneric, SymbolTable.nameOf?_addType_self _ _ _⟩

/-- What an attribute's name resolves to is what it means. -/
theorem Settled.attributeTarget?_eq (h : Settled ds b) {scope : Scope} (plain : scope.Plain)
    (name : String) :
    b.attributeTarget? scope name = (attributeMeaning? ds scope name).bind fun name =>
      (b.provide? name).map fun (id, table) => (id, { b with table }) := by
  rw [attributeTarget?, attributeMeaning?, h.accounted.resolve?_eq plain,
    h.accounted.resolve?_eq plain]
  split
  · simp
  · cases means : meaning? ds scope (name ++ "Attribute") with
    | none => simp
    | some suffixed =>
        obtain ⟨found, provided⟩ :=
          Option.isSome_iff_exists.mp (h.accounted.provide?_isSome plain means)
        simp [provided]

theorem meaning_of_attributeMeaning? {scope : Scope} {name means : String}
    (h : attributeMeaning? ds scope name = some means) :
    ∃ reference, meaning? ds scope reference = some means := by
  rw [attributeMeaning?, Option.or_eq_some_iff] at h
  rcases h with h | ⟨-, h⟩
  · split at h
    · simp at h
    · exact ⟨_, h⟩
  · exact ⟨_, h⟩

theorem Settled.step_resolveAttribute (h : Settled ds b) (unique : Unique ds) {scope : Scope}
    (plain : scope.Plain) (clean : CleanKeys ds) (n : SyntaxNode) :
    Step ds (fun _ p => p)
        (fun name => ∃ type ∈ (attributePortrait ds scope n).type, Adds ds type name) b
        (b.resolveAttribute scope n).2 ∧
      (b.resolveAttribute scope n).2.table.Depicts [(b.resolveAttribute scope n).1]
        [attributePortrait ds scope n] := by
  have resolved := h.attributeTarget?_eq plain (n.identifier?.getD "")
  rw [resolveAttribute_eq, attributePortrait]
  dsimp only
  split
  · exact ⟨(Step.refl h).adds (by simp), by simp [AppliedAttribute.portrait], by simp⟩
  · next nonempty =>
    cases means : attributeMeaning? ds scope (n.identifier?.getD "") with
    | some type =>
        obtain ⟨reference, meaning⟩ := meaning_of_attributeMeaning? means
        obtain ⟨found, provided, named, step⟩ := h.step_provide? unique plain meaning
        rw [means, Option.bind_some, provided, Option.map_some] at resolved
        rw [resolved]
        exact ⟨step.adds (by simp), by
          simp [AppliedAttribute.portrait, SymbolTable.nameAt_of_nameOf? named], by simp [named]⟩
    | none =>
        have meaning : meaning? ds scope (n.identifier?.getD "") = none := by
          rw [attributeMeaning?, Option.or_eq_none_iff] at means
          exact means.2
        obtain ⟨unknown, notGeneric⟩ := clean.unknown_of_meaning? meaning
        rw [means, Option.bind_none] at resolved
        rw [resolved]
        have named := SymbolTable.nameOf?_addType_self b.table (n.identifier?.getD "") .unresolved
        exact ⟨(h.step_unresolved unknown notGeneric).adds (by simp), by
          simp [AppliedAttribute.portrait, SymbolTable.nameAt_of_nameOf? named], by simp [named]⟩

theorem Settled.step_resolveAttributes (h : Settled ds b) (unique : Unique ds) {scope : Scope}
    (plain : scope.Plain) (clean : CleanKeys ds) (ns : List SyntaxNode) :
    Step ds (fun _ p => p)
        (fun name => ∃ n ∈ ns, ∃ type ∈ (attributePortrait ds scope n).type, Adds ds type name) b
        (resolveAttributes scope ns b).2 ∧
      (resolveAttributes scope ns b).2.table.Depicts (resolveAttributes scope ns b).1
        (ns.map (attributePortrait ds scope)) := by
  induction ns generalizing b with
  | nil => exact ⟨(Step.refl h).adds (by simp), rfl, by simp [resolveAttributes]⟩
  | cons n ns ih =>
      obtain ⟨first, depicts⟩ := h.step_resolveAttribute unique plain clean n
      obtain ⟨rest, depictsRest⟩ := ih first.settled
      exact ⟨(first.trans rest).adds (by simp),
        (depicts.keeps rest.follows.writes.grows.keepsNames).append depictsRest⟩

end

end Binder
end Antipattern
