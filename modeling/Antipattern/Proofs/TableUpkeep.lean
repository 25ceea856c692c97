import Antipattern.Proofs.BoundTable
import Antipattern.Proofs.DeclaredSymbols

/-!
What binding keeps true of its table, whatever the files hold. A symbol that no file declares is one
of three things for good: a framework type as the catalog has it, a generic type filled in, or a
placeholder that refers to nothing. Declared types are the only ones that the files go on to change.
-/

namespace Antipattern

open Declaration

namespace Binder

/-- No generic type is ever filled in to this name: it has no type arguments, or what stands before
them names no generic type. -/
def Unfillable (generics : List (String × Nat)) (name : String) : Prop :=
  PlainName name ∨ generics.lookup (withoutTypeArgs name) = none

/-- What holds of the table at every point of the second pass. Placeholders stay as they are
entered if declarations are found under clean names: the text of an attribute that does not resolve
is then none that a generic type is filled in to. -/
structure Orderly (ds : List Declaration) (b : Binder) : Prop where
  accounted : Accounted ds b
  sound : b.table.Sound
  saturated : Catalog.Saturated (isDeclared ds) Catalog.types b.table
  definitions : ∀ {name id}, b.generics.lookup name = some id →
    ∃ definition, isDeclared ds definition ∧ b.table.nameOf? id = some definition
  framework : ∀ {name type p}, isDeclared ds name = false → Catalog.find? name = some type →
    b.table.portrait? name = some p → p = type.portrait
  placeholders : CleanKeys ds → ∀ {name p}, b.table.portrait? name = some p → p.kind = .unresolved →
    p = { kind := .unresolved } ∧ Unfillable b.generics name

/-- Where a portrait comes from that a table has after a step. -/
inductive Origin (ds : List Declaration) (b : Binder) (name : String) (p : Portrait) : Prop
  | kept (drawn : b.table.portrait? name = some p)
  | declared (declared : isDeclared ds name)
  | framework {type : CatalogType} (listed : Catalog.find? name = some type)
      (looks : p = type.portrait)
  | filled (unlisted : Catalog.find? name = none) (kind : CleanKeys ds → p.kind ≠ .unresolved)
  | placeholder (unlisted : Catalog.find? name = none) (looks : p = { kind := .unresolved })
      (fits : CleanKeys ds → Unfillable b.generics name)

section
variable {ds : List Declaration} {b b' : Binder} {name : String} {t : SymbolTable}

theorem Accounted.kind_ne {p : Portrait} (h : Accounted ds b) (known : isKnown ds name)
    (drawn : b.table.portrait? name = some p) : p.kind ≠ .unresolved := by
  obtain ⟨id, named⟩ := SymbolTable.has_of_portrait? drawn
  obtain ⟨s, found, rfl⟩ := SymbolTable.nameOf?_eq_some_iff.mp named
  rw [h.distinct.portrait?_eq found] at drawn
  rw [← Option.some.inj drawn]
  exact h.known id s found known

/-- A step keeps the table in order if all portraits that it leaves have an origin. -/
theorem Orderly.step (h : Orderly ds b) (writes : SymbolTable.Writes b.generics b.table t)
    (sound : t.Sound) (saturated : Catalog.Saturated (isDeclared ds) Catalog.types t)
    (origin : ∀ name p, t.portrait? name = some p → Origin ds b name p) :
    Orderly ds { b with table := t } where
  accounted := h.accounted.writes writes
  sound := sound
  saturated := saturated
  definitions generic := by
    obtain ⟨definition, declared, named⟩ := h.definitions generic
    exact ⟨definition, declared, writes.grows.keepsNames _ _ named⟩
  framework {name type p} undeclared listed drawn := by
    cases origin name p drawn with
    | kept drawn => exact h.framework undeclared listed drawn
    | declared declared => simp [undeclared] at declared
    | framework listed' looks =>
        obtain rfl := Option.some.inj (listed.symm.trans listed')
        exact looks
    | filled unlisted | placeholder unlisted => simp [unlisted] at listed
  placeholders clean {name p} drawn kind := by
    have known (known : isKnown ds name) : False :=
      (h.accounted.writes writes).kind_ne known drawn kind
    cases origin name p drawn with
    | kept drawn => exact h.placeholders clean drawn kind
    | declared declared => exact (known (isKnown_iff.mpr (.inl declared))).elim
    | framework listed _ =>
        exact (known (isKnown_iff.mpr (.inr (Option.isSome_of_eq_some listed)))).elim
    | filled _ filled => exact absurd kind (filled clean)
    | placeholder _ looks fits => exact ⟨looks, fits clean⟩

theorem Orderly.has (h : Orderly ds b) (declared : isDeclared ds name) : b.table.Has name :=
  h.accounted.declared name declared

theorem Orderly.take (h : Orderly ds b) (listed : (Catalog.find? name).isSome) :
    ∃ found, Catalog.ensure? name b.table = some found ∧ found.2.nameOf? found.1 = some name ∧
      Orderly ds { b with table := found.2 } := by
  obtain ⟨found, taken, outcome⟩ :=
    Catalog.takesOver_ensure? listed h.sound (fun _ declared => h.has declared) h.saturated
  refine ⟨found, taken, outcome.named, h.step (Catalog.writes_ensure? b.generics taken)
    outcome.sound outcome.saturated fun other p drawn => ?_⟩
  by_cases present : b.table.Has other
  · rw [outcome.old other present] at drawn
    exact .kept drawn
  · obtain ⟨type, listed, looks⟩ := outcome.new other present (SymbolTable.has_of_portrait? drawn)
    exact .framework listed (Option.some.inj (drawn.symm.trans looks))

/-- A type that the catalog does not list brings no other along. -/
theorem Orderly.saturated_addType (h : Orderly ds b) (unlisted : Catalog.find? name = none)
    (names : ∀ other, t.Has other ↔ b.table.Has other ∨ other = name) :
    Catalog.Saturated (isDeclared ds) Catalog.types t := by
  intro x hx undeclared present r hr
  rcases (names x.1).mp present with old | same
  · exact (names r).mpr (.inl (h.saturated x hx undeclared old r hr))
  · rw [← same, Catalog.find?_of_mem hx] at unlisted
    cases unlisted

theorem Orderly.enter (h : Orderly ds b) (unlisted : Catalog.find? name = none)
    (fits : CleanKeys ds → Unfillable b.generics name) :
    Orderly ds { b with table := (b.table.addType name .unresolved).2 } := by
  by_cases present : b.table.Has name
  · rw [SymbolTable.addType_of_has present]
    exact h
  · refine h.step (.enter .refl (.unresolved unlisted)) (h.sound.addType name _)
      (h.saturated_addType unlisted fun other => SymbolTable.has_addType) fun other p drawn => ?_
    rw [h.sound.portrait?_addType present] at drawn
    split at drawn
    · next same =>
        subst same
        exact .placeholder unlisted (Option.some.inj drawn).symm fits
    · exact .kept drawn

/-- A change of a declared type. -/
theorem Orderly.own (h : Orderly ds b) (declared : isDeclared ds name)
    {f : Portrait → Portrait} (redraws : SymbolTable.Redraws b.table t name f)
    (writes : SymbolTable.Writes b.generics b.table t) :
    Orderly ds { b with table := t } := by
  refine h.step writes redraws.sound ?_ fun other p drawn => ?_
  · intro x hx undeclared present r hr
    exact (redraws.has r).mpr (h.saturated x hx undeclared ((redraws.has x.1).mp present) r hr)
  · rw [redraws.portrait?] at drawn
    split at drawn
    · next same => exact .declared (same ▸ declared)
    · exact .kept drawn

theorem Orderly.definition_kind (h : Orderly ds b) {definition : Nat}
    (generic : b.generics.lookup name = some definition) :
    ((b.table.symbol? definition).map (·.kind)).getD .classType ≠ .unresolved := by
  obtain ⟨type, declared, named⟩ := h.definitions generic
  obtain ⟨s, found, rfl⟩ := SymbolTable.nameOf?_eq_some_iff.mp named
  rw [found]
  exact h.accounted.known definition s found (isKnown_iff.mpr (.inl declared))

theorem Orderly.enter_filled (h : Orderly ds b) {args : String} {kind : TypeKind}
    (generic : (b.generics.lookup name).isSome) (opens : AreTypeArgs args) (nonempty : args ≠ "")
    (resolved : kind ≠ .unresolved) :
    Orderly ds { b with table := (b.table.addType (name ++ args) kind).2 } := by
  have unlisted : Catalog.find? (name ++ args) = none :=
    Catalog.find?_of_not_plain (not_plain_append opens nonempty)
  by_cases present : b.table.Has (name ++ args)
  · rw [SymbolTable.addType_of_has present]
    exact h
  · refine h.step (.enter .refl (.constructed kind generic opens nonempty)) (h.sound.addType _ _)
      (h.saturated_addType unlisted fun other => SymbolTable.has_addType) fun other p drawn => ?_
    rw [h.sound.portrait?_addType present] at drawn
    split at drawn
    · next same =>
        rw [same, ← Option.some.inj drawn]
        exact .filled unlisted fun _ => resolved
    · exact .kept drawn

/-- Filling a generic type in reaches no placeholder: those have names that are never filled in. -/
theorem Orderly.fill (h : Orderly ds b) {args : String} {definition : Nat}
    (generic : b.generics.lookup name = some definition) (opens : AreTypeArgs args)
    (nonempty : args ≠ "") :
    Orderly ds { b with table := (construct b.table (name ++ args) definition).2 } := by
  have isGeneric : isGenericName ds name := by
    rw [← h.accounted.generics, generic]
    rfl
  have opened : ¬ PlainName (name ++ args) := not_plain_append opens nonempty
  have fillable : ¬ Unfillable b.generics (name ++ args) := by
    rintro (plain | none)
    · exact opened plain
    · rw [withoutTypeArgs_append (plain_of_isGenericName isGeneric) opens, generic] at none
      cases none
  have entered := h.enter_filled (Option.isSome_of_eq_some generic) opens nonempty
    (h.definition_kind generic)
  rw [construct]
  dsimp only
  split
  · exact entered
  · obtain ⟨type, -, named⟩ := entered.definitions generic
    have redraws := entered.sound.redraws_setOriginalDefinition
      (SymbolTable.nameOf?_addType_self _ _ _) named
    refine entered.step (SymbolTable.Writes.refl.setOriginalDefinition _ _) redraws.sound ?_ ?_
    · intro x hx undeclared present r hr
      exact (redraws.has r).mpr
        (entered.saturated x hx undeclared ((redraws.has x.1).mp present) r hr)
    · intro other p drawn
      rw [redraws.portrait?] at drawn
      split at drawn
      · next same =>
          subst same
          obtain ⟨old, before, rfl⟩ := Option.map_eq_some_iff.mp drawn
          exact .filled (Catalog.find?_of_not_plain opened) fun clean unresolved =>
            fillable (entered.placeholders clean before unresolved).2
      · exact .kept drawn

theorem Orderly.resolvePlain? (h : Orderly ds b) {candidates : List String} {id : Nat}
    (found : Binder.resolvePlain? candidates b.table = some (id, t)) :
    Orderly ds { b with table := t } ∧ ∃ name, t.nameOf? id = some name := by
  induction candidates with
  | nil => cases found
  | cons c rest ih =>
      rw [Binder.resolvePlain?] at found
      split at found
      · next known =>
          obtain ⟨rfl, rfl⟩ := Prod.mk.inj (Option.some.inj found)
          exact ⟨h, c, SymbolTable.nameOf?_of_lookup? (Option.filter_eq_some_iff.mp known).1⟩
      · split at found
        · next taken =>
            obtain rfl := Option.some.inj found
            obtain ⟨_, taken', named, orderly⟩ :=
              h.take (Catalog.ensure?_isSome_iff.mp (Option.isSome_of_eq_some taken))
            obtain rfl := Option.some.inj (taken.symm.trans taken')
            exact ⟨orderly, c, named⟩
        · exact ih found

theorem Orderly.resolve? (h : Orderly ds b) {scope : Scope} {reference : String} {id : Nat}
    (found : b.resolve? scope reference = some (id, b')) :
    Orderly ds b' ∧ ∃ name, b'.table.nameOf? id = some name := by
  rw [resolve?_eq, Option.map_eq_some_iff] at found
  obtain ⟨⟨id, table⟩, found, same⟩ := found
  obtain ⟨rfl, rfl⟩ := Prod.mk.inj same
  split at found
  · exact h.resolvePlain? found
  · next nonempty =>
      rw [resolveGeneric?_eq, Option.map_eq_some_iff] at found
      obtain ⟨⟨c, definition⟩, found, built⟩ := found
      obtain ⟨c', -, found⟩ := List.exists_of_findSome?_eq_some found
      obtain ⟨definition', generic, same⟩ := Option.map_eq_some_iff.mp found
      obtain ⟨rfl, rfl⟩ := Prod.mk.inj same
      obtain ⟨rfl, rfl⟩ := Prod.mk.inj built
      exact ⟨h.fill generic (areTypeArgs_typeArgs _) nonempty, _, nameOf?_construct _ _ _⟩

/-- A reference that does not resolve is none that a generic type is filled in to later. -/
theorem unfillable_of_resolve? {scope : Scope} {reference : String}
    (none : b.resolve? scope reference = none) :
    Unfillable b.generics (normalizeReference reference) := by
  rw [resolve?_eq, Option.map_eq_none_iff] at none
  split at none
  · next empty => exact .inl (typeArgs_eq_empty_iff.mp empty)
  · rw [resolveGeneric?_eq, Option.map_eq_none_iff, List.findSome?_eq_none_iff] at none
    exact .inr (Option.map_eq_none_iff.mp (none _ (scope.mem_candidates_self _)))

/-- Nor is its text as it is written, if generic types are found under clean names. -/
theorem Accounted.unfillable_of_resolve? (h : Accounted ds b) (clean : CleanKeys ds)
    {scope : Scope} {text : String} (none : b.resolve? scope text = none) :
    Unfillable b.generics text := by
  refine (Binder.unfillable_of_resolve? none).imp plain_normalizeReference_iff.mp fun missing => ?_
  rw [← Option.not_isSome_iff_eq_none, h.generics] at missing ⊢
  intro generic
  rw [withoutTypeArgs_normalizeReference (clean.of_isGenericName generic)] at missing
  exact missing generic

theorem Orderly.resolveType (h : Orderly ds b) (scope : Scope) (reference : String) :
    Orderly ds (b.resolveType scope reference).2 ∧
      ∃ name, (b.resolveType scope reference).2.table.nameOf? (b.resolveType scope reference).1 =
        some name := by
  rw [Binder.resolveType]
  split
  · next found => exact h.resolve? found
  · next none =>
      exact ⟨h.enter (unlisted_of_resolve? none) fun _ => unfillable_of_resolve? none, _,
        SymbolTable.nameOf?_addType_self _ _ _⟩

theorem Orderly.resolveAttribute (h : Orderly ds b) (scope : Scope)
    (n : SyntaxNode) :
    Orderly ds (b.resolveAttribute scope n).2 ∧
      ∀ i, (b.resolveAttribute scope n).1.classId = some i →
        ∃ name, (b.resolveAttribute scope n).2.table.nameOf? i = some name := by
  rw [resolveAttribute_eq]
  dsimp only
  split
  · exact ⟨h, fun i none => nomatch none⟩
  · split
    · next found =>
        obtain ⟨reference, found⟩ := resolve?_of_attributeTarget? found
        obtain ⟨orderly, named⟩ := h.resolve? found
        exact ⟨orderly, fun i same => Option.some.inj same ▸ named⟩
    · next none =>
        refine ⟨h.enter (unlisted_of_attributeTarget? none) fun clean =>
          h.accounted.unfillable_of_resolve? clean (unresolved_of_attributeTarget? none), ?_⟩
        exact fun i same => ⟨_, Option.some.inj same ▸ SymbolTable.nameOf?_addType_self _ _ _⟩

theorem Orderly.resolveAttributes (h : Orderly ds b) (scope : Scope)
    (ns : List SyntaxNode) :
    Orderly ds (Binder.resolveAttributes scope ns b).2 ∧
      ∀ i ∈ (Binder.resolveAttributes scope ns b).1.filterMap (·.classId),
        ∃ name, (Binder.resolveAttributes scope ns b).2.table.nameOf? i = some name := by
  induction ns generalizing b with
  | nil => exact ⟨h, fun i none => nomatch none⟩
  | cons n ns ih =>
      obtain ⟨first, named⟩ := h.resolveAttribute scope n
      obtain ⟨rest, others⟩ := ih first
      refine ⟨rest, fun i hi => ?_⟩
      rw [Binder.resolveAttributes] at hi ⊢
      obtain ⟨a, ha, same⟩ := List.mem_filterMap.mp hi
      rcases List.mem_cons.mp ha with rfl | ha
      · obtain ⟨name, named⟩ := named i same
        exact ⟨name, (resolves_resolveAttributes scope ns _).edited.edits.writes.grows.keepsNames
          _ _ named⟩
      · exact others i (List.mem_filterMap.mpr ⟨a, ha, same⟩)

variable {x : Declared} {d : Declaration}

theorem Resolves.denotes (h : Resolves b b') (denotes : x.Denotes b.table d) :
    x.Denotes b'.table d :=
  denotes.keeps h.edited.edits.writes.grows.keepsNames

theorem Orderly.linkTarget (h : Orderly ds b) (hd : d ∈ ds) (denotes : x.Denotes b.table d)
    (reference : String) (position : Nat) {target : Nat}
    (named : b.table.nameOf? target = some name) :
    Orderly ds (b.linkTarget x reference position target) := by
  have declared := isDeclared_iff.mpr ⟨d, hd, rfl⟩
  rw [Binder.linkTarget]
  split
  · exact h.own declared (h.sound.redraws_setBase denotes.named named)
      (SymbolTable.Writes.refl.setBase _ _)
  · split
    · exact h
    · exact h.own declared (h.sound.redraws_addInterface denotes.named named)
        (SymbolTable.Writes.refl.addInterface _ _)

theorem Orderly.resolveBases (h : Orderly ds b) (hd : d ∈ ds) (denotes : x.Denotes b.table d)
    (scope : Scope) (references : List (String × Nat)) :
    Orderly ds (Binder.resolveBases x scope references b) := by
  induction references generalizing b with
  | nil => exact h
  | cons r references ih =>
      obtain ⟨reference, position⟩ := r
      rw [resolveBases_cons]
      obtain ⟨resolved, name, named⟩ := h.resolveType scope reference
      have denotes := (Resolves.refl.reference scope reference).denotes denotes
      exact ih (resolved.linkTarget hd denotes reference position named)
        ((resolves_linkTarget x reference position _ _).denotes denotes)

theorem Orderly.resolveMembers (h : Orderly ds b) (hd : d ∈ ds)
    (denotes : x.Denotes b.table d) (scope : Scope) (ns : List SyntaxNode) :
    Orderly ds (Binder.resolveMembers x scope ns b) := by
  induction ns generalizing b with
  | nil => exact h
  | cons n ns ih =>
      rw [Binder.resolveMembers]
      obtain ⟨resolved, valid⟩ := h.resolveAttributes scope n.attributes
      have denotes := (resolves_resolveAttributes scope n.attributes b).denotes denotes
      refine ih (resolved.own (isDeclared_iff.mpr ⟨d, hd, rfl⟩)
        (resolved.sound.redraws_addMember denotes.named valid)
        (SymbolTable.Writes.refl.addMember x.id _)) ?_
      exact (Resolves.refl.addMember x.id _).denotes denotes

theorem Orderly.resolveDeclared (h : Orderly ds b) (hd : d ∈ ds)
    (denotes : x.Denotes b.table d) :
    Orderly ds (Binder.resolveDeclared x b) := by
  obtain ⟨s, found, -⟩ := SymbolTable.nameOf?_eq_some_iff.mp denotes.named
  rw [Binder.resolveDeclared, found, denotes.node]
  let scope : Scope := { x.scope with enclosing := x.scope.enclosing ++ [s.displayName] }
  have bases := h.resolveBases hd denotes scope d.node.baseReferences.zipIdx
  have denotes := (resolves_resolveBases x scope d.node.baseReferences.zipIdx b).denotes denotes
  obtain ⟨resolved, valid⟩ := bases.resolveAttributes scope d.node.attributes
  have denotes := (resolves_resolveAttributes scope d.node.attributes _).denotes denotes
  have applied := resolved.own (isDeclared_iff.mpr ⟨d, hd, rfl⟩)
    (resolved.sound.redraws_addAttributes denotes.named ⟨rfl, valid⟩)
    (resolves_addAttributes x.id _ _).edited.edits.writes
  exact applied.resolveMembers hd ((resolves_addAttributes x.id _ _).denotes denotes) scope
    d.node.members

/-- Going over the declarations once. -/
theorem Orderly.foldl (h : Orderly ds b) (step : Declared → Binder → Binder)
    {xs : List Declared} {es : List Declaration}
    (denote : List.Forall₂ (Declared.Denotes b.table) xs es)
    (keeps : ∀ (b : Binder) x, b.table.KeepsNames (step x b).table)
    (each : ∀ (b : Binder) x e, Orderly ds b → e ∈ es → x.Denotes b.table e →
      Orderly ds (step x b)) :
    Orderly ds (xs.foldl (fun b x => step x b) b) := by
  induction es generalizing xs b with
  | nil =>
      cases denote
      exact h
  | cons e es ih =>
      cases denote with
      | @cons x _ xs _ denotes rest =>
          exact ih (each b x e h List.mem_cons_self denotes)
            (rest.imp fun _ _ denotes => denotes.keeps (keeps b x))
            fun b x e orderly he => each b x e orderly (List.mem_cons_of_mem _ he)

theorem Entered.orderly (h : Entered ds b) : Orderly ds b where
  accounted := h.accounted
  sound := h.sound
  saturated := h.settled.saturated
  definitions generic := by
    obtain ⟨definition, found, named⟩ := h.settled.definition_named generic
    obtain ⟨d, hd, -, -, same⟩ := declared_of_definition? found
    exact ⟨definition, isDeclared_iff.mpr ⟨d, hd, same⟩, named⟩
  framework undeclared _ drawn := by
    have declared := (h.names _).mp (SymbolTable.has_of_portrait? drawn)
    rw [isDeclared_iff.mpr declared] at undeclared
    cases undeclared
  placeholders _ {name p} drawn kind := by
    have declared := isDeclared_iff.mpr ((h.names _).mp (SymbolTable.has_of_portrait? drawn))
    exact absurd kind (h.accounted.kind_ne (isKnown_iff.mpr (.inl declared)) drawn)

/-- The table gives a base type to the type of this name. -/
def Based (t : SymbolTable) (name : String) : Prop :=
  ∃ p base, t.portrait? name = some p ∧ p.base = some base

theorem defaultBase_eq (object : Nat) (x : Declared) (t : SymbolTable) :
    defaultBase object x t = t ∨ defaultBase object x t = t.setBase x.id object := by
  unfold defaultBase
  split
  · split
    · split
      · exact .inr rfl
      · exact .inl rfl
    · exact .inl rfl
  · exact .inl rfl

theorem Based.setBase {id object : Nat} {own root : String} (h : Based t name) (sound : t.Sound)
    (named : t.nameOf? id = some own) (rootNamed : t.nameOf? object = some root) :
    Based (t.setBase id object) name := by
  obtain ⟨p, base, drawn, based⟩ := h
  have redrawn := (sound.redraws_setBase named rootNamed).portrait? name
  rw [drawn] at redrawn
  split at redrawn
  · exact ⟨_, root, redrawn, rfl⟩
  · exact ⟨p, base, redrawn, based⟩

theorem Orderly.defaultBase (h : Orderly ds b) (hd : d ∈ ds) (denotes : x.Denotes b.table d)
    {object : Nat} (root : b.table.nameOf? object = some "System.Object") :
    Orderly ds { b with table := Binder.defaultBase object x b.table } ∧
      ∀ name, Based b.table name → Based (Binder.defaultBase object x b.table) name := by
  rcases defaultBase_eq object x b.table with same | set
  · rw [same]
    exact ⟨h, fun name based => based⟩
  · rw [set]
    exact ⟨h.own (isDeclared_iff.mpr ⟨d, hd, rfl⟩) (h.sound.redraws_setBase denotes.named root)
      (SymbolTable.Writes.refl.setBase _ _),
      fun name based => based.setBase h.sound denotes.named root⟩

/-- A class or record has a base type once its default base is set. -/
theorem based_defaultBase (sound : t.Sound) (denotes : x.Denotes t d) {object : Nat}
    (root : t.nameOf? object = some "System.Object")
    (kind : d.node.kind = .classDeclaration ∨ d.node.kind = .recordDeclaration)
    (other : d.display ≠ "System.Object") : Based (Binder.defaultBase object x t) d.display := by
  obtain ⟨s, found, name⟩ := SymbolTable.nameOf?_eq_some_iff.mp denotes.named
  have drawn := sound.distinct.portrait?_eq found
  rw [name] at drawn
  have notRoot : s.id ≠ object := by
    rw [sound.id found]
    rintro rfl
    exact other (Option.some.inj (denotes.named.symm.trans root))
  have applies : (decide (d.node.kind = .classDeclaration) ||
      decide (d.node.kind = .recordDeclaration)) = true := by simpa using kind
  rw [Binder.defaultBase, denotes.node, if_pos applies, found]
  dsimp only
  cases base : s.baseType with
  | none =>
      have redrawn := (sound.redraws_setBase denotes.named root).portrait? d.display
      rw [if_pos rfl, drawn] at redrawn
      rw [if_pos (by simp [notRoot])]
      exact ⟨_, "System.Object", redrawn, rfl⟩
  | some i =>
      rw [if_neg (by simp)]
      exact ⟨_, t.nameAt i, drawn, congrArg (Option.map t.nameAt) base⟩

theorem Orderly.defaultBases (h : Orderly ds b) {object : Nat}
    (root : b.table.nameOf? object = some "System.Object") {xs : List Declared}
    {es : List Declaration} (denote : List.Forall₂ (Declared.Denotes b.table) xs es)
    (sub : ∀ e ∈ es, e ∈ ds) :
    let b' : Binder := { b with table := xs.foldl (fun t x => Binder.defaultBase object x t) b.table }
    Orderly ds b' ∧ b.table.KeepsNames b'.table ∧
      (∀ name, Based b.table name → Based b'.table name) ∧
      ∀ e ∈ es, e.node.kind = .classDeclaration ∨ e.node.kind = .recordDeclaration →
        e.display ≠ "System.Object" → Based b'.table e.display := by
  induction es generalizing xs b with
  | nil =>
      cases denote
      exact ⟨h, fun _ _ named => named, fun _ based => based, fun e he => nomatch he⟩
  | cons e es ih =>
      cases denote with
      | @cons x _ xs _ denotes rest =>
          obtain ⟨own, sub⟩ := List.forall_mem_cons.mp sub
          obtain ⟨first, keepsBase⟩ := h.defaultBase own denotes root
          have keeps : b.table.KeepsNames (Binder.defaultBase object x b.table) :=
            (edits_defaultBase b.generics object x b.table).writes.grows.keepsNames
          obtain ⟨orderly, keepsNames, keepsBases, bases⟩ := ih first (keeps _ _ root)
            (rest.imp fun _ _ denotes => denotes.keeps keeps) sub
          refine ⟨orderly, fun i name named => keepsNames i name (keeps i name named),
            fun name based => keepsBases name (keepsBase name based), ?_⟩
          rw [List.forall_mem_cons]
          exact ⟨fun kind other =>
            keepsBases _ (based_defaultBase h.sound denotes root kind other), bases⟩

end

/-- Binding leaves a table in order, with `System.Object` in it and a base type for every class and
record but that one. -/
theorem orderly_bind (files : List ParsedFile) :
    ∃ b : Binder, bind files = b.table.finish ∧
      Orderly (ofFiles files) b ∧
      b.table.Has "System.Object" ∧
      ∀ d ∈ ofFiles files, d.node.kind = .classDeclaration ∨ d.node.kind = .recordDeclaration →
        d.display ≠ "System.Object" → Based b.table d.display := by
  have entered := entered_declareFiles files
  have start : Orderly (ofFiles files) (declareFiles files) := entered.orderly
  have passed := start.foldl resolveDeclared entered.denote
    (fun b x => (resolves_resolveDeclared x b).edited.edits.writes.grows.keepsNames)
    fun b x d orderly hd denotes => orderly.resolveDeclared hd denotes
  have follows := (passes_foldl (declareFiles files).declared (declareFiles files)).follows
  obtain ⟨⟨object, t⟩, taken, root, ensured⟩ :=
    passed.take (show (Catalog.find? "System.Object").isSome by decide)
  have keeps := follows.writes.grows.keepsNames
  have keeps' := (Catalog.writes_ensure? [] taken).grows.keepsNames
  obtain ⟨orderly, keepsNames, -, bases⟩ := ensured.defaultBases root
    (entered.denote.imp fun _ _ denotes => (denotes.keeps keeps).keeps keeps') fun _ hd => hd
  refine ⟨_, ?_, orderly, ⟨object, keepsNames _ _ root⟩, bases⟩
  rw [bind]
  dsimp only
  rw [taken, follows.declared]

end Binder
end Antipattern
