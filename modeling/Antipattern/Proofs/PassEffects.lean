import Antipattern.Proofs.FrameworkTypes

/-!
What the second pass writes into members and original definitions. Both can be read off two lists:
the members that are recorded, each with the name of its type, and the names that are filled in,
each with the generic type. A reference fills in one name at most; all else that resolving does
leaves both alone. So the lists of a pass are those of its parts, one behind the other.
-/

namespace Antipattern

/-- A member apart from what its attributes resolve to. -/
structure MemberOutline where
  name : String
  kind : MemberKind
  attributes : List String
  declared : Option SyntaxRef
deriving DecidableEq

def MemberSymbol.outline (m : MemberSymbol) : MemberOutline :=
  ⟨m.name, m.kind, m.attributes.map (·.name), m.declared⟩

def MemberPortrait.outline (m : MemberPortrait) : MemberOutline :=
  ⟨m.name, m.kind, m.attributes.map (·.name), m.declared⟩

theorem MemberSymbol.outline_portrait (nameAt : Nat → String) (m : MemberSymbol) :
    (m.portrait nameAt).outline = m.outline := by
  simp [portrait, outline, MemberPortrait.outline, AppliedAttribute.portrait]

/-- What a method or constructor is recorded as. -/
def SyntaxNode.outline (tree : Nat) (n : SyntaxNode) : MemberOutline where
  name := n.identifier?.getD ""
  kind := if n.kind = .constructorDeclaration then .constructor else .method
  attributes := n.attributes.map fun a => a.identifier?.getD ""
  declared := some (.ofNode tree n)

namespace SymbolTable

def outlinesOf (t : SymbolTable) (name : String) : List MemberOutline :=
  ((t.portrait? name).map fun p => p.members.map (·.outline)).getD []

/-- The name of a type's original definition. -/
def definitionOf? (t : SymbolTable) (name : String) : Option String :=
  (t.portrait? name).bind (·.original)

/-- A table in which members have been recorded and names filled in, the last to count. -/
structure Effects (recorded : List (String × MemberOutline)) (filled : List (String × String))
    (t t' : SymbolTable) : Prop where
  members : ∀ name, t'.outlinesOf name =
    t.outlinesOf name ++ (recorded.filter (·.1 == name)).map (·.2)
  definitions : ∀ name, t'.definitionOf? name =
    (filled.reverse.lookup name).or (t.definitionOf? name)

section
variable {recorded recorded' : List (String × MemberOutline)}
  {filled filled' : List (String × String)}
  {t t' t'' : SymbolTable} {name definition : String} {g : Portrait → Portrait}

theorem Effects.of_same (members : ∀ name, t'.outlinesOf name = t.outlinesOf name)
    (definitions : ∀ name, t'.definitionOf? name = t.definitionOf? name) : Effects [] [] t t' :=
  ⟨by simpa using members, by simpa using definitions⟩

theorem Effects.refl (t : SymbolTable) : Effects [] [] t t :=
  .of_same (fun _ => rfl) fun _ => rfl

theorem Effects.trans (h : Effects recorded filled t t') (h' : Effects recorded' filled' t' t'') :
    Effects (recorded ++ recorded') (filled ++ filled') t t'' where
  members name := by
    rw [h'.members, h.members, List.filter_append, List.map_append, List.append_assoc]
  definitions name := by
    rw [h'.definitions, h.definitions, List.reverse_append, List.lookup_append, Option.or_assoc]

/-- Types that are new without members and definition, and no change of the others. -/
theorem Effects.of_new (old : ∀ name, t.Has name → t'.portrait? name = t.portrait? name)
    (new : ∀ name p, ¬ t.Has name → t'.portrait? name = some p →
      p.members = [] ∧ p.original = none) : Effects [] [] t t' := by
  have same (name : String) : t'.outlinesOf name = t.outlinesOf name ∧
      t'.definitionOf? name = t.definitionOf? name := by
    by_cases present : t.Has name
    · simp [outlinesOf, definitionOf?, old name present]
    · have absent := portrait?_eq_none_iff.mpr present
      cases drawn : t'.portrait? name with
      | none => simp [outlinesOf, definitionOf?, absent, drawn]
      | some p =>
          obtain ⟨members, original⟩ := new name p present drawn
          simp [outlinesOf, definitionOf?, absent, drawn, members, original]
  exact .of_same (fun name => (same name).1) fun name => (same name).2

theorem Sound.effects_addType (sound : t.Sound) (name : String) (kind : TypeKind) :
    Effects [] [] t (t.addType name kind).2 := by
  by_cases present : t.Has name
  · rw [addType_of_has present]
    exact .refl t
  · refine .of_new (fun other had => ?_) fun other p absent drawn => ?_
    · rw [sound.portrait?_addType present, if_neg]
      rintro rfl
      exact present had
    · rw [sound.portrait?_addType present] at drawn
      split at drawn
      · obtain rfl := Option.some.inj drawn
        exact ⟨rfl, rfl⟩
      · exact absurd (has_of_portrait? drawn) absent

theorem Redraws.effects (h : Redraws t t' name g) (members : ∀ p, (g p).members = p.members)
    (original : ∀ p, (g p).original = p.original) : Effects [] [] t t' := by
  refine .of_same (fun other => ?_) fun other => ?_
  · rw [outlinesOf, outlinesOf, h.portrait?]
    split
    · simp [Function.comp_def, members]
    · rfl
  · rw [definitionOf?, definitionOf?, h.portrait?]
    split
    · rw [Option.bind_map]
      exact congrArg (Option.bind _) (funext original)
    · rfl

theorem Redraws.effects_member {m : MemberPortrait}
    (h : Redraws t t' name fun p => { p with members := p.members ++ [m] })
    (present : t.Has name) : Effects [(name, m.outline)] [] t t' where
  members other := by
    obtain ⟨p, drawn⟩ := Option.isSome_iff_exists.mp (has_iff.mp present)
    rw [outlinesOf, outlinesOf, h.portrait?]
    by_cases own : other = name
    · simp [own, drawn]
    · simp [own, Ne.symm own]
  definitions other := by
    rw [definitionOf?, definitionOf?, h.portrait?]
    split
    · rw [Option.bind_map]
      rfl
    · rfl

theorem Redraws.effects_fill (h : Redraws t t' name fun p => { p with original := some definition })
    (present : t.Has name) : Effects [] [(name, definition)] t t' where
  members other := by
    rw [outlinesOf, outlinesOf, h.portrait?]
    split <;> simp [Function.comp_def]
  definitions other := by
    obtain ⟨p, drawn⟩ := Option.isSome_iff_exists.mp (has_iff.mp present)
    rw [definitionOf?, definitionOf?, h.portrait?]
    by_cases own : other = name
    · simp [own, drawn]
    · simp [own, List.lookup_cons, beq_eq_false_iff_ne.mpr own]

end
end SymbolTable

namespace Binder

open SymbolTable (Effects)
open Declaration

/-- The pairs of a type and another one. -/
def proper (x : Option (String × String)) : List (String × String) :=
  x.toList.filter fun x => x.1 != x.2

theorem effects_construct {t : SymbolTable} (sound : t.Sound) {definition : Nat} {original : String}
    (named : t.nameOf? definition = some original) (name : String) :
    Effects [] (proper (some (name, original))) t (construct t name definition).2 := by
  let kind := ((t.symbol? definition).map (·.kind)).getD .classType
  have entered := sound.effects_addType name kind
  have self := SymbolTable.nameOf?_addType_self t name kind
  have kept := SymbolTable.keepsNames_addType t name kind _ _ named
  rw [construct]
  dsimp only
  split
  · next same =>
      rw [same, kept] at self
      simpa [proper, Option.some.inj self] using entered
  · next other =>
      have differs : name ≠ original := by
        rintro rfl
        exact other ((sound.addType name kind).distinct _ _ name self kept)
      have redraws := (sound.addType name kind).redraws_setOriginalDefinition self kept
      have filled := redraws.effects_fill ⟨_, self⟩
      simpa [proper, differs] using entered.trans filled

end Binder

namespace Declaration

/-- The type that a reference with type arguments leads to, and the generic type that it fills in:
the last that is declared under the nearest name for which there is one. -/
def constructed? (ds : List Declaration) (scope : Scope) (reference : String) :
    Option (String × String) :=
  let text := normalizeReference reference
  if typeArgs text = "" then none
  else
    ((scope.candidates (withoutTypeArgs text)).find? (isGenericName ds)).bind fun c =>
      (definition? ds c).map (c ++ typeArgs text, ·)

/-- What an attribute leads to: its name with the usual suffix, or else as it is written. -/
def attributeConstructed? (ds : List Declaration) (scope : Scope) (name : String) :
    Option (String × String) :=
  (if Text.endsWith "Attribute".toList name.toList then none
    else constructed? ds scope (name ++ "Attribute")).or (constructed? ds scope name)

/-- The names that the base list, the attributes and the members of a declaration fill in. -/
def filled (ds : List Declaration) (d : Declaration) : List (String × String) :=
  d.node.baseReferences.flatMap (fun r => Binder.proper (constructed? ds d.inner r)) ++
    (d.node.attributes ++ d.node.members.flatMap (·.attributes)).flatMap fun a =>
      Binder.proper (attributeConstructed? ds d.inner (a.identifier?.getD ""))

/-- The members that a declaration records. -/
def recorded (d : Declaration) : List (String × MemberOutline) :=
  d.node.members.map fun n => (d.display, n.outline d.tree)

end Declaration

namespace Binder

open SymbolTable (Effects)
open Declaration

/-- A point of the second pass. -/
structure Midway (ds : List Declaration) (b : Binder) : Prop where
  orderly : Orderly ds b
  definition : ∀ {key id}, b.generics.lookup key = some id →
    ∃ original, definition? ds key = some original ∧ b.table.nameOf? id = some original

/-- A part of the second pass with what it records and fills in. -/
structure Stage (ds : List Declaration) (recorded : List (String × MemberOutline))
    (filled : List (String × String)) (b b' : Binder) : Prop where
  midway : Midway ds b'
  follows : Follows b b'
  effects : Effects recorded filled b.table b'.table

section
variable {ds : List Declaration} {b b' b'' : Binder} {scope : Scope} {name : String}
  {recorded recorded' : List (String × MemberOutline)} {filled filled' : List (String × String)}

theorem Midway.stage (h : Midway ds b) (orderly : Orderly ds b') (follows : Follows b b')
    (effects : Effects recorded filled b.table b'.table) : Stage ds recorded filled b b' where
  midway :=
    { orderly
      definition := by
        intro key id generic
        obtain ⟨original, found, named⟩ := h.definition (follows.generics ▸ generic)
        exact ⟨original, found, follows.writes.grows.keepsNames _ _ named⟩ }
  follows := follows
  effects := effects

theorem Midway.refl (h : Midway ds b) : Stage ds [] [] b b :=
  ⟨h, .refl b, .refl _⟩

theorem Stage.trans (h : Stage ds recorded filled b b') (h' : Stage ds recorded' filled' b' b'') :
    Stage ds (recorded ++ recorded') (filled ++ filled') b b'' :=
  ⟨h'.midway, h.follows.trans h'.follows, h.effects.trans h'.effects⟩

theorem Stage.silent (h : Stage ds recorded filled b b') (h' : Stage ds [] [] b' b'') :
    Stage ds recorded filled b b'' := by
  have both := h.trans h'
  rwa [List.append_nil, List.append_nil] at both

theorem Stage.denotes {x : Declared} {d : Declaration} (h : Stage ds recorded filled b b')
    (denotes : x.Denotes b.table d) : x.Denotes b'.table d :=
  denotes.keeps h.follows.writes.grows.keepsNames

theorem Entered.midway (h : Entered ds b) : Midway ds b :=
  ⟨h.orderly, h.settled.definition_named⟩

theorem Midway.effects_ensure? (h : Midway ds b) {found : Nat × SymbolTable}
    (taken : Catalog.ensure? name b.table = some found) : Effects [] [] b.table found.2 := by
  obtain ⟨_, taken', outcome⟩ := Catalog.takesOver_ensure?
    (Catalog.ensure?_isSome_iff.mp (Option.isSome_of_eq_some taken)) h.orderly.sound
    (fun _ declared => h.orderly.has declared) h.orderly.saturated
  obtain rfl := Option.some.inj (taken.symm.trans taken')
  refine .of_new outcome.old fun other p absent drawn => ?_
  obtain ⟨type, -, looks⟩ := outcome.new other absent (SymbolTable.has_of_portrait? drawn)
  obtain rfl := Option.some.inj (drawn.symm.trans looks)
  exact ⟨rfl, rfl⟩

theorem Midway.effects_resolvePlain? (h : Midway ds b) {candidates : List String} {id : Nat}
    {t : SymbolTable} (found : Binder.resolvePlain? candidates b.table = some (id, t)) :
    Effects [] [] b.table t := by
  induction candidates with
  | nil => cases found
  | cons c rest ih =>
      rw [Binder.resolvePlain?] at found
      split at found
      · obtain ⟨-, rfl⟩ := Prod.mk.inj (Option.some.inj found)
        exact .refl _
      · split at found
        · next taken =>
            obtain rfl := Option.some.inj found
            exact h.effects_ensure? taken
        · exact ih found

/-- A reference with type arguments that resolves leads to a generic type. -/
theorem Midway.resolve?_open (h : Midway ds b) {reference : String} {id : Nat}
    (open' : typeArgs (normalizeReference reference) ≠ "")
    (found : b.resolve? scope reference = some (id, b')) :
    ∃ name definition original, constructed? ds scope reference = some (name, original) ∧
      b.table.nameOf? definition = some original ∧
      b'.table = (construct b.table name definition).2 := by
  rw [resolve?_eq, if_neg open', h.orderly.accounted.resolveGeneric?_eq,
    Option.map_eq_some_iff] at found
  obtain ⟨⟨id, table⟩, found, same⟩ := found
  obtain ⟨c, nearest, found⟩ := Option.bind_eq_some_iff.mp found
  obtain ⟨definition, generic, built⟩ := Option.map_eq_some_iff.mp found
  obtain ⟨original, known, named⟩ := h.definition generic
  obtain ⟨-, rfl⟩ := Prod.mk.inj same
  refine ⟨c ++ typeArgs (normalizeReference reference), definition, original, ?_, named, ?_⟩
  · rw [constructed?, if_neg open', nearest, Option.bind_some, known, Option.map_some]
  · rw [built]

theorem Midway.resolve? (h : Midway ds b) {reference : String} {id : Nat}
    (found : b.resolve? scope reference = some (id, b')) :
    Stage ds [] (proper (constructed? ds scope reference)) b b' := by
  refine h.stage (h.orderly.resolve? found).1 (follows_resolve? found) ?_
  by_cases plain : typeArgs (normalizeReference reference) = ""
  · rw [resolve?_eq, if_pos plain, Option.map_eq_some_iff] at found
    obtain ⟨⟨id, table⟩, found, same⟩ := found
    obtain ⟨-, rfl⟩ := Prod.mk.inj same
    rw [constructed?, if_pos plain]
    exact h.effects_resolvePlain? found
  · obtain ⟨name, definition, original, led, named, table⟩ := h.resolve?_open plain found
    rw [led, table]
    exact effects_construct h.orderly.sound named name

theorem Midway.constructed?_of_unresolved (h : Midway ds b) {reference : String}
    (unresolved : b.resolve? scope reference = none) : constructed? ds scope reference = none := by
  rw [resolve?_eq, Option.map_eq_none_iff] at unresolved
  rw [constructed?]
  split
  · rfl
  · next open' =>
      rw [if_neg open', h.orderly.accounted.resolveGeneric?_eq] at unresolved
      cases nearest : (scope.candidates _).find? (isGenericName ds) with
      | none => rfl
      | some c =>
          -- the name of a generic type always leads to one
          have generic := List.find?_some nearest
          rw [← h.orderly.accounted.generics] at generic
          rw [nearest, Option.bind_some, Option.map_eq_none_iff] at unresolved
          simp [unresolved] at generic

theorem Midway.enter (h : Midway ds b) (unlisted : Catalog.find? name = none)
    (fits : CleanKeys ds → Unfillable b.generics name) :
    Stage ds [] [] b { b with table := (b.table.addType name .unresolved).2 } :=
  h.stage (h.orderly.enter unlisted fits) (edited_addType (.unresolved unlisted)).follows
    (h.orderly.sound.effects_addType name _)

theorem Midway.resolveType (h : Midway ds b) (scope : Scope) (reference : String) :
    Stage ds [] (proper (constructed? ds scope reference)) b (b.resolveType scope reference).2 := by
  rw [Binder.resolveType]
  split
  · next found => exact h.resolve? found
  · next none =>
      rw [h.constructed?_of_unresolved none]
      exact h.enter (unlisted_of_resolve? none) fun _ => unfillable_of_resolve? none

/-- With the suffix a name has type arguments if it has them as it is written. -/
theorem constructed?_of_suffixed {suffix : String}
    (plain : typeArgs (normalizeReference (name ++ suffix)) = "") :
    constructed? ds scope name = none := by
  rw [typeArgs_eq_empty_iff, plain_normalizeReference_iff] at plain
  have own : typeArgs (normalizeReference name) = "" := by
    rw [typeArgs_eq_empty_iff, plain_normalizeReference_iff]
    exact fun open' => plain (by simp [open'])
  rw [constructed?, if_pos own]

theorem Midway.attributeTarget? (h : Midway ds b) {id : Nat}
    (found : b.attributeTarget? scope name = some (id, b')) :
    Stage ds [] (proper (attributeConstructed? ds scope name)) b b' := by
  rw [Binder.attributeTarget?, Option.or_eq_some_iff] at found
  rw [attributeConstructed?]
  rcases found with found | ⟨unresolved, found⟩
  · split at found
    · cases found
    · next unsuffixed =>
        rw [if_neg unsuffixed]
        have stage := h.resolve? found
        cases led : constructed? ds scope (name ++ "Attribute") with
        | some x =>
            rw [led] at stage
            rw [Option.some_or]
            exact stage
        | none =>
            have plain : typeArgs (normalizeReference (name ++ "Attribute")) = "" := by
              refine Decidable.byContradiction fun open' => ?_
              obtain ⟨_, _, _, led', -⟩ := h.resolve?_open open' found
              simp [led] at led'
            rw [led] at stage
            rw [constructed?_of_suffixed plain, Option.none_or]
            exact stage
  · have stage := h.resolve? found
    split at unresolved
    · next suffixed =>
        rw [if_pos suffixed, Option.none_or]
        exact stage
    · next unsuffixed =>
        rw [if_neg unsuffixed, h.constructed?_of_unresolved unresolved, Option.none_or]
        exact stage

theorem Midway.attributeConstructed?_of_unresolved (h : Midway ds b)
    (unresolved : b.attributeTarget? scope name = none) :
    attributeConstructed? ds scope name = none := by
  rw [Binder.attributeTarget?, Option.or_eq_none_iff] at unresolved
  rw [attributeConstructed?, h.constructed?_of_unresolved unresolved.2, Option.or_none]
  split
  · rfl
  · next unsuffixed =>
      rw [if_neg unsuffixed] at unresolved
      exact h.constructed?_of_unresolved unresolved.1

theorem attributeConstructed?_empty : attributeConstructed? ds scope "" = none := by
  have suffixed : typeArgs (normalizeReference ("" ++ "Attribute")) = "" := by decide
  rw [attributeConstructed?, constructed?_of_suffixed suffixed, constructed?, if_pos suffixed,
    ite_self, Option.or_none]

theorem Midway.resolveAttribute (h : Midway ds b) (scope : Scope) (n : SyntaxNode) :
    Stage ds [] (proper (attributeConstructed? ds scope (n.identifier?.getD ""))) b
        (b.resolveAttribute scope n).2 ∧
      (b.resolveAttribute scope n).1.name = n.identifier?.getD "" := by
  rw [resolveAttribute_eq]
  dsimp only
  split
  · next empty =>
      rw [String.isEmpty_iff.mp empty, attributeConstructed?_empty]
      exact ⟨h.refl, rfl⟩
  · split
    · next found => exact ⟨h.attributeTarget? found, rfl⟩
    · next none =>
        rw [h.attributeConstructed?_of_unresolved none]
        have fits (clean : CleanKeys ds) : Unfillable b.generics (n.identifier?.getD "") :=
          h.orderly.accounted.unfillable_of_resolve? clean (unresolved_of_attributeTarget? none)
        exact ⟨h.enter (unlisted_of_attributeTarget? none) fits, rfl⟩

theorem Midway.resolveAttributes (h : Midway ds b) (scope : Scope) (ns : List SyntaxNode) :
    Stage ds []
        (ns.flatMap fun a => proper (attributeConstructed? ds scope (a.identifier?.getD "")))
        b (Binder.resolveAttributes scope ns b).2 ∧
      (Binder.resolveAttributes scope ns b).1.map (·.name) =
        ns.map fun a => a.identifier?.getD "" := by
  induction ns generalizing b with
  | nil => exact ⟨h.refl, rfl⟩
  | cons n ns ih =>
      obtain ⟨first, name⟩ := h.resolveAttribute scope n
      obtain ⟨rest, names⟩ := ih first.midway
      rw [Binder.resolveAttributes, List.flatMap_cons, List.map_cons, List.map_cons]
      exact ⟨first.trans rest, congrArg₂ List.cons name names⟩

/-- The classes of attributes are in the table. -/
theorem Midway.named_resolveAttributes (h : Midway ds b) (scope : Scope) (ns : List SyntaxNode) :
    ∀ i ∈ (Binder.resolveAttributes scope ns b).1.filterMap (·.classId),
      ∃ name, (Binder.resolveAttributes scope ns b).2.table.nameOf? i = some name :=
  (h.orderly.resolveAttributes scope ns).2

variable {x : Declared} {d : Declaration}

/-- A change of a declared type that touches neither its members nor its definition. -/
theorem Midway.own (h : Midway ds b) (hd : d ∈ ds) {t : SymbolTable} {g : Portrait → Portrait}
    (redraws : SymbolTable.Redraws b.table t d.display g)
    (writes : SymbolTable.Writes b.generics b.table t) (members : ∀ p, (g p).members = p.members)
    (original : ∀ p, (g p).original = p.original) : Stage ds [] [] b { b with table := t } :=
  h.stage (h.orderly.own (isDeclared_iff.mpr ⟨d, hd, rfl⟩) redraws writes) ⟨rfl, rfl, writes⟩
    (redraws.effects members original)

theorem Midway.linkTarget (h : Midway ds b) (hd : d ∈ ds) (denotes : x.Denotes b.table d)
    (reference : String) (position : Nat) {target : Nat}
    (named : b.table.nameOf? target = some name) :
    Stage ds [] [] b (b.linkTarget x reference position target) := by
  rw [Binder.linkTarget]
  split
  · exact h.own hd (h.orderly.sound.redraws_setBase denotes.named named)
      (SymbolTable.Writes.refl.setBase _ _) (fun _ => rfl) fun _ => rfl
  · split
    · exact h.refl
    · exact h.own hd (h.orderly.sound.redraws_addInterface denotes.named named)
        (SymbolTable.Writes.refl.addInterface _ _)
        (fun p => by rw [Portrait.withInterface]; split <;> rfl)
        fun p => by rw [Portrait.withInterface]; split <;> rfl

theorem Midway.resolveBases (h : Midway ds b) (hd : d ∈ ds) (denotes : x.Denotes b.table d)
    (scope : Scope) (references : List (String × Nat)) :
    Stage ds [] ((references.map (·.1)).flatMap fun r => proper (constructed? ds scope r)) b
      (Binder.resolveBases x scope references b) := by
  induction references generalizing b with
  | nil => exact h.refl
  | cons r references ih =>
      obtain ⟨reference, position⟩ := r
      rw [resolveBases_cons, List.map_cons, List.flatMap_cons]
      have resolved := h.resolveType scope reference
      obtain ⟨-, name, named⟩ := h.orderly.resolveType scope reference
      have linked := resolved.silent (resolved.midway.linkTarget hd (resolved.denotes denotes)
        reference position named)
      exact linked.trans (ih linked.midway (linked.denotes denotes))

theorem Midway.addMember (h : Midway ds b) (hd : d ∈ ds) {id : Nat} {m : MemberSymbol}
    (named : b.table.nameOf? id = some d.display)
    (valid : ∀ i ∈ m.attributes.filterMap (·.classId), ∃ name, b.table.nameOf? i = some name) :
    Stage ds [(d.display, m.outline)] [] b { b with table := b.table.addMember id m } := by
  have redraws := h.orderly.sound.redraws_addMember named valid
  have writes : SymbolTable.Writes b.generics b.table (b.table.addMember id m) :=
    SymbolTable.Writes.refl.addMember id m
  have effects := redraws.effects_member ⟨id, named⟩
  rw [MemberSymbol.outline_portrait] at effects
  exact h.stage (h.orderly.own (isDeclared_iff.mpr ⟨d, hd, rfl⟩) redraws writes) ⟨rfl, rfl, writes⟩
    effects

theorem Midway.resolveMembers (h : Midway ds b) (hd : d ∈ ds) (denotes : x.Denotes b.table d)
    (scope : Scope) (ns : List SyntaxNode) :
    Stage ds (ns.map fun n => (d.display, n.outline d.tree))
      ((ns.flatMap (·.attributes)).flatMap fun a =>
        proper (attributeConstructed? ds scope (a.identifier?.getD ""))) b
      (Binder.resolveMembers x scope ns b) := by
  induction ns generalizing b with
  | nil => exact h.refl
  | cons n ns ih =>
      rw [Binder.resolveMembers, List.map_cons, List.flatMap_cons, List.flatMap_append]
      obtain ⟨resolved, names⟩ := h.resolveAttributes scope n.attributes
      have valid := h.named_resolveAttributes scope n.attributes
      let m : MemberSymbol :=
        { name := n.identifier?.getD ""
          kind := if n.kind = .constructorDeclaration then .constructor else .method
          attributes := (Binder.resolveAttributes scope n.attributes b).1
          declared := some (.ofNode x.tree n) }
      have outline : m.outline = n.outline d.tree := by
        simp only [MemberSymbol.outline, SyntaxNode.outline, m, names, denotes.tree]
      have added := resolved.trans (resolved.midway.addMember hd (resolved.denotes denotes).named
        (m := m) valid)
      rw [outline, List.append_nil] at added
      exact added.trans (ih added.midway (added.denotes denotes))

theorem Midway.resolveDeclared (h : Midway ds b) (hd : d ∈ ds) (denotes : x.Denotes b.table d) :
    Stage ds d.recorded (d.filled ds) b (Binder.resolveDeclared x b) := by
  obtain ⟨s, found, name⟩ := SymbolTable.nameOf?_eq_some_iff.mp denotes.named
  have scope : { x.scope with enclosing := x.scope.enclosing ++ [s.displayName] } = d.inner := by
    rw [Declaration.inner, denotes.scope, name]
  rw [Binder.resolveDeclared, found, denotes.node]
  dsimp only
  rw [scope]
  have bases := h.resolveBases hd denotes d.inner d.node.baseReferences.zipIdx
  rw [List.zipIdx_map_fst] at bases
  obtain ⟨attributes, -⟩ := bases.midway.resolveAttributes d.inner d.node.attributes
  have valid := bases.midway.named_resolveAttributes d.inner d.node.attributes
  have resolved := bases.trans attributes
  have applied := resolved.silent (resolved.midway.own hd
    (resolved.midway.orderly.sound.redraws_addAttributes (resolved.denotes denotes).named
      ⟨rfl, valid⟩)
    (resolves_addAttributes x.id _ _).edited.edits.writes (fun _ => rfl) fun _ => rfl)
  have members := applied.trans (applied.midway.resolveMembers hd (applied.denotes denotes) d.inner
    d.node.members)
  rw [Declaration.filled, List.flatMap_append, ← List.append_assoc]
  exact members

theorem Midway.resolveAll (h : Midway ds b) {xs : List Declared} {es : List Declaration}
    (denote : List.Forall₂ (Declared.Denotes b.table) xs es) (sub : ∀ e ∈ es, e ∈ ds) :
    Stage ds (es.flatMap Declaration.recorded) (es.flatMap (Declaration.filled ds)) b
      (xs.foldl (fun b x => Binder.resolveDeclared x b) b) := by
  induction es generalizing xs b with
  | nil =>
      cases denote
      exact h.refl
  | cons e es ih =>
      cases denote with
      | @cons x _ xs _ denotes rest =>
          obtain ⟨own, sub⟩ := List.forall_mem_cons.mp sub
          have first := h.resolveDeclared own denotes
          rw [List.foldl_cons, List.flatMap_cons, List.flatMap_cons]
          exact first.trans (ih first.midway (rest.imp fun _ _ => first.denotes) sub)

theorem Midway.defaultBases (h : Midway ds b) {object : Nat}
    (root : b.table.nameOf? object = some "System.Object") {xs : List Declared}
    {es : List Declaration} (denote : List.Forall₂ (Declared.Denotes b.table) xs es)
    (sub : ∀ e ∈ es, e ∈ ds) :
    Stage ds [] [] b
      { b with table := xs.foldl (fun t x => Binder.defaultBase object x t) b.table } := by
  induction es generalizing xs b with
  | nil =>
      cases denote
      exact h.refl
  | cons e es ih =>
      cases denote with
      | @cons x _ xs _ denotes rest =>
          obtain ⟨own, sub⟩ := List.forall_mem_cons.mp sub
          have first : Stage ds [] [] b
              { b with table := Binder.defaultBase object x b.table } := by
            rcases defaultBase_eq object x b.table with same | set
            · rw [same]
              exact h.refl
            · rw [set]
              exact h.own own (h.orderly.sound.redraws_setBase denotes.named root)
                (SymbolTable.Writes.refl.setBase _ _) (fun _ => rfl) fun _ => rfl
          rw [List.foldl_cons]
          exact first.silent (ih first.midway
            (first.follows.writes.grows.keepsNames _ _ root)
            (rest.imp fun _ _ => first.denotes) sub)

end

/-- What the first pass enters has neither members nor a definition. -/
theorem effects_declareFiles (files : List ParsedFile) (name : String) :
    (declareFiles files).table.outlinesOf name = [] ∧
      (declareFiles files).table.definitionOf? name = none := by
  have entered := entered_declareFiles files
  rw [SymbolTable.outlinesOf, SymbolTable.definitionOf?]
  cases drawn : (declareFiles files).table.portrait? name with
  | none => exact ⟨rfl, rfl⟩
  | some p =>
      obtain ⟨id, named⟩ := SymbolTable.has_of_portrait? drawn
      obtain ⟨s, found, rfl⟩ := SymbolTable.nameOf?_eq_some_iff.mp named
      rw [entered.distinct.portrait?_eq found, entered.symbols id s found] at drawn
      obtain rfl := Option.some.inj drawn
      exact ⟨rfl, rfl⟩

/-- What binding records and fills in, before the table is finished. -/
theorem effects_bind (files : List ParsedFile) :
    ∃ t : SymbolTable, bind files = t.finish ∧ t.Sound ∧
      (∀ name, t.outlinesOf name =
        (((ofFiles files).flatMap recorded).filter (·.1 == name)).map (·.2)) ∧
      ∀ name, t.definitionOf? name =
        ((ofFiles files).flatMap (Declaration.filled (ofFiles files))).reverse.lookup name := by
  have entered := entered_declareFiles files
  have passed := entered.midway.resolveAll entered.denote fun _ hd => hd
  obtain ⟨⟨object, t⟩, taken, root, ensured⟩ :=
    passed.midway.orderly.take (show (Catalog.find? "System.Object").isSome by decide)
  have took := passed.silent (passed.midway.stage ensured
    ⟨rfl, rfl, Catalog.writes_ensure? _ taken⟩ (passed.midway.effects_ensure? taken))
  have based := took.silent (took.midway.defaultBases root
    (entered.denote.imp fun _ _ => took.denotes) fun _ hd => hd)
  refine ⟨_, ?_, based.midway.orderly.sound, fun name => ?_, fun name => ?_⟩
  · rw [bind]
    dsimp only
    rw [taken, passed.follows.declared]
  · rw [based.effects.members, (effects_declareFiles files name).1, List.nil_append]
  · rw [based.effects.definitions, (effects_declareFiles files name).2, Option.or_none]

end Binder

namespace SymbolTable

variable {t : SymbolTable} {name definition : String}

theorem Sound.members_finish (sound : t.Sound) {id : Nat} {s : TypeSymbol}
    (h : t.finish.symbol? id = some s) :
    s.members.map (·.outline) = t.outlinesOf s.displayName := by
  obtain ⟨before, earlier, rfl⟩ := symbol?_of_finish h
  rw [outlinesOf, sound.distinct.portrait?_eq earlier]
  simp [TypeSymbol.portrait, MemberSymbol.outline_portrait]

/-- The type of a name is filled in from that of another name. -/
def LinksTo (t : SymbolTable) (name definition : String) : Prop :=
  ∃ id s k d, t.symbol? id = some s ∧ s.displayName = name ∧ s.originalDefinition = some k ∧
    t.symbol? k = some d ∧ d.displayName = definition

theorem Sound.linksTo_iff (sound : t.Sound) :
    t.LinksTo name definition ↔ t.definitionOf? name = some definition := by
  constructor
  · rintro ⟨id, s, k, d, hs, rfl, origin, hd, rfl⟩
    rw [definitionOf?, sound.distinct.portrait?_eq hs, Option.bind_some, TypeSymbol.portrait,
      origin, Option.map_some, nameAt_of_nameOf? (nameOf?_eq_some_iff.mpr ⟨d, hd, rfl⟩)]
  · intro h
    rw [definitionOf?, Option.bind_eq_some_iff] at h
    obtain ⟨p, drawn, original⟩ := h
    obtain ⟨id, named⟩ := has_of_portrait? drawn
    obtain ⟨s, hs, rfl⟩ := nameOf?_eq_some_iff.mp named
    rw [sound.distinct.portrait?_eq hs] at drawn
    rw [← Option.some.inj drawn, TypeSymbol.portrait, Option.map_eq_some_iff] at original
    obtain ⟨k, origin, rfl⟩ := original
    obtain ⟨name, named⟩ := sound.closed hs k (by simp [TypeSymbol.refs, origin])
    obtain ⟨d, hd, rfl⟩ := nameOf?_eq_some_iff.mp named
    exact ⟨id, s, k, d, hs, rfl, origin, hd, (nameAt_of_nameOf? named).symm⟩

theorem linksTo_finish : t.finish.LinksTo name definition ↔ t.LinksTo name definition := by
  constructor
  · rintro ⟨id, s, k, d, hs, rfl, origin, hd, rfl⟩
    obtain ⟨s', hs', rfl⟩ := symbol?_of_finish hs
    obtain ⟨d', hd', rfl⟩ := symbol?_of_finish hd
    exact ⟨id, s', k, d', hs', rfl, origin, hd', rfl⟩
  · rintro ⟨id, s, k, d, hs, rfl, origin, hd, rfl⟩
    have finished := symbol?_finish t
    exact ⟨id, _, k, _, (finished id).trans (congrArg _ hs), rfl, origin,
      (finished k).trans (congrArg _ hd), rfl⟩

end SymbolTable
end Antipattern
