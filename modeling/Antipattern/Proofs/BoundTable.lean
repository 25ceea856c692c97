import Antipattern.Proofs.ReferenceEffects

/-!
The table that binding leaves, by names. A declaration changes its own portrait and no other, in a
way that the declarations as a whole determine. So each declared type gets one explicit portrait,
and the other types are those that declarations mention, with what they need.
-/

namespace Antipattern

namespace Declaration

/-- The scope of a declaration's base list, attributes and members. -/
def inner (d : Declaration) : Scope :=
  { d.scope with enclosing := d.scope.enclosing ++ [d.display] }

/-- The effect of one reference of the base list. -/
def linked (ds : List Declaration) (d : Declaration) (p : Portrait) (x : String × Nat) : Portrait :=
  let type := target ds d.inner x.1
  if Binder.isBase d.node.kind (some (kindIn ds type)) (x.2 == 0) x.1 then
    { p with base := some type }
  else if d.node.kind = .enumDeclaration then p
  else p.withInterface type

def memberPortrait (ds : List Declaration) (d : Declaration) (n : SyntaxNode) :
    MemberPortrait where
  name := n.identifier?.getD ""
  kind := if n.kind = .constructorDeclaration then .constructor else .method
  attributes := n.attributes.map (attributePortrait ds d.inner)
  declared := some (.ofNode d.tree n)

def withBases (ds : List Declaration) (d : Declaration) (p : Portrait) : Portrait :=
  d.node.baseReferences.zipIdx.foldl (linked ds d) p

def withAttributes (ds : List Declaration) (d : Declaration) (p : Portrait) : Portrait :=
  { p with attributes := p.attributes ++ d.node.attributes.map (attributePortrait ds d.inner) }

def withMembers (ds : List Declaration) (d : Declaration) (p : Portrait) : Portrait :=
  { p with members := p.members ++ d.node.members.map (memberPortrait ds d) }

/-- Types that a declaration mentions in its base list, its attributes and its members'. -/
def mentions (ds : List Declaration) (d : Declaration) : List String :=
  d.node.baseReferences.map (target ds d.inner) ++
    (d.node.attributes ++ d.node.members.flatMap (·.attributes)).filterMap
      fun n => (attributePortrait ds d.inner n).type

theorem exists_mentions {ds : List Declaration} {d : Declaration} {P : String → Prop} :
    (∃ type ∈ mentions ds d, P type) ↔
      (∃ r ∈ d.node.baseReferences, P (target ds d.inner r)) ∨
        (∃ n ∈ d.node.attributes, ∃ type ∈ (attributePortrait ds d.inner n).type, P type) ∨
        ∃ m ∈ d.node.members, ∃ n ∈ m.attributes,
          ∃ type ∈ (attributePortrait ds d.inner n).type, P type := by
  simp only [mentions, List.mem_append, List.mem_map, List.mem_filterMap, List.mem_flatMap,
    Option.mem_def]
  grind

/-- Classes and records without a base derive from `System.Object`. -/
def withDefaultBase (d : Declaration) (p : Portrait) : Portrait :=
  if (d.node.kind = .classDeclaration ∨ d.node.kind = .recordDeclaration) ∧ p.base = none ∧
    d.display ≠ "System.Object" then { p with base := some "System.Object" } else p

/-- What binding makes of a declaration. -/
def portrait (ds : List Declaration) (d : Declaration) : Portrait :=
  withDefaultBase d (withMembers ds d (withAttributes ds d (withBases ds d
    { kind := .ofNodeKind d.node.kind, declared := [d.place] })))

/-- The types of a program by name: all that declarations mention, and the root of the types. -/
def Mentioned (ds : List Declaration) (name : String) : Prop :=
  (∃ d ∈ ds, ∃ type ∈ mentions ds d, Adds ds type name) ∨ Adds ds "System.Object" name

end Declaration

open Declaration

/-- The entry for a declaration in the list of the first pass. -/
structure Declared.Denotes (t : SymbolTable) (x : Declared) (d : Declaration) : Prop where
  tree : x.tree = d.tree
  node : x.node = d.node
  scope : x.scope = d.scope
  named : t.nameOf? x.id = some d.display

theorem Declared.Denotes.keeps {t t' : SymbolTable} {x : Declared} {d : Declaration}
    (h : x.Denotes t d) (keeps : t.KeepsNames t') : x.Denotes t' d :=
  ⟨h.tree, h.node, h.scope, keeps _ _ h.named⟩

namespace Binder

section
variable {ds : List Declaration} {b b' b'' : Binder} {name : String} {f f' : Portrait → Portrait}
  {new new' : String → Prop} {x : Declared} {d : Declaration}

/-- A step that changes one portrait at most. -/
theorem Step.at (h : Step ds (fun _ p => p) new b b') (name : String) :
    Step ds (onlyAt name fun p => p) new b b' :=
  h.congr (fun _ _ _ _ => (ite_self _).symm) fun _ => Iff.rfl

theorem Step.also (h : Step ds (onlyAt name f) new b b')
    (h' : Step ds (onlyAt name f') new' b' b'') :
    Step ds (onlyAt name fun p => f' (f p)) (fun other => new other ∨ new' other) b b'' := by
  refine (h.trans h').congr (fun other p _ _ => ?_) fun _ => Iff.rfl
  unfold onlyAt
  split <;> rfl

theorem Step.congr_at (h : Step ds (onlyAt name f) new b b')
    (effect : ∀ p, b.table.portrait? name = some p → f p = f' p) :
    Step ds (onlyAt name f') new b b' := by
  refine h.congr (fun other p _ drawn => ?_) fun _ => Iff.rfl
  unfold onlyAt
  split
  · next same => exact effect p (same ▸ drawn)
  · rfl

theorem Step.denotes (h : Step ds (onlyAt name f) new b b') (denotes : x.Denotes b.table d) :
    x.Denotes b'.table d :=
  denotes.keeps h.follows.writes.grows.keepsNames

/-- A change of a declared type's own portrait. -/
theorem Settled.step_own (h : Settled ds b) (hd : d ∈ ds) {t : SymbolTable}
    (redraws : SymbolTable.Redraws b.table t d.display f)
    (writes : SymbolTable.Writes b.generics b.table t) (kind : ∀ p, (f p).kind = p.kind) :
    Step ds (onlyAt d.display f) (fun _ => False) b { b with table := t } := by
  refine h.step_redraw redraws writes kind fun undeclared => ?_
  rw [isDeclared_iff.mpr ⟨d, hd, rfl⟩] at undeclared
  simp at undeclared

theorem Settled.step_linkTarget (h : Settled ds b) (hd : d ∈ ds) (denotes : x.Denotes b.table d)
    {type : Nat} {reference : String} (position : Nat)
    (named : b.table.nameOf? type = some (target ds d.inner reference)) :
    Step ds (onlyAt d.display (linked ds d · (reference, position))) (fun _ => False) b
      (b.linkTarget x reference position type) := by
  rw [linkTarget, h.kind_of_named named, denotes.node]
  unfold linked
  dsimp only
  split
  · exact h.step_own hd (h.sound.redraws_setBase denotes.named named)
      (SymbolTable.Writes.refl.setBase _ _) fun _ => rfl
  · split
    · exact (Step.refl h).at d.display
    · refine h.step_own hd (h.sound.redraws_addInterface denotes.named named)
        (SymbolTable.Writes.refl.addInterface _ _) fun p => ?_
      rw [Portrait.withInterface]
      split <;> rfl

theorem Settled.step_resolveBases (h : Settled ds b) (unique : Unique ds) (hd : d ∈ ds)
    (plain : d.inner.Plain) (denotes : x.Denotes b.table d) (references : List (String × Nat)) :
    Step ds (onlyAt d.display fun p => references.foldl (linked ds d) p)
      (fun name => ∃ r ∈ references.map (·.1), Adds ds (target ds d.inner r) name) b
      (resolveBases x d.inner references b) := by
  induction references generalizing b with
  | nil => exact ((Step.refl h).at d.display).adds (by simp)
  | cons r references ih =>
      obtain ⟨reference, position⟩ := r
      rw [resolveBases_cons]
      obtain ⟨resolved, named⟩ := h.step_resolveType unique plain reference
      have resolved := resolved.at d.display
      have link := resolved.settled.step_linkTarget hd (resolved.denotes denotes) position named
      have first := resolved.also link
      have rest := ih first.settled (first.denotes denotes)
      exact (first.also rest).adds (by simp)

theorem Settled.step_resolveMembers (h : Settled ds b) (unique : Unique ds) (hd : d ∈ ds)
    (plain : d.inner.Plain) (clean : CleanKeys ds) (denotes : x.Denotes b.table d)
    (ns : List SyntaxNode) :
    Step ds (onlyAt d.display fun p =>
        { p with members := p.members ++ ns.map (memberPortrait ds d) })
      (fun name => ∃ n ∈ ns, ∃ a ∈ n.attributes,
        ∃ type ∈ (attributePortrait ds d.inner a).type, Adds ds type name) b
      (resolveMembers x d.inner ns b) := by
  induction ns generalizing b with
  | nil => exact ((Step.refl h).at d.display).congr (fun _ _ _ _ => by simp) (by simp)
  | cons n ns ih =>
      obtain ⟨resolved, depicts⟩ := h.step_resolveAttributes unique plain clean n.attributes
      have resolved := resolved.at d.display
      have added := resolved.settled.step_own hd
        (resolved.settled.sound.redraws_addMember (resolved.denotes denotes).named
          (m := { name := n.identifier?.getD ""
                  kind := if n.kind = .constructorDeclaration then .constructor else .method
                  attributes := (resolveAttributes d.inner n.attributes b).1
                  declared := some (.ofNode x.tree n) }) depicts.valid)
        (SymbolTable.Writes.refl.addMember x.id _) fun _ => rfl
      have first := resolved.also added
      have rest := ih first.settled (first.denotes denotes)
      refine (first.also rest).congr (fun _ p _ _ => ?_) (by simp)
      simp [memberPortrait, MemberSymbol.portrait, depicts.portraits, denotes.tree]

theorem Settled.step_resolveDeclared (h : Settled ds b) (unique : Unique ds) (hd : d ∈ ds)
    (plain : d.inner.Plain) (clean : CleanKeys ds) (denotes : x.Denotes b.table d) :
    Step ds (onlyAt d.display fun p => withMembers ds d (withAttributes ds d (withBases ds d p)))
      (fun name => ∃ type ∈ mentions ds d, Adds ds type name) b (resolveDeclared x b) := by
  obtain ⟨s, found, name⟩ := SymbolTable.nameOf?_eq_some_iff.mp denotes.named
  rw [resolveDeclared, found]
  dsimp only
  rw [name, denotes.node, denotes.scope]
  have bases := h.step_resolveBases unique hd plain denotes d.node.baseReferences.zipIdx
  obtain ⟨resolved, depicts⟩ :=
    bases.settled.step_resolveAttributes unique plain clean d.node.attributes
  have resolved := bases.also (resolved.at d.display)
  have applied := resolved.settled.step_own hd
    (resolved.settled.sound.redraws_addAttributes (resolved.denotes denotes).named depicts)
    (resolves_addAttributes x.id _ _).edited.edits.writes fun _ => rfl
  have applied := resolved.also applied
  have members := applied.settled.step_resolveMembers unique hd plain clean
    (applied.denotes denotes) d.node.members
  refine (applied.also members).adds fun name => ?_
  rw [List.zipIdx_map_fst, exists_mentions, or_false, or_assoc]

theorem Settled.step_defaultBase (h : Settled ds b) (hd : d ∈ ds) (denotes : x.Denotes b.table d)
    {object : Nat} (root : b.table.nameOf? object = some "System.Object") :
    Step ds (onlyAt d.display (withDefaultBase d)) (fun _ => False) b
      { b with table := defaultBase object x b.table } := by
  obtain ⟨s, found, name⟩ := SymbolTable.nameOf?_eq_some_iff.mp denotes.named
  have drawn := h.sound.distinct.portrait?_eq found
  rw [name] at drawn
  have isRoot : s.id = object ↔ d.display = "System.Object" := by
    rw [h.sound.id found]
    constructor
    · rintro rfl
      exact Option.some.inj (denotes.named.symm.trans root)
    · intro same
      exact h.sound.distinct x.id object _ (same ▸ denotes.named) root
  -- The condition is one on the portrait that the type has by now.
  have table : defaultBase object x b.table =
      if (d.node.kind = .classDeclaration ∨ d.node.kind = .recordDeclaration) ∧
        (s.portrait b.table.nameAt).base = none ∧ d.display ≠ "System.Object" then
          b.table.setBase x.id object else b.table := by
    rw [defaultBase, found, denotes.node]
    by_cases kind : d.node.kind = .classDeclaration ∨ d.node.kind = .recordDeclaration <;>
      simp [kind, TypeSymbol.portrait, ← isRoot]
  rw [table]
  split
  · next needed =>
      refine (h.step_own hd (h.sound.redraws_setBase denotes.named root)
        (SymbolTable.Writes.refl.setBase _ _) fun _ => rfl).congr_at fun p drawn' => ?_
      obtain rfl := Option.some.inj (drawn.symm.trans drawn')
      exact (if_pos needed).symm
  · next unneeded =>
      refine ((Step.refl h).at d.display).congr_at fun p drawn' => ?_
      obtain rfl := Option.some.inj (drawn.symm.trans drawn')
      exact (if_neg unneeded).symm

/-- Going over declarations, each with an effect on its own portrait. -/
theorem Settled.step_foldl (h : Settled ds b) (step : Binder → Declared → Binder)
    {effect : Declaration → Portrait → Portrait} {adds : Declaration → String → Prop}
    {xs : List Declared} {es : List Declaration}
    (denote : List.Forall₂ (Declared.Denotes b.table) xs es)
    (each : ∀ b' x e, Follows b b' → Settled ds b' → e ∈ es → x.Denotes b'.table e →
      Step ds (onlyAt e.display (effect e)) (adds e) b' (step b' x)) :
    Step ds (fun name p => es.foldl (fun p e => onlyAt e.display (effect e) name p) p)
      (fun name => ∃ e ∈ es, adds e name) b (xs.foldl step b) := by
  induction es generalizing xs b with
  | nil =>
      cases denote
      exact (Step.refl h).adds (by simp)
  | cons e es ih =>
      cases denote with
      | @cons x _ xs _ denotes rest =>
          have first := each b x e (.refl b) h List.mem_cons_self denotes
          have keeps := first.follows.writes.grows.keepsNames
          have others := ih first.settled (rest.imp fun _ _ denotes => denotes.keeps keeps)
            fun b' x e follows settled he denotes =>
              each b' x e (first.follows.trans follows) settled (List.mem_cons_of_mem _ he) denotes
          exact (first.trans others).adds (by simp)

end

section
variable {ds : List Declaration}

/-- Where names are declared once, going over all declarations has each effect once. -/
theorem foldl_onlyAt (unique : Unique ds) {d : Declaration} (hd : d ∈ ds)
    (effect : Declaration → Portrait → Portrait) (p : Portrait) :
    ds.foldl (fun p e => onlyAt e.display (effect e) d.display p) p = effect d p := by
  have untouched : ∀ (es : List Declaration) (p : Portrait), (∀ e ∈ es, d.display ≠ e.display) →
      es.foldl (fun p e => onlyAt e.display (effect e) d.display p) p = p := by
    intro es
    induction es with
    | nil => exact fun _ _ => rfl
    | cons e es ih =>
        intro p apart
        rw [List.forall_mem_cons] at apart
        rw [List.foldl_cons, onlyAt, if_neg apart.1, ih p apart.2]
  obtain ⟨before, after, rfl, earlier, later⟩ := unique.split hd
  rw [List.foldl_append, List.foldl_cons, untouched before p earlier, onlyAt, if_pos rfl,
    untouched after _ later]

theorem Entered.denote {b : Binder} (h : Entered ds b) :
    List.Forall₂ (Declared.Denotes b.table) b.declared ds := by
  have listed := h.declared
  rw [← List.forall₂_eq_eq_eq, List.forall₂_map_left_iff, List.forall₂_map_right_iff] at listed
  refine listed.imp fun x d same => ?_
  simp only [Prod.mk.injEq] at same
  exact ⟨same.1.1, same.1.2.1, same.1.2.2, same.2⟩

theorem Entered.sound {b : Binder} (h : Entered ds b) : b.table.Sound where
  distinct := h.distinct
  id found := congrArg TypeSymbol.id (h.symbols _ _ found)
  name found := congrArg TypeSymbol.name (h.symbols _ _ found)
  special found := congrArg TypeSymbol.special (h.symbols _ _ found)
  closed found i hi := by
    rw [h.symbols _ _ found] at hi
    simp [declaredSymbol, TypeSymbol.refs] at hi

theorem Entered.portrait? {b : Binder} (h : Entered ds b) {name : String}
    (declared : isDeclared ds name) :
    b.table.portrait? name = some { kind := kindOf ds name, declared := placesOf ds name } := by
  obtain ⟨id, named⟩ := (h.names name).mpr (isDeclared_iff.mp declared)
  obtain ⟨s, found, rfl⟩ := SymbolTable.nameOf?_eq_some_iff.mp named
  rw [h.distinct.portrait?_eq found]
  have looks := congrArg (TypeSymbol.portrait b.table.nameAt) (h.symbols id s found)
  rw [looks]
  rfl

theorem lookup_map_snd {α β γ : Type} [BEq α] (f : β → γ) (xs : List (α × β)) (key : α) :
    (xs.map fun x => (x.1, f x.2)).lookup key = (xs.lookup key).map f := by
  induction xs with
  | nil => rfl
  | cons x xs ih =>
      rw [List.map_cons, List.lookup_cons, List.lookup_cons, ih]
      split <;> rfl

theorem Entered.settled {b : Binder} (h : Entered ds b) : Settled ds b := by
  have declared_of_has : ∀ {name}, b.table.Has name → isDeclared ds name := fun present =>
    isDeclared_iff.mpr ((h.names _).mp present)
  refine ⟨h.accounted, h.sound, ?_, ?_, ?_, ?_⟩
  · intro name
    have listed := congrArg (List.lookup name) h.generics
    have values := lookup_map_snd some ((ds.filter isGeneric).reverse.map fun d =>
      (d.key, d.display)) name
    rw [List.map_map] at values
    rw [lookup_map_snd] at listed
    exact listed.trans values
  · intro name p declared drawn
    rw [h.portrait? declared] at drawn
    rw [← Option.some.inj drawn]
  · intro name p undeclared drawn
    have declared := declared_of_has (SymbolTable.has_of_portrait? drawn)
    simp [undeclared] at declared
  · intro x _ undeclared present
    have declared := declared_of_has present
    simp [undeclared] at declared

/-- A table that says of each name what the declarations determine. -/
structure Bound (ds : List Declaration) (t : SymbolTable) : Prop where
  sound : t.Sound
  names : ∀ name, t.Has name ↔ isDeclared ds name ∨ Mentioned ds name
  declared : ∀ d ∈ ds, t.portrait? d.display = some (d.portrait ds)
  others : ∀ {name p}, isDeclared ds name = false → t.portrait? name = some p → p = fresh ds name

theorem table_foldl (step : Declared → SymbolTable → SymbolTable) (xs : List Declared)
    (b : Binder) :
    (xs.foldl (fun b x => { b with table := step x b.table }) b).table =
      xs.foldl (fun t x => step x t) b.table :=
  (List.foldl_hom Binder.table fun _ _ => rfl).symm

theorem bound_bind {files : List ParsedFile} (tidy : ∀ file ∈ files, file.Tidy)
    (unique : Unique (Declaration.ofFiles files)) :
    ∃ t, bind files = t.finish ∧ Bound (Declaration.ofFiles files) t := by
  have entered := entered_declareFiles files
  have passed := entered.settled.step_foldl (fun b x => resolveDeclared x b) entered.denote
    fun b x d _ settled hd denotes =>
      settled.step_resolveDeclared unique hd
        (clean_of_mem_ofFiles (fun file hfile => (tidy file hfile).1) hd).2.1
        (cleanKeys_ofFiles tidy) denotes
  obtain ⟨⟨object, t⟩, taken, root, ensured⟩ :=
    passed.settled.step_ensure? (show (Catalog.find? "System.Object").isSome by decide)
  have reached := passed.trans ensured
  have defaulted := ensured.settled.step_foldl
    (fun b x => { b with table := defaultBase object x b.table })
    (entered.denote.imp fun _ _ denotes => denotes.keeps reached.follows.writes.grows.keepsNames)
    fun b x d follows settled hd denotes =>
      settled.step_defaultBase hd denotes (follows.writes.grows.keepsNames _ _ root)
  have bound := reached.trans defaulted
  refine ⟨_, ?_, bound.settled.sound, fun name => ?_, fun d hd => ?_, bound.settled.others⟩
  · rw [bind]
    dsimp only
    rw [taken, passed.follows.declared, table_foldl]
  · have first : (declareFiles files).table.Has name ↔ isDeclared (ofFiles files) name :=
      (entered.names name).trans isDeclared_iff.symm
    simp only [bound.names, first, Mentioned, and_false, exists_false, or_false]
  · have declared : isDeclared (ofFiles files) d.display := isDeclared_iff.mpr ⟨d, hd, rfl⟩
    rw [bound.portraits d.display declared, entered.portrait? declared, Option.map_some,
      foldl_onlyAt unique hd, foldl_onlyAt unique hd, unique.kindOf hd, unique.placesOf hd]
    rfl

end

end Binder
end Antipattern
