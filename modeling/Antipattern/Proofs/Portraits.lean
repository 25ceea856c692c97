import Antipattern.Proofs.SecondPass

/-!
Portraits of symbols: what a symbol says, with names in place of ids. Ids depend on the order in
which names were met; portraits do not. In a sound table, where all ids that symbols store are
those of symbols, each operation has a simple effect on portraits.
-/

namespace Antipattern

structure AttributePortrait where
  name : String
  type : Option String
deriving DecidableEq

structure MemberPortrait where
  name : String
  kind : MemberKind
  attributes : List AttributePortrait
  declared : Option SyntaxRef
deriving DecidableEq

structure Portrait where
  kind : TypeKind
  base : Option String := none
  interfaces : List String := []
  allInterfaces : List String := []
  original : Option String := none
  attributes : List AttributePortrait := []
  members : List MemberPortrait := []
  declared : List SyntaxRef := []
deriving DecidableEq

def AppliedAttribute.portrait (nameAt : Nat → String) (a : AppliedAttribute) : AttributePortrait :=
  ⟨a.name, a.classId.map nameAt⟩

def MemberSymbol.portrait (nameAt : Nat → String) (m : MemberSymbol) : MemberPortrait :=
  ⟨m.name, m.kind, m.attributes.map (·.portrait nameAt), m.declared⟩

namespace TypeSymbol

def portrait (nameAt : Nat → String) (s : TypeSymbol) : Portrait where
  kind := s.kind
  base := s.baseType.map nameAt
  interfaces := s.interfaces.map nameAt
  allInterfaces := s.allInterfaces.map nameAt
  original := s.originalDefinition.map nameAt
  attributes := s.attributes.map (·.portrait nameAt)
  members := s.members.map (·.portrait nameAt)
  declared := s.declared

/-- All ids that a symbol stores. -/
def refs (s : TypeSymbol) : List Nat :=
  s.baseType.toList ++ (s.interfaces ++ (s.allInterfaces ++ (s.originalDefinition.toList ++
    (s.attributes.filterMap (·.classId) ++ s.members.flatMap fun m =>
      m.attributes.filterMap (·.classId)))))

end TypeSymbol

section
variable {α : Type} {f g : Nat → α}

theorem AppliedAttribute.map_classId_congr {as : List AppliedAttribute}
    (h : ∀ i ∈ as.filterMap (·.classId), f i = g i) :
    ∀ a ∈ as, a.classId.map f = a.classId.map g :=
  fun a ha => Option.map_congr fun i hi => h i (List.mem_filterMap.mpr ⟨a, ha, hi⟩)

theorem TypeSymbol.map_refs_congr {s : TypeSymbol} (h : ∀ i ∈ s.refs, f i = g i) :
    s.baseType.map f = s.baseType.map g ∧ s.interfaces.map f = s.interfaces.map g ∧
      s.allInterfaces.map f = s.allInterfaces.map g ∧
      s.originalDefinition.map f = s.originalDefinition.map g ∧
      (∀ a ∈ s.attributes, a.classId.map f = a.classId.map g) ∧
      ∀ m ∈ s.members, ∀ a ∈ m.attributes, a.classId.map f = a.classId.map g := by
  simp only [refs, List.forall_mem_append, List.mem_flatMap] at h
  obtain ⟨base, interfaces, allInterfaces, original, attributes, members⟩ := h
  exact ⟨Option.map_congr fun i hi => base i (Option.mem_toList.mpr hi),
    List.map_congr_left interfaces, List.map_congr_left allInterfaces,
    Option.map_congr fun i hi => original i (Option.mem_toList.mpr hi),
    AppliedAttribute.map_classId_congr attributes, fun m hm =>
      AppliedAttribute.map_classId_congr fun i hi => members i ⟨m, hm, hi⟩⟩

end

section
variable {f g : Nat → String}

theorem map_portrait_congr {as : List AppliedAttribute}
    (h : ∀ a ∈ as, a.classId.map f = a.classId.map g) :
    as.map (·.portrait f) = as.map (·.portrait g) := by
  apply List.map_congr_left
  intro a ha
  rw [AppliedAttribute.portrait, AppliedAttribute.portrait, h a ha]

theorem TypeSymbol.portrait_congr {s : TypeSymbol} (h : ∀ i ∈ s.refs, f i = g i) :
    s.portrait f = s.portrait g := by
  obtain ⟨base, interfaces, allInterfaces, original, attributes, members⟩ := map_refs_congr h
  have member : s.members.map (·.portrait f) = s.members.map (·.portrait g) := by
    apply List.map_congr_left
    intro m hm
    rw [MemberSymbol.portrait, MemberSymbol.portrait, map_portrait_congr (members m hm)]
  rw [portrait, portrait, base, interfaces, allInterfaces, original,
    map_portrait_congr attributes, member]

end

namespace SymbolTable

/-- The name of an id; the empty name outside the table. -/
def nameAt (t : SymbolTable) (id : Nat) : String :=
  (t.nameOf? id).getD ""

def Has (t : SymbolTable) (name : String) : Prop :=
  ∃ id, t.nameOf? id = some name

/-- A table whose symbols are what their names and positions say and store ids of the table only. -/
structure Sound (t : SymbolTable) : Prop where
  distinct : t.Distinct
  id : ∀ {id s}, t.symbol? id = some s → s.id = id
  name : ∀ {id s}, t.symbol? id = some s → s.name = simpleName s.displayName
  special : ∀ {id s}, t.symbol? id = some s → s.special = .ofName s.displayName
  closed : ∀ {id s}, t.symbol? id = some s → ∀ i ∈ s.refs, ∃ name, t.nameOf? i = some name

/-- What the table says about a name. -/
def portrait? (t : SymbolTable) (name : String) : Option Portrait :=
  (t.lookup? name).bind fun id => (t.symbol? id).map (·.portrait t.nameAt)

theorem nameAt_of_nameOf? {t : SymbolTable} {id : Nat} {name : String}
    (h : t.nameOf? id = some name) : t.nameAt id = name := by
  rw [nameAt, h, Option.getD_some]

theorem Distinct.portrait?_eq {t : SymbolTable} (distinct : t.Distinct) {id : Nat}
    {s : TypeSymbol} (h : t.symbol? id = some s) :
    t.portrait? s.displayName = some (s.portrait t.nameAt) := by
  have found : t.lookup? s.displayName = some id :=
    distinct.lookup?.mpr (nameOf?_eq_some_iff.mpr ⟨s, h, rfl⟩)
  rw [portrait?, found, Option.bind_some, h, Option.map_some]

theorem portrait?_eq_none_iff {t : SymbolTable} {name : String} :
    t.portrait? name = none ↔ ¬ t.Has name := by
  cases found : t.lookup? name with
  | none =>
      have absent : ¬ t.Has name := fun ⟨id, named⟩ => lookup?_eq_none_iff.mp found id named
      simp [portrait?, found, absent]
  | some id =>
      have named := nameOf?_of_lookup? found
      obtain ⟨s, symbol, -⟩ := nameOf?_eq_some_iff.mp named
      have present : t.Has name := ⟨id, named⟩
      simp [portrait?, found, symbol, present]

theorem has_iff {t : SymbolTable} {name : String} : t.Has name ↔ (t.portrait? name).isSome := by
  rw [Option.isSome_iff_ne_none, ne_eq, portrait?_eq_none_iff, Classical.not_not]

theorem has_of_portrait? {t : SymbolTable} {name : String} {p : Portrait}
    (h : t.portrait? name = some p) : t.Has name :=
  has_iff.mpr (Option.isSome_of_eq_some h)

theorem KeepsNames.nameAt {t t' : SymbolTable} (keeps : t.KeepsNames t') {id : Nat}
    {name : String} (h : t.nameOf? id = some name) : t'.nameAt id = t.nameAt id := by
  rw [nameAt_of_nameOf? h, nameAt_of_nameOf? (keeps id name h)]

theorem Sound.portrait_keeps {t t' : SymbolTable} (sound : t.Sound) (keeps : t.KeepsNames t')
    {id : Nat} {s : TypeSymbol} (h : t.symbol? id = some s) :
    s.portrait t'.nameAt = s.portrait t.nameAt := by
  apply TypeSymbol.portrait_congr
  intro i hi
  obtain ⟨name, named⟩ := sound.closed h i hi
  exact keeps.nameAt named

section
variable {t : SymbolTable} {name : String}

theorem Sound.addType (sound : t.Sound) (name : String) (kind : TypeKind) :
    (t.addType name kind).2.Sound := by
  refine ⟨sound.distinct.addType name kind, ?_, ?_, ?_, ?_⟩ <;> intro id s found
  · rcases symbol_of_addType found with old | ⟨-, rfl, rfl⟩
    · exact sound.id old
    · rfl
  · rcases symbol_of_addType found with old | ⟨-, rfl, rfl⟩
    · exact sound.name old
    · rfl
  · rcases symbol_of_addType found with old | ⟨-, rfl, rfl⟩
    · exact sound.special old
    · rfl
  · rcases symbol_of_addType found with old | ⟨-, rfl, rfl⟩
    · intro i hi
      obtain ⟨other, named⟩ := sound.closed old i hi
      exact ⟨other, keepsNames_addType t name kind i other named⟩
    · simp [newSymbol, TypeSymbol.refs]

theorem addType_of_has (h : t.Has name) (kind : TypeKind) : (t.addType name kind).2 = t := by
  cases found : t.lookup? name with
  | none =>
      obtain ⟨id, named⟩ := h
      exact absurd named (lookup?_eq_none_iff.mp found id)
  | some id => rw [addType_of_known found]

theorem has_addType {kind : TypeKind} {other : String} :
    (t.addType name kind).2.Has other ↔ t.Has other ∨ other = name := by
  constructor
  · rintro ⟨id, named⟩
    rcases nameOf?_addType.mp named with old | ⟨-, -, rfl⟩
    · exact .inl ⟨id, old⟩
    · exact .inr rfl
  · rintro (⟨id, named⟩ | rfl)
    · exact ⟨id, keepsNames_addType t name kind id other named⟩
    · exact ⟨_, nameOf?_addType_self t other kind⟩

theorem Sound.portrait?_addType (sound : t.Sound) (absent : ¬ t.Has name) (kind : TypeKind)
    (other : String) :
    (t.addType name kind).2.portrait? other =
      if other = name then some { kind } else t.portrait? other := by
  have keeps := keepsNames_addType t name kind
  have grown := sound.addType name kind
  have fresh : t.lookup? name = none := lookup?_eq_none_iff.mpr fun id named => absent ⟨id, named⟩
  split
  · next same =>
      subst same
      have new : (t.addType other kind).2.symbol? t.symbols.size = some (t.newSymbol other kind) := by
        rw [symbol?_addType, if_pos ⟨fresh, rfl⟩]
      exact grown.distinct.portrait?_eq new
  · next differs =>
      by_cases present : t.Has other
      · obtain ⟨id, named⟩ := present
        obtain ⟨s, found, rfl⟩ := nameOf?_eq_some_iff.mp named
        have kept : (t.addType name kind).2.symbol? id = some s := by
          rw [symbol?_addType, if_neg, found]
          rintro ⟨-, rfl⟩
          simp [symbol?_size] at found
        rw [grown.distinct.portrait?_eq kept, sound.distinct.portrait?_eq found,
          sound.portrait_keeps keeps found]
      · have : ¬ (t.addType name kind).2.Has other := fun h =>
          (has_addType.mp h).elim present differs
        rw [portrait?_eq_none_iff.mpr this, portrait?_eq_none_iff.mpr present]

end

section
variable {t : SymbolTable} {id : Nat} {f : TypeSymbol → TypeSymbol}

theorem has_update (same : ∀ s : TypeSymbol, s.SameIdentity (f s)) {name : String} :
    (t.update id f fun s => (same s).displayName).Has name ↔ t.Has name := by
  simp only [Has, nameOf?_update fun s => (same s).displayName]

theorem nameAt_update (same : ∀ s : TypeSymbol, s.SameIdentity (f s)) :
    (t.update id f fun s => (same s).displayName).nameAt = t.nameAt := by
  funext i
  rw [nameAt, nameOf?_update fun s => (same s).displayName, nameAt]

theorem Sound.update (sound : t.Sound) (same : ∀ s : TypeSymbol, s.SameIdentity (f s))
    (closed : ∀ s, t.symbol? id = some s → ∀ i ∈ (f s).refs, ∃ name, t.nameOf? i = some name) :
    (t.update id f fun s => (same s).displayName).Sound := by
  have nameOf (j : Nat) :
      (t.update id f fun s => (same s).displayName).nameOf? j = t.nameOf? j :=
    nameOf?_update (fun s => (same s).displayName) j
  refine ⟨(grows_update id same).distinct sound.distinct, ?_, ?_, ?_, ?_⟩ <;> intro j s found <;>
    rw [symbol?_update] at found <;> split at found
  · obtain ⟨old, before, rfl⟩ := Option.map_eq_some_iff.mp found
    exact (same old).id.trans (sound.id before)
  · exact sound.id found
  · obtain ⟨old, before, rfl⟩ := Option.map_eq_some_iff.mp found
    rw [(same old).name, (same old).displayName]
    exact sound.name before
  · exact sound.name found
  · obtain ⟨old, before, rfl⟩ := Option.map_eq_some_iff.mp found
    rw [(same old).special, (same old).displayName]
    exact sound.special before
  · exact sound.special found
  · next eq =>
      subst eq
      obtain ⟨old, before, rfl⟩ := Option.map_eq_some_iff.mp found
      simpa only [nameOf] using closed old before
  · simpa only [nameOf] using sound.closed found

theorem Sound.portrait?_update (sound : t.Sound) (same : ∀ s : TypeSymbol, s.SameIdentity (f s))
    {name : String} (named : t.nameOf? id = some name) {g : Portrait → Portrait}
    (effect : ∀ s, t.symbol? id = some s →
      (f s).portrait t.nameAt = g (s.portrait t.nameAt)) (other : String) :
    (t.update id f fun s => (same s).displayName).portrait? other =
      if other = name then (t.portrait? other).map g else t.portrait? other := by
  have distinct := (grows_update (t := t) id same).distinct sound.distinct
  by_cases present : t.Has other
  · obtain ⟨j, present⟩ := present
    obtain ⟨s, found, rfl⟩ := nameOf?_eq_some_iff.mp present
    have own : s.displayName = name ↔ id = j := by
      constructor
      · intro eq
        exact sound.distinct id j name named (nameOf?_eq_some_iff.mpr ⟨s, found, eq⟩)
      · rintro rfl
        obtain ⟨s', found', eq⟩ := nameOf?_eq_some_iff.mp named
        obtain rfl := Option.some.inj (found.symm.trans found')
        exact eq
    have updated := symbol?_update t id f (fun s => (same s).displayName) j
    rw [found] at updated
    rw [sound.distinct.portrait?_eq found]
    by_cases here : id = j
    · rw [if_pos here, Option.map_some] at updated
      rw [if_pos (own.mpr here), ← (same s).displayName, distinct.portrait?_eq updated,
        nameAt_update same, effect s (here ▸ found), Option.map_some]
    · rw [if_neg here] at updated
      rw [if_neg fun eq => here (own.mp eq), distinct.portrait?_eq updated, nameAt_update same]
  · have absent : ¬ (t.update id f fun s => (same s).displayName).Has other :=
      fun h => present ((has_update same).mp h)
    rw [portrait?_eq_none_iff.mpr absent, portrait?_eq_none_iff.mpr present]
    simp

/-- A table in which one portrait has changed. -/
structure Redraws (t t' : SymbolTable) (name : String) (g : Portrait → Portrait) : Prop where
  sound : t'.Sound
  names : ∀ id, t'.nameOf? id = t.nameOf? id
  portrait? : ∀ other, t'.portrait? other =
    if other = name then (t.portrait? other).map g else t.portrait? other

theorem Sound.redraws_update (sound : t.Sound) (same : ∀ s : TypeSymbol, s.SameIdentity (f s))
    {name : String} (named : t.nameOf? id = some name) {g : Portrait → Portrait}
    (stored : ∀ (s : TypeSymbol) i, i ∈ (f s).refs →
      i ∈ s.refs ∨ ∃ name, t.nameOf? i = some name)
    (effect : ∀ s, t.symbol? id = some s →
      (f s).portrait t.nameAt = g (s.portrait t.nameAt)) :
    Redraws t (t.update id f fun s => (same s).displayName) name g where
  sound := sound.update same fun s found i hi => (stored s i hi).elim (sound.closed found i) fun h => h
  names := nameOf?_update fun s => (same s).displayName
  portrait? := sound.portrait?_update same named effect

section
variable {t' t'' : SymbolTable} {name : String} {g g' : Portrait → Portrait}

theorem Redraws.has (h : Redraws t t' name g) (other : String) : t'.Has other ↔ t.Has other := by
  simp only [Has, h.names]

theorem Sound.redraws_refl (sound : t.Sound) (name : String) : Redraws t t name fun p => p :=
  ⟨sound, fun _ => rfl, by simp⟩

theorem Redraws.trans (h : Redraws t t' name g) (h' : Redraws t' t'' name g') :
    Redraws t t'' name fun p => g' (g p) where
  sound := h'.sound
  names id := (h'.names id).trans (h.names id)
  portrait? other := by
    rw [h'.portrait?, h.portrait?]
    split
    · exact Option.map_map ..
    · rfl

end

end

end SymbolTable

def Portrait.withInterface (name : String) (p : Portrait) : Portrait :=
  if name ∈ p.interfaces then p else { p with interfaces := p.interfaces ++ [name] }

namespace SymbolTable

section
variable {t : SymbolTable} {id target : Nat} {name targetName : String}

theorem Sound.redraws_setBase (sound : t.Sound) (named : t.nameOf? id = some name)
    (targetNamed : t.nameOf? target = some targetName) :
    Redraws t (t.setBase id target) name fun p => { p with base := some targetName } := by
  refine sound.redraws_update (fun s => s.sameIdentity_base _) named ?_ ?_
  · intro s i hi
    simp only [TypeSymbol.refs, List.mem_append, Option.toList_some, List.mem_singleton] at hi ⊢
    grind
  · intro s _
    simp [TypeSymbol.portrait, nameAt_of_nameOf? targetNamed]

theorem Sound.redraws_addInterface (sound : t.Sound) (named : t.nameOf? id = some name)
    (targetNamed : t.nameOf? target = some targetName) :
    Redraws t (t.addInterface id target) name (·.withInterface targetName) := by
  refine sound.redraws_update (fun s => s.sameIdentity_interface target) named ?_ ?_
  · intro s i hi
    split at hi
    · exact .inl hi
    · simp only [TypeSymbol.refs, List.mem_append, List.mem_singleton] at hi ⊢
      grind
  · intro s found
    -- Ids of the table are the same if their names are.
    have listed : targetName ∈ s.interfaces.map t.nameAt ↔ target ∈ s.interfaces := by
      rw [List.mem_map]
      constructor
      · rintro ⟨i, hi, same⟩
        obtain ⟨other, otherNamed⟩ := sound.closed found i (by simp [TypeSymbol.refs, hi])
        rw [nameAt_of_nameOf? otherNamed] at same
        exact sound.distinct i target targetName (same ▸ otherNamed) targetNamed ▸ hi
      · intro hi
        exact ⟨target, hi, nameAt_of_nameOf? targetNamed⟩
    by_cases known : target ∈ s.interfaces
    · simp [known, Portrait.withInterface, TypeSymbol.portrait, listed]
    · simp [known, Portrait.withInterface, TypeSymbol.portrait, listed,
        nameAt_of_nameOf? targetNamed]

theorem Sound.redraws_setOriginalDefinition (sound : t.Sound) (named : t.nameOf? id = some name)
    (targetNamed : t.nameOf? target = some targetName) :
    Redraws t (t.setOriginalDefinition id target) name
      fun p => { p with original := some targetName } := by
  refine sound.redraws_update (f := fun s => { s with originalDefinition := some target })
    (fun _ => ⟨rfl, rfl, rfl, rfl, rfl, rfl⟩) named ?_ ?_
  · intro s i hi
    simp only [TypeSymbol.refs, List.mem_append, Option.toList_some, List.mem_singleton] at hi ⊢
    grind
  · intro s _
    simp [TypeSymbol.portrait, nameAt_of_nameOf? targetNamed]

theorem Sound.redraws_addAttribute (sound : t.Sound) (named : t.nameOf? id = some name)
    {a : AppliedAttribute} (valid : ∀ i, a.classId = some i → ∃ name, t.nameOf? i = some name) :
    Redraws t (t.addAttribute id a) name
      fun p => { p with attributes := p.attributes ++ [a.portrait t.nameAt] } := by
  refine sound.redraws_update (f := fun s => { s with attributes := s.attributes ++ [a] })
    (fun _ => ⟨rfl, rfl, rfl, rfl, rfl, rfl⟩) named ?_ ?_
  · intro s i hi
    simp only [TypeSymbol.refs, List.mem_append, List.mem_filterMap, List.mem_singleton] at hi ⊢
    grind
  · intro s _
    simp [TypeSymbol.portrait]

/-- Attributes whose classes are in the table, and what they look like. -/
structure Depicts (t : SymbolTable) (as : List AppliedAttribute) (ps : List AttributePortrait) :
    Prop where
  portraits : as.map (·.portrait t.nameAt) = ps
  valid : ∀ i ∈ as.filterMap (·.classId), ∃ name, t.nameOf? i = some name

theorem Depicts.keeps {t' : SymbolTable} {as : List AppliedAttribute}
    {ps : List AttributePortrait} (h : Depicts t as ps) (keeps : t.KeepsNames t') :
    Depicts t' as ps where
  portraits := by
    rw [← h.portraits]
    refine map_portrait_congr (AppliedAttribute.map_classId_congr fun i hi => ?_)
    obtain ⟨name, named⟩ := h.valid i hi
    exact keeps.nameAt named
  valid i hi := by
    obtain ⟨name, named⟩ := h.valid i hi
    exact ⟨name, keeps i name named⟩

theorem Depicts.append {as as' : List AppliedAttribute} {ps ps' : List AttributePortrait}
    (h : Depicts t as ps) (h' : Depicts t as' ps') : Depicts t (as ++ as') (ps ++ ps') where
  portraits := by rw [List.map_append, h.portraits, h'.portraits]
  valid := by
    rw [List.filterMap_append, List.forall_mem_append]
    exact ⟨h.valid, h'.valid⟩

theorem Sound.redraws_addAttributes (sound : t.Sound) (named : t.nameOf? id = some name)
    {as : List AppliedAttribute} {ps : List AttributePortrait} (depicts : Depicts t as ps) :
    Redraws t (as.foldl (fun t a => t.addAttribute id a) t) name
      fun p => { p with attributes := p.attributes ++ ps } := by
  obtain ⟨rfl, valid⟩ := depicts
  induction as generalizing t with
  | nil => simpa using sound.redraws_refl name
  | cons a as ih =>
      have first := sound.redraws_addAttribute named (a := a) fun i hi =>
        valid i (by simp [hi])
      have kept : (t.addAttribute id a).nameAt = t.nameAt := by
        funext i
        rw [nameAt, first.names, nameAt]
      have rest := ih first.sound ((first.names id).trans named) fun i hi => by
        rw [first.names]
        exact valid i (by simp only [List.filterMap_cons]; split <;> simp [hi])
      simpa [kept] using first.trans rest

theorem Sound.redraws_addMember (sound : t.Sound) (named : t.nameOf? id = some name)
    {m : MemberSymbol}
    (valid : ∀ i ∈ m.attributes.filterMap (·.classId), ∃ name, t.nameOf? i = some name) :
    Redraws t (t.addMember id m) name
      fun p => { p with members := p.members ++ [m.portrait t.nameAt] } := by
  refine sound.redraws_update (f := fun s => { s with members := s.members ++ [m] })
    (fun _ => ⟨rfl, rfl, rfl, rfl, rfl, rfl⟩) named ?_ ?_
  · intro s i hi
    simp only [TypeSymbol.refs, List.mem_append, List.mem_flatMap, List.mem_singleton] at hi ⊢
    grind
  · intro s _
    simp [TypeSymbol.portrait]

end

end SymbolTable
end Antipattern
