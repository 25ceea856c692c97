import Mathlib.Data.List.Nodup
import Mathlib.Logic.Equiv.Defs
import Antipattern.Proofs.Portraits

/-!
Tables that differ in their numbers only. Two sound tables that say the same of every name, up to
the numbers of the trees, are the same up to a renumbering of the symbols. Finishing a table goes
along with the renumbering.
-/

namespace Antipattern

def SyntaxRef.renumber (trees : Nat → Nat) (place : SyntaxRef) : SyntaxRef :=
  { place with tree := trees place.tree }

def AppliedAttribute.renumber (ids : Nat → Nat) (a : AppliedAttribute) : AppliedAttribute :=
  { a with classId := a.classId.map ids }

def MemberSymbol.renumber (ids trees : Nat → Nat) (m : MemberSymbol) : MemberSymbol :=
  { m with
    attributes := m.attributes.map (·.renumber ids)
    declared := m.declared.map (·.renumber trees) }

/-- The symbol with other numbers for the symbols and for the trees. -/
def TypeSymbol.renumber (ids trees : Nat → Nat) (s : TypeSymbol) : TypeSymbol :=
  { s with
    id := ids s.id
    baseType := s.baseType.map ids
    interfaces := s.interfaces.map ids
    allInterfaces := s.allInterfaces.map ids
    originalDefinition := s.originalDefinition.map ids
    attributes := s.attributes.map (·.renumber ids)
    members := s.members.map (·.renumber ids trees)
    declared := s.declared.map (·.renumber trees) }

def MemberPortrait.renumber (trees : Nat → Nat) (m : MemberPortrait) : MemberPortrait :=
  { m with declared := m.declared.map (·.renumber trees) }

namespace Portrait

def renumber (trees : Nat → Nat) (p : Portrait) : Portrait :=
  { p with
    members := p.members.map (·.renumber trees)
    declared := p.declared.map (·.renumber trees) }

/-- The symbol of a name with this portrait, where names have these ids. -/
def symbol (idAt : String → Nat) (name : String) (p : Portrait) : TypeSymbol where
  id := idAt name
  name := simpleName name
  displayName := name
  kind := p.kind
  special := .ofName name
  baseType := p.base.map idAt
  interfaces := p.interfaces.map idAt
  allInterfaces := p.allInterfaces.map idAt
  originalDefinition := p.original.map idAt
  attributes := p.attributes.map fun a => ⟨a.name, a.type.map idAt⟩
  members := p.members.map fun m =>
    ⟨m.name, m.kind, m.attributes.map fun a => ⟨a.name, a.type.map idAt⟩, m.declared⟩
  declared := p.declared

theorem renumber_withInterface (trees : Nat → Nat) (name : String) (p : Portrait) :
    (p.withInterface name).renumber trees = (p.renumber trees).withInterface name := by
  rw [withInterface, withInterface, apply_ite (renumber trees)]
  rfl

end Portrait

section
variable {f g : Nat → Nat}

theorem map_renumber_congr {as : List AppliedAttribute}
    (h : ∀ a ∈ as, a.classId.map f = a.classId.map g) :
    as.map (·.renumber f) = as.map (·.renumber g) := by
  apply List.map_congr_left
  intro a ha
  rw [AppliedAttribute.renumber, AppliedAttribute.renumber, h a ha]

theorem TypeSymbol.renumber_congr {s : TypeSymbol} (trees : Nat → Nat) (own : f s.id = g s.id)
    (h : ∀ i ∈ s.refs, f i = g i) : s.renumber f trees = s.renumber g trees := by
  obtain ⟨base, interfaces, allInterfaces, original, attributes, members⟩ := map_refs_congr h
  have member : s.members.map (·.renumber f trees) = s.members.map (·.renumber g trees) := by
    apply List.map_congr_left
    intro m hm
    rw [MemberSymbol.renumber, MemberSymbol.renumber, map_renumber_congr (members m hm)]
  rw [renumber, renumber, own, base, interfaces, allInterfaces, original,
    map_renumber_congr attributes, member]

theorem TypeSymbol.renumber_self (s : TypeSymbol) :
    s.renumber (fun i => i) (fun i => i) = s := by
  have place (r : SyntaxRef) : r.renumber (fun i => i) = r := rfl
  have attributes (as : List AppliedAttribute) : as.map (·.renumber fun i => i) = as := by
    simp [AppliedAttribute.renumber]
  have members : s.members.map (·.renumber (fun i => i) fun i => i) = s.members := by
    simp [MemberSymbol.renumber, attributes, place]
  simp [renumber, attributes, members, place]

theorem Portrait.renumber_self (p : Portrait) : p.renumber (fun i => i) = p := by
  have place (r : SyntaxRef) : r.renumber (fun i => i) = r := rfl
  simp [renumber, MemberPortrait.renumber, place]

end

namespace SymbolTable

variable {t t' : SymbolTable} {trees : Nat → Nat}

/-- A symbol of a sound table by its portrait, under ids that depend on names. -/
theorem Sound.renumber_eq (sound : t.Sound) {ids : Nat → Nat} {idAt : String → Nat}
    (h : ∀ i name, t.nameOf? i = some name → ids i = idAt name) (trees : Nat → Nat) {id : Nat}
    {s : TypeSymbol} (found : t.symbol? id = some s) :
    s.renumber ids trees = ((s.portrait t.nameAt).renumber trees).symbol idAt s.displayName := by
  have named : ∀ {i name}, t.nameOf? i = some name → ids i = idAt (t.nameAt i) := by
    intro i name named
    rw [h i name named, nameAt_of_nameOf? named]
  have own : t.nameOf? s.id = some s.displayName :=
    nameOf?_eq_some_iff.mpr ⟨s, sound.id found ▸ found, rfl⟩
  have agree := TypeSymbol.renumber_congr (f := ids) (g := fun i => idAt (t.nameAt i)) trees
    (named own) fun i hi => named (sound.closed found i hi).choose_spec
  rw [agree]
  simp [TypeSymbol.renumber, TypeSymbol.portrait, Portrait.renumber, Portrait.symbol,
    AppliedAttribute.renumber, AppliedAttribute.portrait, MemberSymbol.renumber,
    MemberSymbol.portrait, MemberPortrait.renumber, Function.comp_def, nameAt_of_nameOf? own,
    sound.name found, sound.special found]

/-- The id that a table has for a name. -/
def idAt (t : SymbolTable) (name : String) : Nat :=
  (t.lookup? name).getD 0

theorem Distinct.idAt (distinct : t.Distinct) {id : Nat} {name : String}
    (named : t.nameOf? id = some name) : t.idAt name = id := by
  rw [SymbolTable.idAt, distinct.lookup?.mpr named, Option.getD_some]

/-- In its own table a symbol is numbered by its portrait. -/
theorem Sound.symbol_eq (sound : t.Sound) {id : Nat} {s : TypeSymbol}
    (found : t.symbol? id = some s) :
    s = (s.portrait t.nameAt).symbol t.idAt s.displayName := by
  have own := sound.renumber_eq (fun _ _ named => (sound.distinct.idAt named).symm) (fun i => i)
    found
  rwa [s.renumber_self, Portrait.renumber_self] at own

/-- The symbol of the same name in another table; numbers without a symbol stay. -/
def counterpart (t t' : SymbolTable) (id : Nat) : Nat :=
  (t.nameOf? id).elim id t'.idAt

/-- All names of a table by id. -/
def names (t : SymbolTable) : List String :=
  t.symbols.toList.map (·.displayName)

theorem getElem?_names (t : SymbolTable) (id : Nat) : t.names[id]? = t.nameOf? id := by
  simp [names, nameOf?, symbol?]

theorem mem_names {name : String} : name ∈ t.names ↔ t.Has name := by
  simp only [List.mem_iff_getElem?, getElem?_names, Has]

theorem Distinct.nodup_names (distinct : t.Distinct) : t.names.Nodup := by
  rw [List.Nodup, List.pairwise_iff_getElem]
  intro i j hi hj lt same
  have first := getElem?_names t i
  have second := getElem?_names t j
  rw [List.getElem?_eq_getElem hi] at first
  rw [List.getElem?_eq_getElem hj, ← same] at second
  exact Nat.ne_of_lt lt (distinct i j _ first.symm second.symm)

theorem size_eq_of_has (distinct : t.Distinct) (distinct' : t'.Distinct)
    (same : ∀ name, t.Has name ↔ t'.Has name) : t.symbols.size = t'.symbols.size := by
  have perm : t.names.Perm t'.names :=
    (List.perm_ext_iff_of_nodup distinct.nodup_names distinct'.nodup_names).mpr fun name =>
      mem_names.trans ((same name).trans mem_names.symm)
  simpa [SymbolTable.names] using perm.length_eq

theorem nameOf?_eq_none_iff {id : Nat} : t.nameOf? id = none ↔ t.symbols.size ≤ id := by
  simp [nameOf?, symbol?]

section
variable (distinct : t.Distinct) (distinct' : t'.Distinct)
  (names : ∀ name, t.Has name ↔ t'.Has name)
include distinct distinct' names

theorem nameOf?_counterpart (id : Nat) :
    t'.nameOf? (counterpart t t' id) = t.nameOf? id := by
  rw [counterpart]
  cases named : t.nameOf? id with
  | none =>
      rw [nameOf?_eq_none_iff, size_eq_of_has distinct distinct' names] at named
      exact nameOf?_eq_none_iff.mpr named
  | some name =>
      obtain ⟨id', named'⟩ := (names name).mp ⟨id, named⟩
      rw [Option.elim_some, distinct'.idAt named', named']

theorem counterpart_counterpart (id : Nat) :
    counterpart t' t (counterpart t t' id) = id := by
  have back := nameOf?_counterpart distinct distinct' names id
  rw [counterpart, back]
  cases named : t.nameOf? id with
  | none => simp [counterpart, named]
  | some name => exact distinct.idAt named

/-- The renumbering between two tables with the same names. -/
def renumbering : Equiv.Perm Nat where
  toFun := counterpart t t'
  invFun := counterpart t' t
  left_inv := counterpart_counterpart distinct distinct' names
  right_inv := counterpart_counterpart distinct' distinct fun name => (names name).symm

end

/-- Tables that say the same of every name are the same up to a renumbering. -/
theorem Sound.exists_renumbering (sound : t.Sound) (sound' : t'.Sound)
    (same : ∀ name, t.portrait? name = (t'.portrait? name).map (·.renumber trees)) :
    ∃ ids : Equiv.Perm Nat, ∀ id,
      t.symbol? (ids id) = (t'.symbol? id).map (·.renumber ids trees) := by
  have names : ∀ name, t'.Has name ↔ t.Has name := by
    intro name
    rw [has_iff, has_iff, same, Option.isSome_map]
  let ids := renumbering sound'.distinct sound.distinct names
  have named (id) : t.nameOf? (ids id) = t'.nameOf? id :=
    nameOf?_counterpart sound'.distinct sound.distinct names id
  have byName : ∀ id name, t'.nameOf? id = some name → ids id = t.idAt name := by
    intro id name present
    exact (sound.distinct.idAt ((named id).trans present)).symm
  refine ⟨ids, fun id => ?_⟩
  cases found' : t'.symbol? id with
  | none =>
      have absent := named id
      rw [nameOf?, nameOf?, found', Option.map_none, Option.map_eq_none_iff] at absent
      exact absent
  | some s' =>
      have present : t'.nameOf? id = some s'.displayName :=
        nameOf?_eq_some_iff.mpr ⟨s', found', rfl⟩
      obtain ⟨s, found, display⟩ := nameOf?_eq_some_iff.mp ((named id).trans present)
      have looks : s.portrait t.nameAt = (s'.portrait t'.nameAt).renumber trees := by
        have drawn := same s.displayName
        rw [sound.distinct.portrait?_eq found, display, sound'.distinct.portrait?_eq found'] at drawn
        exact Option.some.inj drawn
      rw [found, Option.map_some, Option.some.injEq, sound'.renumber_eq byName trees found', ← looks,
        ← display]
      exact sound.symbol_eq found

theorem contains_map {f : Nat → Nat} (injective : Function.Injective f) (xs : List Nat) (i : Nat) :
    (xs.map f).contains (f i) = xs.contains i := by
  rw [Bool.eq_iff_iff, List.contains_iff_mem, List.contains_iff_mem,
    List.mem_map_of_injective injective]

theorem join_map {f : Nat → Nat} (injective : Function.Injective f) (start : Nat)
    (found interfaces : List Nat) :
    join (f start) (found.map f) (interfaces.map f) = (join start found interfaces).map f := by
  rw [join, join, List.foldl_map]
  refine List.foldl_hom (List.map f) fun found i => ?_
  have own : (f i == f start) = (i == start) := by
    rw [Bool.eq_iff_iff, beq_iff_eq, beq_iff_eq, injective.eq_iff]
  rw [own, contains_map injective]
  split
  · rfl
  · rw [List.map_append, List.map_singleton]

section
variable {ids : Nat → Nat} (injective : Function.Injective ids)
  (renumbered : ∀ id, t.symbol? (ids id) = (t'.symbol? id).map (·.renumber ids trees))
include injective renumbered

theorem reach_map (start : Nat) (pending opened found : List Nat) :
    t.reach (ids start) (pending.map ids) (opened.map ids) (found.map ids) =
      (t'.reach start pending opened found).map ids := by
  fun_induction reach t' start pending opened found with
  | case1 => simp [reach]
  | case2 current pending opened found isOpen ih =>
      rw [List.map_cons, reach, dif_pos ((contains_map injective _ _).trans isOpen), ih]
  | case3 current pending opened found isNew absent ih =>
      rw [List.map_cons, reach, dif_neg (by rwa [contains_map injective])]
      split
      · exact ih
      · next present =>
          rw [renumbered, absent] at present
          simp at present
  | case4 current pending opened found isNew s present ih =>
      rw [List.map_cons, reach, dif_neg (by rwa [contains_map injective])]
      split
      · next absent =>
          rw [renumbered, present] at absent
          simp at absent
      · next s' present' =>
          rw [renumbered, present, Option.map_some, Option.some.injEq] at present'
          subst present'
          rw [← ih, ← join_map injective]
          simp [TypeSymbol.renumber, Option.toList_map]

theorem symbol?_finish_renumber (id : Nat) :
    t.finish.symbol? (ids id) = (t'.finish.symbol? id).map (·.renumber ids trees) := by
  have reached : t.reachedInterfaces (ids id) = (t'.reachedInterfaces id).map ids :=
    reach_map injective renumbered id [id] [] []
  rw [symbol?_finish, symbol?_finish, renumbered, Option.map_map, Option.map_map, reached]
  rfl

end

/-- Renumbering keeps the kinds of the symbols of each name. -/
theorem kind_of_renumber {t t' : SymbolTable} {ids trees : Nat → Nat}
    (same : ∀ id, t.symbol? (ids id) = (t'.symbol? id).map (·.renumber ids trees)) {id : Nat}
    {s : TypeSymbol} (found : t'.symbol? id = some s) :
    s.kind ∈ (t.symbols.toList.filter (·.displayName == s.displayName)).map (·.kind) := by
  have moved := same id
  rw [found, Option.map_some] at moved
  refine List.mem_map.mpr ⟨s.renumber ids trees, List.mem_filter.mpr ⟨?_, ?_⟩, rfl⟩
  · exact Array.mem_toList_iff.mpr (Array.mem_of_getElem? moved)
  · exact beq_self_eq_true s.displayName

end SymbolTable
end Antipattern
