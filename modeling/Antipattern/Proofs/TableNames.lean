import Antipattern.Symbol.Interfaces

/-!
Names in a symbol table. Every operation keeps the names and kinds of the symbols that are there;
a name that is new gets a symbol behind the others. So names stay distinct, and a name is found
at the one symbol that carries it.
-/

namespace Antipattern

/-- What a lookup finds is an entry. -/
theorem mem_of_lookup {α β : Type} [BEq α] [LawfulBEq α] {entries : List (α × β)} {key : α}
    {value : β} (h : entries.lookup key = some value) : (key, value) ∈ entries := by
  obtain ⟨before, after, split, -⟩ := List.lookup_eq_some_iff.mp h
  rw [split]
  exact List.mem_append_right _ List.mem_cons_self

namespace SymbolTable

/-- The display name of the symbol with this id. -/
def nameOf? (t : SymbolTable) (id : Nat) : Option String :=
  (t.symbol? id).map (·.displayName)

theorem nameOf?_eq_some_iff {t : SymbolTable} {id : Nat} {name : String} :
    t.nameOf? id = some name ↔ ∃ s, t.symbol? id = some s ∧ s.displayName = name := by
  simp [nameOf?]

theorem nameOf?_of_lookup? {t : SymbolTable} {id : Nat} {name : String}
    (h : t.lookup? name = some id) : t.nameOf? id = some name := by
  rw [lookup?, t.indexed] at h
  obtain ⟨lt, found, -⟩ := Array.findIdx?_eq_some_iff_getElem.mp h
  rw [nameOf?, symbol?, ← Array.getElem?_map, Array.getElem?_eq_getElem lt, beq_iff_eq.mp found]

theorem lookup?_eq_none_iff {t : SymbolTable} {name : String} :
    t.lookup? name = none ↔ ∀ id, t.nameOf? id ≠ some name := by
  constructor
  · intro h id found
    rw [lookup?, t.indexed] at h
    rw [nameOf?, symbol?, ← Array.getElem?_map] at found
    have := Array.findIdx?_eq_none_iff.mp h name (Array.mem_of_getElem? found)
    simp at this
  · intro h
    cases found : t.lookup? name with
    | none => rfl
    | some id => exact absurd (nameOf?_of_lookup? found) (h id)

/-- No name is carried by two symbols. -/
def Distinct (t : SymbolTable) : Prop :=
  ∀ i j name, t.nameOf? i = some name → t.nameOf? j = some name → i = j

theorem Distinct.lookup? {t : SymbolTable} (h : t.Distinct) {id : Nat} {name : String} :
    t.lookup? name = some id ↔ t.nameOf? id = some name := by
  refine ⟨nameOf?_of_lookup?, fun found => ?_⟩
  cases other : t.lookup? name with
  | none => exact absurd found (lookup?_eq_none_iff.mp other id)
  | some j => rw [h j id name (nameOf?_of_lookup? other) found]

theorem distinct_empty : ({} : SymbolTable).Distinct := by
  intro i j name h
  simp [nameOf?, symbol?] at h

theorem symbol?_update (t : SymbolTable) (id : Nat) (f : TypeSymbol → TypeSymbol)
    (same : ∀ s, (f s).displayName = s.displayName) (j : Nat) :
    (t.update id f same).symbol? j = if id = j then (t.symbol? j).map f else t.symbol? j := by
  simp only [update, symbol?, Array.getElem?_modify]

theorem nameOf?_update {t : SymbolTable} {id : Nat} {f : TypeSymbol → TypeSymbol}
    (same : ∀ s, (f s).displayName = s.displayName) (j : Nat) :
    (t.update id f same).nameOf? j = t.nameOf? j := by
  rw [nameOf?, symbol?_update]
  split
  · simp [nameOf?, Function.comp_def, same]
  · rfl

/-- The symbol that a new name gets. -/
def newSymbol (t : SymbolTable) (name : String) (kind : TypeKind) : TypeSymbol :=
  { id := t.symbols.size, name := simpleName name, displayName := name, kind
    special := SpecialType.ofName name }

theorem addType_of_known {t : SymbolTable} {name : String} {id : Nat}
    (h : t.lookup? name = some id) (kind : TypeKind) : t.addType name kind = (id, t) := by
  rw [addType, h]

theorem addType_of_new {t : SymbolTable} {name : String} (h : t.lookup? name = none)
    (kind : TypeKind) :
    t.addType name kind = (t.symbols.size, t.push (t.newSymbol name kind)) := by
  rw [addType, h]
  rfl

theorem symbol?_addType (t : SymbolTable) (name : String) (kind : TypeKind) (j : Nat) :
    (t.addType name kind).2.symbol? j =
      if t.lookup? name = none ∧ j = t.symbols.size then some (t.newSymbol name kind)
      else t.symbol? j := by
  cases h : t.lookup? name with
  | some id => simp [addType_of_known h]
  | none => simp [addType_of_new h, push, symbol?, Array.getElem?_push]

theorem symbol_of_addType {t : SymbolTable} {name : String} {kind : TypeKind} {id : Nat}
    {s : TypeSymbol} (found : (t.addType name kind).2.symbol? id = some s) :
    t.symbol? id = some s ∨
      t.lookup? name = none ∧ id = t.symbols.size ∧ s = t.newSymbol name kind := by
  rw [symbol?_addType] at found
  split at found
  · next fresh => exact .inr ⟨fresh.1, fresh.2, (Option.some.inj found).symm⟩
  · exact .inl found

theorem declarations_addType (t : SymbolTable) (name : String) (kind : TypeKind) :
    (t.addType name kind).2.declarations = t.declarations := by
  cases h : t.lookup? name with
  | some id => rw [addType_of_known h]
  | none => rw [addType_of_new h, push]

theorem symbol?_size (t : SymbolTable) : t.symbol? t.symbols.size = none :=
  Array.getElem?_eq_none (Nat.le_refl _)

theorem nameOf?_addType_self (t : SymbolTable) (name : String) (kind : TypeKind) :
    (t.addType name kind).2.nameOf? (t.addType name kind).1 = some name := by
  cases h : t.lookup? name with
  | some id =>
      rw [addType_of_known h]
      exact nameOf?_of_lookup? h
  | none =>
      rw [nameOf?, symbol?_addType, addType_of_new h]
      simp [h, newSymbol]

theorem nameOf?_addType {t : SymbolTable} {j : Nat} {name other : String} {kind : TypeKind} :
    (t.addType name kind).2.nameOf? j = some other ↔
      t.nameOf? j = some other ∨
        t.lookup? name = none ∧ j = t.symbols.size ∧ name = other := by
  rw [nameOf?, symbol?_addType]
  split
  · next fresh =>
      obtain ⟨fresh, rfl⟩ := fresh
      simp [nameOf?, newSymbol, fresh, symbol?_size]
  · next old =>
      constructor
      · exact .inl
      · rintro (h | ⟨fresh, rfl, -⟩)
        · exact h
        · exact absurd ⟨fresh, rfl⟩ old

theorem Distinct.addType {t : SymbolTable} (h : t.Distinct) (name : String) (kind : TypeKind) :
    (t.addType name kind).2.Distinct := by
  intro i j other hi hj
  rcases nameOf?_addType.mp hi with hi | ⟨fresh, rfl, rfl⟩
  · rcases nameOf?_addType.mp hj with hj | ⟨fresh, rfl, rfl⟩
    · exact h i j other hi hj
    · exact absurd hi (lookup?_eq_none_iff.mp fresh i)
  · rcases nameOf?_addType.mp hj with hj | ⟨-, rfl, -⟩
    · exact absurd hj (lookup?_eq_none_iff.mp fresh j)
    · rfl

theorem declarations_addDeclaration (t : SymbolTable) (id : Nat) (place : SyntaxRef) :
    (t.addDeclaration id place).declarations = (place, id) :: t.declarations := rfl

theorem symbol?_addDeclaration (t : SymbolTable) (id : Nat) (place : SyntaxRef) (j : Nat) :
    (t.addDeclaration id place).symbol? j =
      if id = j then (t.symbol? j).map fun s => { s with declared := s.declared ++ [place] }
      else t.symbol? j :=
  symbol?_update t id (fun s => { s with declared := s.declared ++ [place] }) (fun _ => rfl) j

theorem nameOf?_addDeclaration (t : SymbolTable) (id : Nat) (place : SyntaxRef) (j : Nat) :
    (t.addDeclaration id place).nameOf? j = t.nameOf? j :=
  nameOf?_update (t := t) (f := fun s => { s with declared := s.declared ++ [place] })
    (fun _ => rfl) j

theorem nameOf?_setOriginalDefinition (t : SymbolTable) (id original j : Nat) :
    (t.setOriginalDefinition id original).nameOf? j = t.nameOf? j :=
  nameOf?_update (t := t) (f := fun s => { s with originalDefinition := some original })
    (fun _ => rfl) j

theorem symbol?_finish (t : SymbolTable) (id : Nat) :
    t.finish.symbol? id =
      (t.symbol? id).map fun s => { s with allInterfaces := t.reachedInterfaces id } := by
  simp [finish, symbol?]

theorem nameOf?_finish (t : SymbolTable) (id : Nat) : t.finish.nameOf? id = t.nameOf? id := by
  rw [nameOf?, symbol?_finish, Option.map_map]
  rfl

def KeepsNames (t t' : SymbolTable) : Prop :=
  ∀ id name, t.nameOf? id = some name → t'.nameOf? id = some name

theorem keepsNames_addType (t : SymbolTable) (name : String) (kind : TypeKind) :
    t.KeepsNames (t.addType name kind).2 :=
  fun _ _ h => nameOf?_addType.mpr (.inl h)

/-- A list that refers to symbols by id still names the same ones. -/
theorem KeepsNames.map_named {α β γ : Type} {t t' : SymbolTable} (keeps : t.KeepsNames t')
    {xs : List α} {ys : List β} {id : α → Nat} {rest : α → γ} {rest' : β → γ} {name : β → String}
    (h : xs.map (fun x => (rest x, t.nameOf? (id x))) = ys.map fun y => (rest' y, some (name y))) :
    xs.map (fun x => (rest x, t'.nameOf? (id x))) = ys.map fun y => (rest' y, some (name y)) := by
  rw [← h]
  apply List.map_congr_left
  intro x hx
  have listed : (rest x, t.nameOf? (id x)) ∈ ys.map fun y => (rest' y, some (name y)) :=
    h ▸ List.mem_map_of_mem hx
  obtain ⟨y, -, hy⟩ := List.mem_map.mp listed
  have named : t.nameOf? (id x) = some (name y) := (congrArg Prod.snd hy).symm
  rw [named, keeps _ _ named]

end SymbolTable
end Antipattern
