import Antipattern.Symbol.Basic

/-!
The symbol table: types in the order in which they were first named, each at the position that is
its id, an index of their names, and the places that declare them. Operations on an id outside the
table leave the symbols as they are.
-/

namespace Antipattern

theorem TypeSymbol.indexed_empty (name : String) : ([] : List (String × Nat)).lookup name =
    ((#[] : Array TypeSymbol).map (·.displayName)).findIdx? (· == name) := by
  simp

structure SymbolTable where
  symbols : Array TypeSymbol := #[]
  /-- Ids by display name, the oldest first. -/
  byName : List (String × Nat) := []
  /-- Declared places, the newest first. -/
  declarations : List (SyntaxRef × Nat) := []
  /-- The index gives what a search through the symbols would give. -/
  indexed : ∀ name,
    byName.lookup name = (symbols.map (·.displayName)).findIdx? (· == name) := by
      exact TypeSymbol.indexed_empty

namespace SymbolTable

instance : Inhabited SymbolTable := ⟨{}⟩

def empty : SymbolTable := {}

def symbol? (t : SymbolTable) (id : Nat) : Option TypeSymbol :=
  t.symbols[id]?

def lookup? (t : SymbolTable) (displayName : String) : Option Nat :=
  t.byName.lookup displayName

/-- The type that a place declares; a later entry for the same place wins. -/
def declaredAt? (t : SymbolTable) (place : SyntaxRef) : Option Nat :=
  t.declarations.lookup place

/-- The generic definition of a type, or the type itself. -/
def originalDefinition (t : SymbolTable) (id : Nat) : Nat :=
  ((t.symbol? id).bind (·.originalDefinition)).getD id

/-- Puts a symbol behind the others, and its name behind the others in the index. -/
def push (t : SymbolTable) (s : TypeSymbol) : SymbolTable :=
  { t with
    symbols := t.symbols.push s
    byName := t.byName ++ [(s.displayName, t.symbols.size)]
    indexed := fun name => by
      have own : [(s.displayName, t.symbols.size)].lookup name =
          if s.displayName == name then some t.symbols.size else none := by
        rw [List.lookup_cons, BEq.comm]
        cases s.displayName == name <;> rfl
      rw [List.lookup_append, t.indexed, own, Array.map_push, Array.findIdx?_push, Array.size_map] }

/-- The id of the type with this name; a new name gets the next id. -/
def addType (t : SymbolTable) (displayName : String) (kind : TypeKind) : Nat × SymbolTable :=
  match t.lookup? displayName with
  | some id => (id, t)
  | none =>
      let id := t.symbols.size
      let symbol : TypeSymbol :=
        { id, name := simpleName displayName, displayName, kind
          special := SpecialType.ofName displayName }
      (id, t.push symbol)

/-- Changes the symbol with this id in all but its name. -/
def update (t : SymbolTable) (id : Nat) (f : TypeSymbol → TypeSymbol)
    (same : ∀ s, (f s).displayName = s.displayName := by intro s; rfl) : SymbolTable :=
  { t with
    symbols := t.symbols.modify id f
    indexed := fun name => by
      have names : (t.symbols.modify id f).map (·.displayName) =
          t.symbols.map (·.displayName) := by
        apply Array.ext
        · simp
        · intro i _ _
          rw [Array.getElem_map, Array.getElem_map, Array.getElem_modify]
          split
          · exact same _
          · rfl
      rw [names, t.indexed] }

def setBase (t : SymbolTable) (id base : Nat) : SymbolTable :=
  t.update id fun s => { s with baseType := some base }

/-- Adds a direct interface unless it is listed already. -/
def addInterface (t : SymbolTable) (id interface : Nat) : SymbolTable :=
  t.update id
    (fun s =>
      if s.interfaces.contains interface then s
      else { s with interfaces := s.interfaces ++ [interface] })
    fun s => by split <;> rfl

def setOriginalDefinition (t : SymbolTable) (id original : Nat) : SymbolTable :=
  t.update id fun s => { s with originalDefinition := some original }

def addAttribute (t : SymbolTable) (id : Nat) (a : AppliedAttribute) : SymbolTable :=
  t.update id fun s => { s with attributes := s.attributes ++ [a] }

def addMember (t : SymbolTable) (id : Nat) (m : MemberSymbol) : SymbolTable :=
  t.update id fun s => { s with members := s.members ++ [m] }

/-- Records a declaring place, also when the id is outside the table. -/
def addDeclaration (t : SymbolTable) (id : Nat) (place : SyntaxRef) : SymbolTable :=
  let t := t.update id fun s => { s with declared := s.declared ++ [place] }
  { t with declarations := (place, id) :: t.declarations }

end SymbolTable
end Antipattern
