import Antipattern.Symbol.Table

/-!
Questions about a type's place in the hierarchy, asked against a type known by name or by builtin
tag. The known type need not be in the table.
-/

namespace Antipattern

inductive KnownType where
  | special (type : SpecialType)
  | named (name : String)
deriving DecidableEq, Inhabited

namespace KnownType

def text : KnownType → String
  | special s => s.text
  | named n => n

def matchesName (k : KnownType) (displayName : String) : Bool :=
  match k with
  | special _ => false
  | named n => n == displayName

def matchesSpecial (k : KnownType) (s : SpecialType) : Bool :=
  match k with
  | special k => k != .none && k == s
  | named _ => false

/-- Whether the symbol itself carries the known name or tag. -/
def matchesSymbol (k : KnownType) (s : TypeSymbol) : Bool :=
  k.matchesSpecial s.special || k.matchesName s.displayName

end KnownType

namespace SymbolTable

/-- Whether the type or its generic definition is the known type. -/
def is (t : SymbolTable) (id : Option Nat) (k : KnownType) : Bool :=
  match id with
  | none => false
  | some id =>
      match t.symbol? id with
      | none => false
      | some s => k.matchesSymbol s || k.matchesSymbol ((t.symbol? (t.originalDefinition id)).getD s)

/-- The next type up the chain: the generic definition of the base type. -/
def baseStep (t : SymbolTable) (id : Nat) : Option Nat :=
  ((t.symbol? id).bind (·.baseType)).map t.originalDefinition

/-- The longest chain of base types that is followed. -/
def maxDepth : Nat := 64

/-- Climbs at most `steps` types, and stops at one it has met before. -/
def climb (t : SymbolTable) (k : KnownType) : Nat → List Nat → Option Nat → Bool
  | 0, _, _ => false
  | _ + 1, _, none => false
  | steps + 1, met, some id =>
      if met.contains id then false
      else t.is (some id) k || climb t k steps (id :: met) (t.baseStep id)

/-- Whether the type is the known type or derives from it. -/
def isSubtypeOf (t : SymbolTable) (id : Option Nat) (k : KnownType) : Bool :=
  t.climb k maxDepth [] id

/-- Whether an interface that the type reaches is the known type. -/
def implements (t : SymbolTable) (id : Option Nat) (k : KnownType) : Bool :=
  match id.bind t.symbol? with
  | none => false
  | some s => s.allInterfaces.any fun i => t.is (some (t.originalDefinition i)) k

end SymbolTable
end Antipattern
