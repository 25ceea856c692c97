import Antipattern.Syntax.Node
import Antipattern.Text.Split

/-!
Type symbols and their parts. Symbols refer to each other by their position in the table that
holds them.
-/

namespace Antipattern

/-- Builtin types that have a tag of their own. -/
inductive SpecialType where
  | none
  | object
  | void
  | boolean
  | char
  | int32
  | int64
  | double
  | decimal
  | string
  | attributeBase
deriving DecidableEq, Inhabited

namespace SpecialType

def all : List SpecialType :=
  [none, object, void, boolean, char, int32, int64, double, decimal, string, attributeBase]

def text : SpecialType → String
  | none => "None"
  | object => "Object"
  | void => "Void"
  | boolean => "Boolean"
  | char => "Char"
  | int32 => "Int32"
  | int64 => "Int64"
  | double => "Double"
  | decimal => "Decimal"
  | string => "String"
  | attributeBase => "Attribute"

def ofText? (s : String) : Option SpecialType :=
  all.find? fun k => k.text == s

/-- The tag of a type by its keyword or its full name. -/
def ofName : String → SpecialType
  | "object" | "System.Object" => object
  | "void" | "System.Void" => void
  | "bool" | "System.Boolean" => boolean
  | "char" | "System.Char" => char
  | "int" | "System.Int32" => int32
  | "long" | "System.Int64" => int64
  | "double" | "System.Double" => double
  | "decimal" | "System.Decimal" => decimal
  | "string" | "System.String" => string
  | "System.Attribute" => attributeBase
  | _ => none

end SpecialType

/-- Kinds of types; `unresolved` is for names that nothing declares. -/
inductive TypeKind where
  | classType
  | interfaceType
  | structType
  | recordType
  | enumType
  | unresolved
deriving DecidableEq, Inhabited

namespace TypeKind

def all : List TypeKind :=
  [.classType, .interfaceType, .structType, .recordType, .enumType, .unresolved]

def text : TypeKind → String
  | .classType => "class"
  | .interfaceType => "interface"
  | .structType => "struct"
  | .recordType => "record"
  | .enumType => "enum"
  | .unresolved => "unresolved"

def ofText? (s : String) : Option TypeKind :=
  all.find? fun k => k.text == s

/-- The kind of type that a declaration node declares. -/
def ofNodeKind : NodeKind → TypeKind
  | .interfaceDeclaration => .interfaceType
  | .structDeclaration => .structType
  | .recordDeclaration => .recordType
  | .enumDeclaration => .enumType
  | _ => .classType

end TypeKind

inductive MemberKind where
  | method
  | constructor
deriving DecidableEq, Inhabited

def MemberKind.text : MemberKind → String
  | method => "method"
  | constructor => "constructor"

/-- The place of a declaration: its tree and its bytes. -/
structure SyntaxRef where
  tree : Nat
  startByte : Nat
  endByte : Nat
deriving DecidableEq, Inhabited

def SyntaxRef.ofNode (tree : Nat) (n : SyntaxNode) : SyntaxRef :=
  ⟨tree, n.span.startByte, n.span.endByte⟩

/-- An attribute as it is applied: the name as written and the class it stands for. -/
structure AppliedAttribute where
  name : String
  classId : Option Nat
deriving DecidableEq, Inhabited

structure MemberSymbol where
  name : String
  kind : MemberKind
  attributes : List AppliedAttribute := []
  declared : Option SyntaxRef := none
deriving DecidableEq, Inhabited

structure TypeSymbol where
  id : Nat
  name : String
  displayName : String
  kind : TypeKind
  special : SpecialType
  baseType : Option Nat := none
  /-- Interfaces that the declaration itself lists. -/
  interfaces : List Nat := []
  /-- Interfaces reached over bases and interfaces, filled in when the table is finished. -/
  allInterfaces : List Nat := []
  /-- The generic definition that this type fills in. -/
  originalDefinition : Option Nat := none
  attributes : List AppliedAttribute := []
  members : List MemberSymbol := []
  declared : List SyntaxRef := []
deriving DecidableEq, Inhabited

/-- A name up to its type arguments. -/
def withoutTypeArgs (name : String) : String :=
  String.ofList (name.toList.takeWhile (· ≠ '<'))

/-- The name's last part, with its type arguments: the part is found before they start. -/
def simpleName (displayName : String) : String :=
  let cs := displayName.toList
  let plain := cs.takeWhile (· ≠ '<')
  String.ofList (Text.afterLast '.' plain ++ cs.dropWhile (· ≠ '<'))

end Antipattern
