import Antipattern.Analysis.Detector

/-!
Names that join two concepts with `Or` or `And`.
-/

namespace Antipattern.Rule

/-- A lower-case letter or a digit. -/
def endsWord (c : Char) : Bool :=
  c.isLower || c.isDigit

/-- An upper-case letter or a digit. -/
def startsWord (c : Char) : Bool :=
  c.isUpper || c.isDigit

/-- Whether the text starts with a word's end, a joining word and the start of another word. -/
def startsWithJoint : List Char → Bool
  | c :: 'O' :: 'r' :: d :: _ => endsWord c && startsWord d
  | c :: 'A' :: 'n' :: 'd' :: d :: _ => endsWord c && startsWord d
  | _ => false

def hasJoint : List Char → Bool
  | [] => false
  | c :: cs => startsWithJoint (c :: cs) || hasJoint cs

/-- Whether the identifier joins two words with `Or` or `And`. -/
def joinsConcepts (identifier : String) : Bool :=
  hasJoint identifier.toList

def naming : Descriptor where
  id := "AP_4"
  title := "'And' or 'Or' contained in name."
  messageFormat := "'And' or 'Or' contained in name '\x7b0\x7d'."
  description := "A name joining two concepts with 'And' or 'Or' hints that the declaration has " ++
    "more than one responsibility."
  category := "Complexity"

def namingKinds : List NodeKind :=
  [.methodDeclaration, .classDeclaration, .interfaceDeclaration]

def checkNaming (c : NodeContext) : Option Finding :=
  if namingKinds.contains c.node.kind then
    c.node.identifier?.bind fun name =>
      if joinsConcepts name then some (naming.finding c.location [name]) else none
  else none

def namingDetector : Detector RunState where
  rule := naming
  kinds := namingKinds
  analyzesGenerated := true
  check := fun c s => (.ofOption (checkNaming c), s)

end Antipattern.Rule
