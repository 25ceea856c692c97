import Antipattern.Syntax.Kind
import Antipattern.Syntax.Span

/-!
Syntax nodes and the two listings of a subtree: `preorder` by recursion and `descendants` by a
stack of nodes still to visit. The stack needs no recursion as deep as the tree; both list the
same nodes in document order.
-/

namespace Antipattern

/-- A node of a parsed file. Only tokens carry trivia, apart from the text behind the last token,
which trails the root. The name is the declared identifier, the text of a token, or the source
text of a type reference or type parameter list. -/
structure SyntaxNode where
  kind : NodeKind
  span : Span := {}
  name : Option String := none
  generated : Bool := false
  leading : List Trivia := []
  trailing : List Trivia := []
  children : List SyntaxNode := []
deriving Inhabited

namespace SyntaxNode

def isToken (n : SyntaxNode) : Bool :=
  n.kind == .token

/-- The declared identifier, if the node declares something. -/
def identifier? (n : SyntaxNode) : Option String :=
  match n.kind with
  | .token | .other | .typeParameterList => none
  | _ => n.name

def childrenOfKind (n : SyntaxNode) (k : NodeKind) : List SyntaxNode :=
  n.children.filter fun c => c.kind == k

/-- The first direct child of a kind. -/
def child? (n : SyntaxNode) (k : NodeKind) : Option SyntaxNode :=
  n.children.find? fun c => c.kind == k

/-- Direct parameters of the first direct parameter list; none without such a list. -/
def parameterCount? (n : SyntaxNode) : Option Nat :=
  (n.child? .parameterList).map fun l => (l.childrenOfKind .parameter).length

/-- Attributes in the node's own attribute lists. -/
def attributes (n : SyntaxNode) : List SyntaxNode :=
  (n.childrenOfKind .attributeList).flatMap fun l => l.childrenOfKind .attributeUse

def ownTrivia (n : SyntaxNode) : List Trivia :=
  n.leading ++ n.trailing

mutual
/-- Number of nodes in the subtree. -/
def size : SyntaxNode → Nat
  | ⟨_, _, _, _, _, _, children⟩ => 1 + forestSize children

def forestSize : List SyntaxNode → Nat
  | [] => 0
  | n :: rest => n.size + forestSize rest
end

@[simp] theorem size_eq (n : SyntaxNode) : n.size = 1 + forestSize n.children := by
  cases n; rfl

@[simp] theorem forestSize_append (xs ys : List SyntaxNode) :
    forestSize (xs ++ ys) = forestSize xs + forestSize ys := by
  induction xs with
  | nil => simp [forestSize]
  | cons x xs ih => simp [forestSize, ih]; omega

mutual
/-- The node, then the listings of its children from left to right. -/
def preorder : SyntaxNode → List SyntaxNode
  | n@⟨_, _, _, _, _, _, children⟩ => n :: forestPreorder children

def forestPreorder : List SyntaxNode → List SyntaxNode
  | [] => []
  | n :: rest => n.preorder ++ forestPreorder rest
end

/-- Visits the nodes on a stack, each followed by its children before the rest of the stack. -/
def visitStack : List SyntaxNode → List SyntaxNode
  | [] => []
  | n :: rest => n :: visitStack (n.children ++ rest)
termination_by stack => forestSize stack
decreasing_by simp [forestSize]

/-- This node and all nodes below it in document order. -/
def descendants (n : SyntaxNode) : List SyntaxNode :=
  visitStack [n]

/-- Trivia of the node and of all nodes below it. -/
def descendantTrivia (n : SyntaxNode) : List Trivia :=
  n.descendants.flatMap ownTrivia

/-- The line count that the size rules use. -/
def endOfLineCount (n : SyntaxNode) : Nat :=
  n.descendantTrivia.countP Trivia.isEndOfLine

/-- The first token of the subtree. -/
def firstToken? (n : SyntaxNode) : Option SyntaxNode :=
  n.descendants.find? isToken

/-- Follows child positions down from the node. -/
def descend? (n : SyntaxNode) : List Nat → Option SyntaxNode
  | [] => some n
  | i :: path => (n.children[i]?).bind fun c => c.descend? path

end SyntaxNode
end Antipattern
