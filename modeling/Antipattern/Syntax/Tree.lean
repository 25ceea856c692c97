import Antipattern.Syntax.Node
import Antipattern.Syntax.Pragma

/-!
A parsed source file: its tree, its warning pragmas and whether it is generated as a whole.
-/

namespace Antipattern

structure SyntaxTree where
  path : String
  root : SyntaxNode
  generated : Bool := false
  pragmas : List Pragma := []
deriving Inhabited

def SyntaxTree.endOfLineCount (t : SyntaxTree) : Nat :=
  t.root.endOfLineCount

/-- A tree with the namespaces that its using directives import. -/
structure ParsedFile where
  tree : SyntaxTree
  usings : List String := []
deriving Inhabited

end Antipattern
