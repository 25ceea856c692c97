import Antipattern.Symbol.Table
import Antipattern.Syntax.Tree

/-!
The whole input of an analysis: the trees, known by their positions, and the symbols that were
resolved over the same list of trees.
-/

namespace Antipattern

structure Program where
  trees : List SyntaxTree := []
  symbols : SymbolTable := {}
deriving Inhabited

def Program.endOfLineCount (p : Program) : Nat :=
  p.trees.foldr (fun t n => t.endOfLineCount + n) 0

/-- The position of the last tree with this path. -/
def Program.lastIndexOf? (p : Program) (path : String) : Option Nat :=
  (p.trees.zipIdx.reverse.find? fun t => t.1.path == path).map (·.2)

end Antipattern
