import Antipattern.Analysis.Program
import Antipattern.Rule.Finding
import Antipattern.Rule.Tally

/-!
What a rule does in a run. A detector sees single nodes and, at the end, the whole program; what
it remembers in between is part of the state that the run hands from call to call.
-/

namespace Antipattern

/-- What a detector sees of a node. -/
structure NodeContext where
  treeIndex : Nat
  tree : SyntaxTree
  node : SyntaxNode
  symbols : SymbolTable

namespace NodeContext

def location (c : NodeContext) : Location :=
  .source c.tree.path c.node.span.startLine c.node.span.startColumn c.node.span.startByte
    c.node.span.endByte

def place (c : NodeContext) : SyntaxRef :=
  .ofNode c.treeIndex c.node

/-- The type that the node declares. -/
def declaredSymbol? (c : NodeContext) : Option Nat :=
  c.symbols.declaredAt? c.place

end NodeContext

/-- The answer of one call: nothing, a finding, or a breakdown of the detector itself. -/
inductive Verdict where
  | nothing
  | finding (f : Finding)
  | breakdown (message : String)
deriving DecidableEq, Inhabited

def Verdict.ofOption : Option Finding → Verdict
  | none => nothing
  | some f => finding f

structure Detector (σ : Type) where
  rule : Descriptor
  /-- Kinds of nodes that the detector wants to see. -/
  kinds : List NodeKind := []
  /-- Whether it also wants to see generated code. -/
  analyzesGenerated : Bool := false
  check : NodeContext → σ → Verdict × σ := fun _ s => (.nothing, s)
  complete : Program → σ → Verdict × σ := fun _ s => (.nothing, s)

/-- The state of a run: the shared tally, and whether the run was asked to stop. -/
structure RunState where
  tally : Tally := {}
  cancelled : Bool := false
deriving DecidableEq, Inhabited

end Antipattern
