import Antipattern.Analysis.Detector

/-!
Constructors that inject too many dependencies.
-/

namespace Antipattern.Rule

def complexity : Descriptor where
  id := "AP_3"
  title := "Class has high complexity."
  messageFormat := "Class has high complexity. Too much dependencies injected. " ++
    "\x7b0\x7d dependencies found, \x7b1\x7d allowed."
  description := "A constructor with many parameters usually means the class has too many " ++
    "collaborators and more than one responsibility."
  category := "Complexity"

def checkComplexity (maxParameters : Nat) (c : NodeContext) : Option Finding :=
  if c.node.kind = .constructorDeclaration then
    c.node.parameterCount?.bind fun count =>
      if maxParameters < count then
        some (complexity.finding c.location [toString count, toString maxParameters])
      else none
  else none

def complexityDetector (maxParameters : Nat) : Detector RunState where
  rule := complexity
  kinds := [.constructorDeclaration]
  analyzesGenerated := true
  check := fun c s => (.ofOption (checkComplexity maxParameters c), s)

end Antipattern.Rule
