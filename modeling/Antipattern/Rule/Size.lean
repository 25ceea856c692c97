import Antipattern.Analysis.Detector

/-!
Methods, classes and programs with too many lines. Lines are counted as line breaks between
tokens: a blank line counts once, and code that shares a line adds nothing.
-/

namespace Antipattern.Rule

def methodSize : Descriptor where
  id := "AP_5"
  title := "Too much lines in method."
  messageFormat := "Too much lines in method. \x7b0\x7d lines found, \x7b1\x7d allowed."
  description := "Long methods tend to do more than one thing; split them."
  category := "Complexity"

def classSize : Descriptor where
  id := "AP_6"
  title := "Too much lines in class."
  messageFormat := "Too much lines in class. \x7b0\x7d lines found, \x7b1\x7d allowed."
  description := "Large classes usually carry more than one responsibility."
  category := "Complexity"

def monolith : Descriptor where
  id := "AP_2"
  title := "Solution too big. Consider splitting it into many microservices."
  messageFormat := "Solution too big. Consider splitting it into many microservices. " ++
    "\x7b0\x7d lines found, \x7b1\x7d allowed."
  description := "A service this large is a monolith in disguise. Consider splitting it into " ++
    "many microservices."
  category := "Size"

def checkSize (rule : Descriptor) (kind : NodeKind) (maxLines : Nat) (c : NodeContext) :
    Option Finding :=
  if c.node.kind = kind then
    let lines := c.node.endOfLineCount
    if maxLines < lines then
      some (rule.finding c.location [toString lines, toString maxLines])
    else none
  else none

/-- Generated methods are left out. -/
def methodSizeDetector (maxLines : Nat) : Detector RunState where
  rule := methodSize
  kinds := [.methodDeclaration]
  check := fun c s => (.ofOption (checkSize methodSize .methodDeclaration maxLines c), s)

def classSizeDetector (maxLines : Nat) : Detector RunState where
  rule := classSize
  kinds := [.classDeclaration]
  analyzesGenerated := true
  check := fun c s => (.ofOption (checkSize classSize .classDeclaration maxLines c), s)

/-- Judges the program as a whole, generated files included. -/
def judgeTotal (maxLines : Nat) (p : Program) : Option Finding :=
  let lines := p.endOfLineCount
  if maxLines < lines then
    some (monolith.finding .none [toString lines, toString maxLines])
  else none

def monolithDetector (maxLines : Nat) : Detector RunState where
  rule := monolith
  complete := fun p s => (.ofOption (judgeTotal maxLines p), s)

end Antipattern.Rule
