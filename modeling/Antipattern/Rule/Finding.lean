import Antipattern.Rule.Message
import Antipattern.Rule.Severity

/-!
What an analysis reports: findings with their locations, faults of the rules themselves, and the
result that collects them.
-/

namespace Antipattern

/-- Where a finding points: the whole program, or a stretch of a file. -/
inductive Location where
  | none
  | source (file : String) (line column startByte endByte : Nat)
deriving DecidableEq, Inhabited

namespace Location

def file? : Location → Option String
  | none => Option.none
  | source file _ _ _ _ => some file

def line? : Location → Option Nat
  | none => Option.none
  | source _ line _ _ _ => some line

def column? : Location → Option Nat
  | none => Option.none
  | source _ _ column _ _ => some column

def isNone : Location → Bool
  | none => true
  | source .. => false

end Location

structure Finding where
  ruleId : String
  severity : Severity
  message : String
  /-- The message's arguments in placeholder order. -/
  arguments : List String
  location : Location
  additionalLocations : List Location := []
deriving DecidableEq, Inhabited

/-- A rule that broke down, with the file it was looking at. -/
structure Fault where
  ruleId : String
  file : Option String
  message : String
deriving DecidableEq, Inhabited

/-- A finding that a warning pragma switches off, with the pragma's line. -/
structure SuppressedFinding where
  finding : Finding
  pragmaLine : Nat
deriving DecidableEq, Inhabited

structure AnalysisResult where
  findings : List Finding := []
  suppressed : List SuppressedFinding := []
  faults : List Fault := []
  filesAnalyzed : Nat := 0
  cancelled : Bool := false
deriving DecidableEq, Inhabited

def AnalysisResult.hasErrors (r : AnalysisResult) : Bool :=
  r.findings.any fun f => f.severity == .error

/-- The fixed description of a rule. -/
structure Descriptor where
  id : String
  title : String := ""
  messageFormat : String
  description : String := ""
  category : String := ""
  defaultSeverity : Severity := .warning
deriving DecidableEq, Inhabited

/-- A finding of the rule with its default severity. -/
def Descriptor.finding (d : Descriptor) (location : Location) (arguments : List String) :
    Finding where
  ruleId := d.id
  severity := d.defaultSeverity
  message := Message.format d.messageFormat arguments
  arguments := arguments
  location := location

end Antipattern
