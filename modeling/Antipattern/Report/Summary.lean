import Antipattern.Report.Encoding
import Antipattern.Report.Format

/-!
The JSON report: the findings with where they are, and how many more are suppressed. What is absent
is left out.
-/

namespace Antipattern

/-- A finding as reports list it. -/
structure ReportedFinding where
  rule : String
  severity : Severity
  file : Option String
  line : Option Nat
  column : Option Nat
  message : String
  arguments : List String
deriving DecidableEq, Inhabited

def ReportedFinding.ofFinding (f : Finding) : ReportedFinding where
  rule := f.ruleId
  severity := f.severity
  file := f.location.file?
  line := f.location.line?
  column := f.location.column?
  message := f.message
  arguments := f.arguments

structure Summary where
  path : String
  config : Option String
  passed : Bool
  filesAnalyzed : Nat
  cancelled : Bool
  findings : List ReportedFinding
  /-- Listed only on demand, each with the line of its pragma. -/
  suppressed : List (ReportedFinding × Nat)
  suppressedCount : Nat
  faults : List Fault
deriving DecidableEq, Inhabited

/-- A result passes unless it has an error. -/
def AnalysisResult.passed (r : AnalysisResult) : Bool :=
  !r.hasErrors

def Summary.ofResult (path : String) (config : Option String) (showSuppressed : Bool)
    (r : AnalysisResult) : Summary where
  path := path
  config := config
  passed := r.passed
  filesAnalyzed := r.filesAnalyzed
  cancelled := r.cancelled
  findings := r.findings.map .ofFinding
  suppressed :=
    if showSuppressed then r.suppressed.map fun s => (.ofFinding s.finding, s.pragmaLine) else []
  suppressedCount := r.suppressed.length
  faults := r.faults

/-- A field that is left out if there is no value for it. -/
def Json.optional {α : Type} (name : String) (value : α → Json) : Option α → List (String × Json)
  | some a => [(name, value a)]
  | none => []

/-- A list that is left out if it is empty. -/
def Json.nonempty {α : Type} (name : String) (value : α → Json) :
    List α → List (String × Json)
  | [] => []
  | items => [(name, .arr (items.map value))]

def ReportedFinding.toJson (f : ReportedFinding) : Json :=
  .obj ([("rule", .str f.rule), ("severity", .str f.severity.text)] ++
    Json.optional "file" .str f.file ++ Json.optional "line" .num f.line ++
    Json.optional "column" .num f.column ++
    [("message", .str f.message), ("arguments", .strings f.arguments)])

def Summary.toJson (s : Summary) : Json :=
  .obj ([("version", .str toolVersion), ("path", .str s.path)] ++
    Json.optional "config" .str s.config ++
    [("passed", .bool s.passed), ("files_analyzed", .num s.filesAnalyzed),
      ("cancelled", .bool s.cancelled), ("findings", .arr (s.findings.map ReportedFinding.toJson))] ++
    Json.nonempty "suppressed"
      (fun p => .obj [("finding", p.1.toJson), ("pragma_line", .num p.2)]) s.suppressed ++
    [("suppressed_count", .num s.suppressedCount)] ++
    Json.nonempty "faults" Fault.toJson s.faults)

end Antipattern
