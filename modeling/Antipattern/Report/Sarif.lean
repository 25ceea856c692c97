import Antipattern.Order.Lexicographic
import Antipattern.Report.Format
import Antipattern.Json.Basic
import Antipattern.Rule.Builtin

/-!
The SARIF report: results in the order of the findings, and a description of each rule that has one.
-/

namespace Antipattern

namespace Sarif

/-- A place in a file. Lines and columns start at one. -/
structure Place where
  uri : String
  line : Nat
  column : Nat
deriving DecidableEq, Inhabited

structure Result where
  ruleId : String
  level : String
  message : String
  place : Option Place
deriving DecidableEq, Inhabited

def levelOf : Severity → String
  | .error => "error"
  | .warning => "warning"
  | .info => "note"

def Place.ofLocation? : Location → Option Place
  | .none => none
  | .source file line column _ _ => some ⟨file, max line 1, max column 1⟩

def Result.ofFinding (f : Finding) : Result where
  ruleId := f.ruleId
  level := levelOf f.severity
  message := f.message
  place := Place.ofLocation? f.location

end Sarif

structure Sarif where
  rules : List Descriptor
  results : List Sarif.Result
deriving DecidableEq, Inhabited

namespace Sarif

/-- The ids of rules that findings name, in order. -/
def ruleIds (findings : List Finding) : List String :=
  findings.foldl (fun ids f => insertText f.ruleId ids) []

/-- The rules that findings name, in the order of their ids. -/
def rulesOf (findings : List Finding) : List Descriptor :=
  (ruleIds findings).filterMap Rule.builtin?

def ofResult (r : AnalysisResult) : Sarif where
  rules := rulesOf r.findings
  results := r.findings.map .ofFinding

def version : String := "2.1.0"

def schema : String :=
  "https://raw.githubusercontent.com/oasis-tcs/sarif-spec/master/Schemata/sarif-schema-2.1.0.json"

def textJson (s : String) : Json :=
  .obj [("text", .str s)]

def Place.toJson (p : Place) : Json :=
  .obj [("physicalLocation", .obj [
    ("artifactLocation", .obj [("uri", .str p.uri)]),
    ("region", .obj [("startLine", .num p.line), ("startColumn", .num p.column)])])]

def Result.toJson (r : Result) : Json :=
  .obj ([("ruleId", .str r.ruleId), ("level", .str r.level), ("message", textJson r.message)] ++
    (match r.place with
      | some p => [("locations", .arr [p.toJson])]
      | none => []))

def ruleJson (d : Descriptor) : Json :=
  .obj [("id", .str d.id), ("name", .str d.title), ("shortDescription", textJson d.title),
    ("fullDescription", textJson d.description),
    ("defaultConfiguration", .obj [("level", .str (levelOf d.defaultSeverity))])]

def toJson (s : Sarif) : Json :=
  .obj [("version", .str version), ("$schema", .str schema),
    ("runs", .arr [.obj [
      ("tool", .obj [("driver", .obj [("name", .str toolName), ("version", .str toolVersion),
        ("rules", .arr (s.rules.map ruleJson))])]),
      ("results", .arr (s.results.map Result.toJson))]])]

end Sarif
end Antipattern
