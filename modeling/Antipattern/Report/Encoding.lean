import Antipattern.Json.Basic
import Antipattern.Rule.Finding

/-!
Findings, faults and results as structured values, and back. Empty additional locations and absent
files are left out; reading takes what is absent as empty.
-/

namespace Antipattern

/-- Reads each item; none if one of them cannot be read. -/
def Json.listOf? {α : Type} (read : Json → Option α) : List Json → Option (List α)
  | [] => some []
  | j :: js => (read j).bind fun a => (listOf? read js).map (a :: ·)

/-- Reads a list; an absent one is empty. -/
def Json.optionalList? {α : Type} (read : Json → Option α) : Option Json → Option (List α)
  | none => some []
  | some j => j.asList?.bind (Json.listOf? read)

namespace Location

def toJson : Location → Json
  | none => .obj [("kind", .str "none")]
  | source file line column startByte endByte =>
      .obj [("kind", .str "source"), ("file", .str file), ("line", .num line),
        ("column", .num column), ("start_byte", .num startByte), ("end_byte", .num endByte)]

def ofJson? (j : Json) : Option Location := do
  let kind ← (← j.field? "kind").asString?
  match kind with
  | "none" => return .none
  | "source" =>
      return .source (← (← j.field? "file").asString?) (← (← j.field? "line").asNat?)
        (← (← j.field? "column").asNat?) (← (← j.field? "start_byte").asNat?)
        (← (← j.field? "end_byte").asNat?)
  | _ => failure

end Location

namespace Finding

def toJson (f : Finding) : Json :=
  .obj ([("rule_id", .str f.ruleId), ("severity", .str f.severity.text),
      ("message", .str f.message), ("arguments", .strings f.arguments),
      ("location", f.location.toJson)] ++
    (if f.additionalLocations.isEmpty then []
      else [("additional_locations", .arr (f.additionalLocations.map Location.toJson))]))

def ofJson? (j : Json) : Option Finding := do
  let ruleId ← (← j.field? "rule_id").asString?
  let severity ← Severity.ofText? (← (← j.field? "severity").asString?)
  let message ← (← j.field? "message").asString?
  let arguments ← Json.listOf? Json.asString? (← (← j.field? "arguments").asList?)
  let location ← Location.ofJson? (← j.field? "location")
  let additionalLocations ← Json.optionalList? Location.ofJson? (j.field? "additional_locations")
  return { ruleId, severity, message, arguments, location, additionalLocations }

end Finding

namespace Fault

def toJson (f : Fault) : Json :=
  .obj ([("rule_id", .str f.ruleId)] ++
    (match f.file with
      | some file => [("file", .str file)]
      | none => []) ++
    [("message", .str f.message)])

def ofJson? (j : Json) : Option Fault := do
  let ruleId ← (← j.field? "rule_id").asString?
  let file ← match j.field? "file" with
    | none => some none
    | some .null => some none
    | some v => v.asString?.map some
  let message ← (← j.field? "message").asString?
  return { ruleId, file, message }

end Fault

namespace SuppressedFinding

def toJson (s : SuppressedFinding) : Json :=
  .obj [("finding", s.finding.toJson), ("pragma_line", .num s.pragmaLine)]

def ofJson? (j : Json) : Option SuppressedFinding := do
  let finding ← Finding.ofJson? (← j.field? "finding")
  let pragmaLine ← (← j.field? "pragma_line").asNat?
  return { finding, pragmaLine }

end SuppressedFinding

namespace AnalysisResult

def toJson (r : AnalysisResult) : Json :=
  .obj [("findings", .arr (r.findings.map Finding.toJson)),
    ("suppressed", .arr (r.suppressed.map SuppressedFinding.toJson)),
    ("faults", .arr (r.faults.map Fault.toJson)),
    ("files_analyzed", .num r.filesAnalyzed),
    ("cancelled", .bool r.cancelled)]

def ofJson? (j : Json) : Option AnalysisResult := do
  let findings ← Json.listOf? Finding.ofJson? (← (← j.field? "findings").asList?)
  let suppressed ← Json.optionalList? SuppressedFinding.ofJson? (j.field? "suppressed")
  let faults ← Json.optionalList? Fault.ofJson? (j.field? "faults")
  let filesAnalyzed ← (← j.field? "files_analyzed").asNat?
  let cancelled ← match j.field? "cancelled" with
    | none => some false
    | some v => v.asBool?
  return { findings, suppressed, faults, filesAnalyzed, cancelled }

end AnalysisResult
end Antipattern
