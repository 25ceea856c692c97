import Antipattern.Report.Style
import Antipattern.Report.Summary

/-!
The report for people.
-/

namespace Antipattern.Pretty

variable (color : Bool)

def line (s : String) : String :=
  s ++ "\n"

def severityTag : Severity → String
  | .error => styled color .red "ERROR"
  | .warning => styled color .yellow "WARN "
  | .info => styled color .blue "INFO "

def location : Location → String
  | .none => styled color .blue "(program)"
  | .source file line column _ _ =>
      styled color .blue file ++
        styled color .dimmed (":" ++ toString line ++ ":" ++ toString column)

/-- How many findings have a severity. -/
def count (findings : List Finding) (s : Severity) : Nat :=
  findings.countP fun f => f.severity == s

def verdict (r : AnalysisResult) : String :=
  line ("  " ++ (if r.passed then styled color .green "✓ PASS" else styled color .red "✗ FAIL") ++
    "  " ++ toString r.filesAnalyzed ++ " files  " ++ toString (count r.findings .error) ++
    " errors  " ++ toString (count r.findings .warning) ++ " warnings  " ++
    toString (count r.findings .info) ++ " info" ++
    (if r.suppressed.isEmpty then ""
      else "  " ++ styled color .dimmed ("(" ++ toString r.suppressed.length ++ " suppressed)")) ++
    (if r.cancelled then "  " ++ styled color .yellow "(cancelled)" else ""))

def finding (f : Finding) : String :=
  line ("    " ++ severityTag color f.severity ++ "    " ++ styledTo 8 color .dimmed f.ruleId ++
    location color f.location) ++
  line ("            " ++ f.message) ++ line ""

def findings (fs : List Finding) : String :=
  line ("  " ++ styled color .bold "Findings" ++ " (" ++ toString fs.length ++ "):") ++ line "" ++
    String.join (fs.map (finding color))

def suppressedFinding (s : SuppressedFinding) : String :=
  line ("    " ++ styledTo 8 color .dimmed s.finding.ruleId ++ location color s.finding.location) ++
  line ("            " ++ styled color .dimmed ("pragma at line " ++ toString s.pragmaLine))

def suppressed (details : Bool) (ss : List SuppressedFinding) : String :=
  line ("  " ++ styled color .dimmed "Suppressed" ++ " (" ++ toString ss.length ++ "):") ++
  if details then line "" ++ String.join (ss.map (suppressedFinding color))
  else line ("    " ++ styled color .dimmed "(use --show-suppressed to see details)")

def fault (f : Fault) : String :=
  line ("    " ++ styledTo 8 color .dimmed f.ruleId ++
    (match f.file with
      | some file => styled color .blue file ++ "  "
      | none => "") ++ f.message)

def faults (fs : List Fault) : String :=
  line ("  " ++ styled color .boldYellow "Analyzer faults" ++ " (" ++ toString fs.length ++ "):") ++
    String.join (fs.map (fault color))

/-- A part of the report with an empty line behind it, if there is anything to say. -/
def block {α : Type} (items : List α) (text : List α → String) : String :=
  if items.isEmpty then "" else text items ++ line ""

def report (path : String) (config : Option String) (showSuppressed : Bool)
    (r : AnalysisResult) : String :=
  line "" ++ line ("  " ++ styled color .boldCyan toolName ++ " v" ++ toolVersion) ++ line "" ++
    line ("  " ++ styled color .dimmed "Analyzing: " ++ path) ++
    line ("  " ++ styled color .dimmed "Config:    " ++ config.getD "(defaults)") ++ line "" ++
    verdict color r ++ line "" ++ block r.findings (findings color) ++
    block r.suppressed (suppressed color showSuppressed) ++ block r.faults (faults color)

end Pretty

end Antipattern
