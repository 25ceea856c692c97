import Antipattern.Report.Pretty
import Antipattern.Report.Sarif

/-!
Reports as they are printed.
-/

namespace Antipattern

/-- What a report is about, besides the result. -/
structure ReportOptions where
  format : ReportFormat := .pretty
  path : String
  config : Option String := none
  showSuppressed : Bool := false
  color : Bool := false
deriving DecidableEq, Inhabited

/-- The text of a report. -/
def printed (o : ReportOptions) (r : AnalysisResult) : String :=
  match o.format with
  | .pretty => Pretty.report o.color o.path o.config o.showSuppressed r
  | .json => (Summary.ofResult o.path o.config o.showSuppressed r).toJson.pretty 0 ++ "\n"
  | .sarif => (Sarif.ofResult r).toJson.pretty 0 ++ "\n"

end Antipattern
