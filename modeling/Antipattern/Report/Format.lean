import Antipattern.Text.Quoted

/-!
The formats that a report can have.
-/

namespace Antipattern

inductive ReportFormat where
  | pretty
  | json
  | sarif
deriving DecidableEq, Inhabited

namespace ReportFormat

def text : ReportFormat → String
  | pretty => "pretty"
  | json => "json"
  | sarif => "sarif"

def ofText? : String → Option ReportFormat
  | "pretty" => some pretty
  | "json" => some json
  | "sarif" => some sarif
  | _ => none

/-- The cause of a failed `parse`, with the word as it was written. -/
structure Unknown where
  word : String
deriving DecidableEq, Inhabited

def Unknown.message (e : Unknown) : String :=
  "invalid format " ++ Text.quoted e.word ++ ", must be 'pretty', 'json', or 'sarif'"

def parse (word : String) : Except Unknown ReportFormat :=
  match ofText? word with
  | some f => .ok f
  | none => .error ⟨word⟩

@[simp] theorem ofText?_text (f : ReportFormat) : ofText? f.text = some f := by
  cases f <;> rfl

end ReportFormat

/-- The version that reports name. -/
def toolVersion : String := "0.1.0"

def toolName : String := "apcheck"

end Antipattern
