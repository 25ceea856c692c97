/-!
Severities of findings and the words they are read from.
-/

namespace Antipattern

inductive Severity where
  | error
  | warning
  | info
deriving DecidableEq, Inhabited

namespace Severity

def text : Severity → String
  | error => "error"
  | warning => "warning"
  | info => "info"

def ofText? : String → Option Severity
  | "error" => some error
  | "warning" => some warning
  | "info" => some info
  | _ => none

/-- The cause of a failed `parse`, with the word as it was written. -/
structure Unknown where
  word : String
deriving DecidableEq, Inhabited

def Unknown.message (e : Unknown) : String :=
  "unknown severity: " ++ e.word

/-- Reads a severity in any case. Only ASCII letters are folded: no other letter folds to a word of
ASCII letters without leaving a mark behind. -/
def parse (word : String) : Except Unknown Severity :=
  match ofText? (String.ofList (word.toList.map Char.toLower)) with
  | some s => .ok s
  | none => .error ⟨word⟩

@[simp] theorem ofText?_text (s : Severity) : ofText? s.text = some s := by
  cases s <;> rfl

end Severity
end Antipattern
