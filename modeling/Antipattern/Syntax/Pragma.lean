import Antipattern.Text.Blank
import Antipattern.Text.Split
import Antipattern.Text.WordChar

/-!
Warning pragmas: `#pragma warning disable AP_4, AP_5` and its `restore`, with every rule meant if
none is named.
-/

namespace Antipattern

inductive PragmaAction where
  | disable
  | restore
deriving DecidableEq, Inhabited

def PragmaAction.text : PragmaAction → String
  | disable => "disable"
  | restore => "restore"

def PragmaAction.ofText? : String → Option PragmaAction
  | "disable" => some .disable
  | "restore" => some .restore
  | _ => none

/-- A warning pragma with the line it stands on. -/
structure Pragma where
  line : Nat
  action : PragmaAction
  rules : List String
deriving DecidableEq, Inhabited

namespace Pragma

open Text

/-- Whether the pragma switches the rule: it names it, or names none. -/
def concerns (p : Pragma) (rule : String) : Bool :=
  p.rules.isEmpty || p.rules.contains rule

/-- The rest behind the word and at least one blank. -/
def spacedWord? (word cs : List Char) : Option (List Char) :=
  (after? word cs).bind fun rest =>
    match rest with
    | c :: _ => if isBlank c then some (trimStart rest) else none
    | [] => none

/-- The action, ended by anything but a word character. -/
def action? (cs : List Char) : Option (PragmaAction × List Char) :=
  let ends (rest : List Char) : Bool := (rest.head?.map isWordChar).getD false == false
  match after? "disable".toList cs with
  | some rest => if ends rest then some (.disable, rest) else none
  | none =>
      match after? "restore".toList cs with
      | some rest => if ends rest then some (.restore, rest) else none
      | none => none

/-- Rule ids between commas, up to a slash or the end of the line. -/
def ruleList (cs : List Char) : List String :=
  let shown := cs.takeWhile fun c => c ≠ '/' && c ≠ '\r' && c ≠ '\n'
  ((pieces ',' shown).map trim).filterMap fun p =>
    if p.isEmpty then none else some (String.ofList p)

/-- Reads a directive's text; none if it is no warning pragma. -/
def parse? (line : Nat) (text : List Char) : Option Pragma := do
  let rest ← after? ['#'] (trimStart text)
  let rest ← spacedWord? "pragma".toList (trimStart rest)
  let rest ← spacedWord? "warning".toList rest
  let (action, rest) ← action? rest
  return { line, action, rules := ruleList rest }

end Pragma
end Antipattern
