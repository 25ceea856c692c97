import Antipattern.Syntax.Kind
import Antipattern.Text.Blank
import Antipattern.Text.Split

/-!
Conditional compilation, line by line. No symbol is defined, so the first branch of every `#if` is
compiled and all others are disabled text. The scan looks at lines only: it knows nothing of
strings and comments.
-/

namespace Antipattern.CSharp

/-- What a conditional directive does to the open blocks. -/
inductive Conditional where
  | opens
  | alternates
  | closes
deriving DecidableEq, Inhabited

namespace Conditional

def ofWord? : String → Option Conditional
  | "if" => some opens
  | "elif" | "else" => some alternates
  | "endif" => some closes
  | _ => none

/-- The conditional directive that a line holds: blanks, `#`, blanks and the directive's word. -/
def ofLine? (line : List Char) : Option Conditional :=
  (Text.after? ['#'] (Text.trimStart line)).bind fun rest =>
    ofWord? (String.ofList ((Text.trimStart rest).takeWhile Char.isAlpha))

/-- Open blocks, the innermost first, each with whether its current branch is compiled. -/
def apply : Conditional → List Bool → List Bool
  | opens, blocks => true :: blocks
  | alternates, [] => []
  | alternates, _ :: blocks => false :: blocks
  | closes, blocks => blocks.tail

end Conditional

/-- A stretch of whole lines that conditional compilation takes out of the code. -/
structure CutRange where
  start : Nat
  stop : Nat
  line : Nat
  kind : TriviaKind
deriving DecidableEq, Inhabited

namespace CutRange

/-- One range for each directive line and each disabled line. -/
def ofLines (offset line : Nat) (blocks : List Bool) : List (List Char) → List CutRange
  | [] => []
  | l :: ls =>
      let stop := offset + Text.byteLength l
      match Conditional.ofLine? l with
      | some d => ⟨offset, stop, line, .directive⟩ :: ofLines stop (line + 1) (d.apply blocks) ls
      | none =>
          if blocks.all id then ofLines stop (line + 1) blocks ls
          else ⟨offset, stop, line, .disabledText⟩ :: ofLines stop (line + 1) blocks ls

/-- Joins disabled lines that follow one another. -/
def joinDisabled : List CutRange → List CutRange
  | [] => []
  | r :: rest =>
      match joinDisabled rest with
      | [] => [r]
      | next :: others =>
          if r.kind = .disabledText ∧ next.kind = .disabledText ∧ r.stop = next.start then
            { r with stop := next.stop } :: others
          else r :: next :: others

/-- Joins ranges that touch, whatever they hold. -/
def joinTouching : List (Nat × Nat) → List (Nat × Nat)
  | [] => []
  | r :: rest =>
      match joinTouching rest with
      | [] => [r]
      | next :: others =>
          if r.2 = next.1 then (r.1, next.2) :: others else r :: next :: others

end CutRange

/-- Directive lines and disabled runs of a text, in source order. -/
def cutRanges (source : List Char) : List CutRange :=
  CutRange.joinDisabled (CutRange.ofLines 0 1 [] (Text.linesKept source))

/-- What the ranges cover together. -/
def coveredRanges (ranges : List CutRange) : List (Nat × Nat) :=
  CutRange.joinTouching (ranges.map fun r => (r.start, r.stop))

/-- Whether the stretch lies in one of the ranges: the last that starts at or before it decides. -/
def covers (covered : List (Nat × Nat)) (start stop : Nat) : Bool :=
  match (covered.takeWhile fun r => r.1 ≤ start).getLast? with
  | some r => stop ≤ r.2
  | none => false

end Antipattern.CSharp
