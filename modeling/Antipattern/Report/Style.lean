import Antipattern.Text.Split

/-!
Terminal styles. A styled text stands between the code that switches its style on and the one that
resets it; padding counts as part of the text.
-/

namespace Antipattern

inductive Style where
  | bold
  | dimmed
  | red
  | green
  | yellow
  | blue
  | boldYellow
  | boldCyan
deriving DecidableEq, Inhabited

namespace Style

def code : Style → String
  | bold => "1"
  | dimmed => "2"
  | red => "31"
  | green => "32"
  | yellow => "33"
  | blue => "34"
  | boldYellow => "1;33"
  | boldCyan => "1;36"

def switchOn (s : Style) : String :=
  "\x1b[" ++ s.code ++ "m"

def reset : String := "\x1b[0m"

/-- Puts `again` behind each occurrence of `word`. -/
def afterEach (word again : List Char) : List Char → List Char
  | [] => []
  | c :: cs =>
      match Text.after? word (c :: cs) with
      | some rest =>
          if rest.length < cs.length + 1 then word ++ again ++ afterEach word again rest
          else c :: afterEach word again cs
      | none => c :: afterEach word again cs
termination_by cs => cs.length

/-- A reset inside the text is followed by the style again. -/
def restored (s : Style) (text : String) : String :=
  String.ofList (afterEach reset.toList s.switchOn.toList text.toList)

end Style

/-- The text with blanks behind it up to a width. -/
def padded (width : Nat) (text : String) : String :=
  text ++ String.ofList (List.replicate (width - text.length) ' ')

/-- The text in a style and up to a width, without the style's codes if there is no color. -/
def styledTo (width : Nat) (color : Bool) (s : Style) (text : String) : String :=
  if color then s.switchOn ++ padded width (s.restored text) ++ Style.reset
  else padded width text

def styled (color : Bool) (s : Style) (text : String) : String :=
  styledTo 0 color s text

end Antipattern
