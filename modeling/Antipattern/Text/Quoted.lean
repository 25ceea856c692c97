import Antipattern.Text.Invisible

/-!
Quoted text for messages: a quote, a backslash and the common controls have short escapes, and
every other character that would not show is written by its code point.
-/

namespace Antipattern.Text

def quotedChar (c : Char) : List Char :=
  match c with
  | '"' => ['\\', '"']
  | '\\' => ['\\', '\\']
  | '\n' => ['\\', 'n']
  | '\r' => ['\\', 'r']
  | '\t' => ['\\', 't']
  | _ =>
      if c.toNat = 0 then ['\\', '0']
      else if isInvisible c then
        ['\\', 'u', '\x7b'] ++ Nat.toDigits 16 c.toNat ++ ['\x7d']
      else [c]

/-- The text between quotes, with the characters in it that need an escape escaped. -/
def quoted (s : String) : String :=
  String.ofList ('"' :: s.toList.flatMap quotedChar ++ ['"'])

end Antipattern.Text
