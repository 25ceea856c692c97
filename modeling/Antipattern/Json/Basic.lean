/-!
Structured values as reports write them. Fields keep the order in which they were put, and numbers
are natural.
-/

namespace Antipattern

inductive Json where
  | null
  | bool (b : Bool)
  | num (n : Nat)
  | str (s : String)
  | arr (items : List Json)
  | obj (fields : List (String × Json))
deriving Inhabited

namespace Json

def field? (j : Json) (name : String) : Option Json :=
  match j with
  | obj fields => fields.lookup name
  | _ => none

def asString? : Json → Option String
  | str s => some s
  | _ => none

def asNat? : Json → Option Nat
  | num n => some n
  | _ => none

def asBool? : Json → Option Bool
  | bool b => some b
  | _ => none

def asList? : Json → Option (List Json)
  | arr items => some items
  | _ => none

def strings (ss : List String) : Json :=
  arr (ss.map str)

/-- Four hexadecimal digits of a control character. -/
def controlDigits (n : Nat) : List Char :=
  let digits := Nat.toDigits 16 n
  List.replicate (4 - digits.length) '0' ++ digits

/-- A character inside a string: quotes, backslashes and controls are escaped. -/
def escapedChar (c : Char) : List Char :=
  match c with
  | '"' => ['\\', '"']
  | '\\' => ['\\', '\\']
  | '\n' => ['\\', 'n']
  | '\r' => ['\\', 'r']
  | '\t' => ['\\', 't']
  | '\x08' => ['\\', 'b']
  | '\x0c' => ['\\', 'f']
  | _ => if c.toNat < 32 then '\\' :: 'u' :: controlDigits c.toNat else [c]

def quoted (s : String) : String :=
  String.ofList ('"' :: s.toList.flatMap escapedChar ++ ['"'])

def newline (depth : Nat) : String :=
  "\n" ++ String.ofList (List.replicate (2 * depth) ' ')

mutual
/-- The value over several lines, two blanks deeper at each level; empty lists and objects stay
closed up. -/
def pretty (depth : Nat) : Json → String
  | null => "null"
  | bool true => "true"
  | bool false => "false"
  | num n => toString n
  | str s => quoted s
  | arr [] => "[]"
  | arr (item :: items) =>
      "[" ++ newline (depth + 1) ++ pretty (depth + 1) item ++ prettyItems (depth + 1) items ++
        newline depth ++ "]"
  | obj [] => "\x7b\x7d"
  | obj ((name, value) :: fields) =>
      "\x7b" ++ newline (depth + 1) ++ quoted name ++ ": " ++ pretty (depth + 1) value ++
        prettyFields (depth + 1) fields ++ newline depth ++ "\x7d"

def prettyItems (depth : Nat) : List Json → String
  | [] => ""
  | item :: items => "," ++ newline depth ++ pretty depth item ++ prettyItems depth items

def prettyFields (depth : Nat) : List (String × Json) → String
  | [] => ""
  | (name, value) :: fields =>
      "," ++ newline depth ++ quoted name ++ ": " ++ pretty depth value ++
        prettyFields depth fields
end

end Json
end Antipattern
