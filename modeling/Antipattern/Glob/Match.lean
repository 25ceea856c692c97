import Antipattern.Glob.Basic

/-!
Matching paths. A pattern is matched byte by byte, so a character beyond ASCII is several bytes, and a
class of such characters is a class of their bytes.
-/

namespace Antipattern.Glob

abbrev Bytes := List UInt8

def bytesOf (s : String) : Bytes :=
  s.toUTF8.toList

def bytesOfChar (c : Char) : Bytes :=
  bytesOf c.toString

def slash : UInt8 := 47

/-- The byte ranges of a range of characters. Its ends are written one byte after the other, so the
dash stands between the last byte of the first end and the first byte of the last. -/
def byteRanges (range : Char × Char) : List (UInt8 × UInt8) :=
  let first := bytesOfChar range.1
  let last := bytesOfChar range.2
  let single (b : UInt8) : UInt8 × UInt8 := (b, b)
  if range.1 = range.2 then first.map single
  else
    match first.getLast?, last with
    | some a, b :: rest => first.dropLast.map single ++ (a, b) :: rest.map single
    | _, _ => []

def inClass (negated : Bool) (ranges : List (Char × Char)) (b : UInt8) : Bool :=
  (ranges.flatMap byteRanges).any (fun r => r.1 ≤ b && b ≤ r.2) != negated

/-- Everything behind each slash. -/
def behindSlashes : Bytes → List Bytes
  | [] => []
  | b :: bs => if b = slash then bs :: behindSlashes bs else behindSlashes bs

/-- The text itself and all its ends. -/
def tails : Bytes → List Bytes
  | [] => [[]]
  | b :: bs => (b :: bs) :: tails bs

/-- The rest behind a given start. -/
def behind? : Bytes → Bytes → List Bytes
  | [], bs => [bs]
  | w :: ws, b :: bs => if w = b then behind? ws bs else []
  | _ :: _, [] => []

mutual
/-- A part that stands for nothing at all: a group of empty branches. -/
def Part.isVoid : Part → Bool
  | .either branches => allVoid branches
  | _ => false

def allVoid : List (List Part) → Bool
  | [] => true
  | p :: ps => isVoidBranch p && allVoid ps

def isVoidBranch : List Part → Bool
  | [] => true
  | p :: ps => p.isVoid && isVoidBranch ps
end

mutual
/-- All rests that a part can leave. -/
def Part.rests : Part → Bytes → List Bytes
  | .char c, bs => behind? (bytesOfChar c) bs
  | .anyByte, bs => bs.tail?.toList
  | .anyBytes, bs => tails bs
  | .leadingDirs, bs => bs :: behindSlashes bs
  | .trailingDirs, bs =>
      match bs with
      | [] => []
      | b :: bs => if b = slash then tails bs else []
  | .middleDirs, bs =>
      match bs with
      | [] => []
      | b :: bs => if b = slash then bs :: behindSlashes bs else []
  | .oneOf negated ranges, bs =>
      match bs with
      | [] => []
      | b :: bs => if inClass negated ranges b then [bs] else []
  | .either branches, bs =>
      if allVoid branches then [bs] else branchRests branches bs

/-- All rests that the branches can leave. A branch without anything in it is no choice. -/
def branchRests : List (List Part) → Bytes → List Bytes
  | [], _ => []
  | p :: ps, bs =>
      (if isVoidBranch p then [] else allRests p [bs]) ++ branchRests ps bs

/-- All rests that a sequence of parts can leave of any of the given texts. -/
def allRests : List Part → List Bytes → List Bytes
  | [], texts => texts
  | p :: ps, texts => allRests ps (texts.flatMap fun bs => p.rests bs).eraseDups
end

/-- Whether the parts match the whole path. A lone `**` matches everything. -/
def matchesBytes (parts : List Part) (path : Bytes) : Bool :=
  match parts with
  | [.leadingDirs] => true
  | _ => (allRests parts [path]).contains []

def Part.isChar : Part → Bool
  | char _ => true
  | _ => false

def Part.isCharBut (excluded : List Char) : Part → Bool
  | char c => !excluded.contains c
  | _ => false

def Part.isThe (c : Char) : Part → Bool
  | char d => c == d
  | _ => false

def withoutLeadingDirs : List Part → List Part
  | .leadingDirs :: parts => parts
  | parts => parts

def withoutStar : List Part → List Part
  | .anyBytes :: parts => parts
  | parts => parts

/-- `**` and a name. -/
def isName : List Part → Bool
  | .leadingDirs :: parts => !parts.isEmpty && parts.all (Part.isCharBut ['/'])
  | _ => false

/-- `*` and a name's last extension. -/
def isExtension (parts : List Part) : Bool :=
  match withoutLeadingDirs parts with
  | .anyBytes :: dot :: extension =>
      dot.isThe '.' && extension.all (Part.isCharBut ['.', '/'])
  | _ => false

/-- A fixed text before anything. -/
def isFixedStart (parts : List Part) : Bool :=
  match parts.getLast? with
  | some .anyBytes => parts.length ≠ 1 && parts.dropLast.all Part.isChar
  | some .trailingDirs => parts.dropLast.all Part.isChar
  | _ => !parts.isEmpty && parts.all Part.isChar

/-- Anything before a fixed text. -/
def isFixedEnd (parts : List Part) : Bool :=
  let text := withoutStar (withoutLeadingDirs parts)
  !text.isEmpty && text.all Part.isChar

/-- Whether the parts end with a whole extension. -/
def endsWithExtension (parts : List Part) : Bool :=
  let back := parts.reverse
  (back.takeWhile fun p => !p.isThe '.').all (Part.isCharBut ['/']) && back.any (Part.isThe '.')

/-- Whether a path is matched by its name or its extension. -/
def looksAtName (parts : List Part) : Bool :=
  isName parts ||
    !parts.all Part.isChar &&
      (isExtension parts ||
        !isFixedStart parts && !isFixedEnd parts && endsWithExtension parts)

/-- Whether the last component of a path is `..`. -/
def isNameless (path : Bytes) : Bool :=
  path.reverse.takeWhile (· ≠ slash) = bytesOf ".."

/-- Whether the parts match a path. One without a name is matched by none that look at names. -/
def matchesPath (parts : List Part) (path : String) : Bool :=
  !(isNameless (bytesOf path) && looksAtName parts) && matchesBytes parts (bytesOf path)

end Antipattern.Glob
