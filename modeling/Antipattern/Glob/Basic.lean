import Antipattern.Text.Quoted

/-!
Glob patterns: `?` and `*` also stand for slashes, `**` between slashes for any number of whole
directories, brackets for one of several characters, braces for one of several patterns. A backslash
takes the character behind it as it is.
-/

namespace Antipattern.Glob

inductive Part where
  | char (c : Char)
  | anyByte
  | anyBytes
  /-- `**` at the start: nothing, or directories up to a slash. -/
  | leadingDirs
  /-- `**` at the end: a slash and anything. -/
  | trailingDirs
  /-- `**` in the middle: a slash, or directories between slashes. -/
  | middleDirs
  | oneOf (negated : Bool) (ranges : List (Char × Char))
  | either (branches : List (List Part))
deriving Inhabited

inductive Fault where
  | unclosedClass
  | reversedRange (first last : Char)
  | unopenedGroup
  | unclosedGroup
  | danglingEscape
deriving DecidableEq, Inhabited

def Fault.text : Fault → String
  | unclosedClass => "unclosed character class; missing ']'"
  | reversedRange first last =>
      "invalid range; '" ++ first.toString ++ "' > '" ++ last.toString ++ "'"
  | unopenedGroup =>
      "unopened alternate group; missing '\x7b' (maybe escape '\x7d' with '[\x7d]'?)"
  | unclosedGroup =>
      "unclosed alternate group; missing '\x7d' (maybe escape '\x7b' with '[\x7b]'?)"
  | danglingEscape => "dangling '\\'"

/-- A pattern that cannot be read. -/
structure Error where
  pattern : String
  fault : Fault
deriving DecidableEq, Inhabited

def Error.message (e : Error) : String :=
  "invalid glob pattern " ++ Text.quoted e.pattern ++ ": error parsing glob '" ++ e.pattern ++
    "': " ++ e.fault.text

/-- Reads the ranges of a class. `found` are those read so far, the last first, and `waits` says that
the last of them waits for its end behind a dash. -/
def classRanges (found : List (Char × Char)) (waits : Bool) :
    List Char → Except Fault (List (Char × Char))
  | [] => .ok ((if waits then ('-', '-') :: found else found).reverse)
  | c :: cs =>
      match found with
      | [] => classRanges [(c, c)] false cs
      | (first, last) :: before =>
          if waits then
            if c < first then .error (.reversedRange first c)
            else classRanges ((first, c) :: before) false cs
          else if c = '-' then classRanges ((first, last) :: before) true cs
          else classRanges ((c, c) :: (first, last) :: before) false cs

/-- Whether a class is negated, and the text behind the sign. -/
def classSign : List Char → Bool × List Char
  | '!' :: cs | '^' :: cs => (true, cs)
  | cs => (false, cs)

/-- The content of a class, which is never empty, and the text from its closing bracket on. -/
def classContent : List Char → List Char × List Char
  | [] => ([], [])
  | c :: cs => (c :: cs.takeWhile (· ≠ ']'), cs.dropWhile (· ≠ ']'))

/-- The class at the start of a text, behind its opening bracket, and what follows it. -/
def classPart (cs : List Char) : Except Fault (Part × List Char) := do
  let (negated, cs) := classSign cs
  let (content, rest) := classContent cs
  let ranges ← classRanges [] false content
  match rest with
  | _ :: rest => return (.oneOf negated ranges, rest)
  | [] => throw .unclosedClass

/-- A group that is not closed yet: the parts before it and its finished branches, both in
reverse. -/
structure OpenGroup where
  before : List Part
  branches : List (List Part)
deriving Inhabited

/-- What two stars mean. `previous` is the character before them, `parts` are the parts before them,
the last first. Gives the parts and the text behind. -/
def doubleStar (previous : Option Char) (inGroup : Bool) (parts : List Part) (rest : List Char) :
    List Part × List Char :=
  let plain := (.anyBytes :: .anyBytes :: parts, rest)
  match parts with
  | [] =>
      match rest with
      | [] => ([.leadingDirs], [])
      | c :: behind => if c = '/' then ([.leadingDirs], behind) else plain
  | last :: before =>
      if previous ≠ some '/' && !(inGroup && (previous = some ',' || previous = some '\x7b')) then
        plain
      else
        let joined (atEnd : Bool) : Part :=
          match last with
          | .leadingDirs => .leadingDirs
          | .trailingDirs => .trailingDirs
          | _ => if atEnd then .trailingDirs else .middleDirs
        match rest with
        | [] => (joined true :: before, [])
        | c :: behind =>
            if c = '/' then (joined false :: before, behind)
            else if inGroup && (c = ',' || c = '\x7d') then (joined true :: before, rest)
            else plain

/-- The last character that two stars take with them. -/
def afterDoubleStar (rest behind : List Char) : Char :=
  if behind.length < rest.length then '/' else '*'

theorem doubleStar_length_le (previous : Option Char) (inGroup : Bool) (parts : List Part)
    (rest : List Char) : (doubleStar previous inGroup parts rest).2.length ≤ rest.length := by
  cases parts <;> cases rest <;> simp only [doubleStar] <;> (repeat' split) <;> simp

theorem classContent_length_le (cs : List Char) : (classContent cs).2.length ≤ cs.length := by
  cases cs with
  | nil => simp [classContent]
  | cons c cs =>
      simp only [classContent, List.length_cons]
      exact Nat.le_succ_of_le (List.dropWhile_suffix _).length_le

theorem classPart_length_le {cs : List Char} {part : Part} {rest : List Char}
    (h : classPart cs = .ok (part, rest)) : rest.length ≤ cs.length := by
  have hs : (classSign cs).2.length ≤ cs.length := by
    unfold classSign; split <;> simp
  have hc := classContent_length_le (classSign cs).2
  simp only [classPart, bind, Except.bind] at h
  split at h
  · cases h
  · split at h
    · rename_i heq
      simp only [pure, Except.pure, Except.ok.injEq, Prod.mk.injEq] at h
      rw [heq] at hc
      simp only [List.length_cons] at hc
      rw [← h.2]
      omega
    · cases h

/-- Reads a pattern. `previous` is the last character read, `groups` are the open groups, the
innermost first, and `parts` those read since, the last first. -/
def readParts (previous : Option Char) (groups : List OpenGroup) (parts : List Part) :
    List Char → Except Fault (List Part)
  | [] => if groups.isEmpty then .ok parts.reverse else .error .unclosedGroup
  | '?' :: cs => readParts (some '?') groups (.anyByte :: parts) cs
  | '*' :: '*' :: cs =>
      let next := doubleStar previous (!groups.isEmpty) parts cs
      readParts (some (afterDoubleStar cs next.2)) groups next.1 next.2
  | '*' :: cs => readParts (some '*') groups (.anyBytes :: parts) cs
  | '[' :: cs =>
      match _h : classPart cs with
      | .error e => .error e
      | .ok (part, rest) => readParts (some ']') groups (part :: parts) rest
  | '\\' :: c :: cs => readParts (some c) groups (.char c :: parts) cs
  | ['\\'] => .error .danglingEscape
  | c :: cs =>
      if c = '\x7b' then readParts (some c) (⟨parts, []⟩ :: groups) [] cs
      else if c = '\x7d' then
        match groups with
        | [] => .error .unopenedGroup
        | g :: outer =>
            let branches := (parts.reverse :: g.branches).reverse
            readParts (some c) outer (.either branches :: g.before) cs
      else if c = ',' then
        match groups with
        | [] => readParts (some c) groups (.char c :: parts) cs
        | g :: outer =>
            readParts (some c) ({ g with branches := parts.reverse :: g.branches } :: outer) [] cs
      else readParts (some c) groups (.char c :: parts) cs
termination_by cs => cs.length
decreasing_by
  all_goals simp only [List.length_cons]
  any_goals omega
  · have h := doubleStar_length_le previous (!groups.isEmpty) parts cs
    omega
  · have h := classPart_length_le _h
    omega

def parse (pattern : String) : Except Error (List Part) :=
  match readParts none [] [] pattern.toList with
  | .ok parts => .ok parts
  | .error fault => .error ⟨pattern, fault⟩

end Antipattern.Glob
