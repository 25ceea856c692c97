import Antipattern.Yaml.Scalar

/-!
Tokens of YAML. Indentation becomes tokens that open and close blocks, and a key is marked once the
colon behind it is seen.
-/

namespace Antipattern.Yaml

inductive Token where
  | versionDirective (major minor : Nat)
  | tagDirective (handle start : String)
  | documentStart
  | documentEnd
  | blockSequenceStart
  | blockMappingStart
  | blockEnd
  | flowSequenceStart
  | flowSequenceEnd
  | flowMappingStart
  | flowMappingEnd
  | blockEntry
  | flowEntry
  | key
  | value
  | reference (name : String)
  | anchor (name : String)
  | tag (handle ending : String)
  | scalar (style : Style) (text : String)
deriving DecidableEq, Inhabited

/-- A node that is a key if a colon follows it on its line. -/
structure PossibleKey where
  /-- Nothing else can stand at this place. -/
  required : Bool
  /-- Number of tokens before the node. -/
  token : Nat
  mark : Mark
deriving DecidableEq, Inhabited

structure Scanner where
  rest : List Char
  mark : Mark := {}
  tokens : Array Token := #[]
  /-- The least column of what stands inside the innermost open block. -/
  margin : Nat := 0
  /-- The margins of the blocks around it, the innermost first. -/
  margins : List Nat := []
  /-- One place for a possible key outside of all flow collections, and one in each. -/
  keys : List (Option PossibleKey) := [none]
  keyAllowed : Bool := true
deriving Inhabited

namespace Scanner

def inFlow (s : Scanner) : Bool :=
  1 < s.keys.length

def push (s : Scanner) (t : Token) : Scanner :=
  { s with tokens := s.tokens.push t }

def skip (s : Scanner) (n : Nat) : Scanner :=
  { s with rest := s.rest.drop n, mark := s.mark.skip n }

/-- Passes over blanks, line breaks and comments, and a byte order mark at the start of a line.
Behind a line break outside of flow collections a key may follow; while it may, a tab is no blank. -/
def skipGap (inFlow inComment keyAllowed : Bool) (m : Mark) :
    List Char → List Char × Mark × Bool
  | [] => ([], m, keyAllowed)
  | '\r' :: '\n' :: cs => skipGap inFlow false (keyAllowed || !inFlow) (m.nextLine 2) cs
  | c :: cs =>
      if isBreak c then skipGap inFlow false (keyAllowed || !inFlow) (m.nextLine 1) cs
      else if inComment || c = ' ' || (c = '\t' && (inFlow || !keyAllowed)) ||
          (c.toNat = 0xFEFF && m.column = 0) then
        skipGap inFlow inComment keyAllowed m.next cs
      else if c = '#' then skipGap inFlow true keyAllowed m.next cs
      else (c :: cs, m, keyAllowed)

def toNextToken (s : Scanner) : Scanner :=
  let (rest, mark, keyAllowed) := skipGap s.inFlow false s.keyAllowed s.mark s.rest
  { s with rest, mark, keyAllowed }

/-- A key ends on its line and within 1024 characters. -/
def isStale (m : Mark) (k : PossibleKey) : Bool :=
  k.mark.line < m.line || k.mark.index + 1024 < m.index

def dropStaleKeys (s : Scanner) : Except Fault Scanner :=
  if s.keys.any fun k => (k.map fun k => isStale s.mark k && k.required).getD false then
    .error .missingColon
  else .ok { s with keys := s.keys.map fun k => k.filter fun k => !isStale s.mark k }

/-- Gives up the possible key of this level. -/
def removeKey (s : Scanner) : Except Fault Scanner :=
  match s.keys with
  | some k :: outer => if k.required then .error .missingColon else .ok { s with keys := none :: outer }
  | _ => .ok s

/-- Notes that the node that starts here may be a key. -/
def saveKey (s : Scanner) : Except Fault Scanner := do
  if s.keyAllowed then
    let s ← s.removeKey
    let k : PossibleKey := ⟨!s.inFlow && s.margin = s.mark.column + 1, s.tokens.size, s.mark⟩
    return { s with keys := some k :: s.keys.tail }
  else return s

/-- Opens a block at a column that lies deeper than the one around it. Its token goes before the
given number of tokens. -/
def openBlock (s : Scanner) (column place : Nat) (t : Token) : Scanner :=
  if s.inFlow || column < s.margin then s
  else
    { s with
      margin := column + 1, margins := s.margin :: s.margins
      tokens := s.tokens.insertIdxIfInBounds place t }

/-- Closes blocks until at most `least` is the margin. -/
def closeBlocksAbove (least : Nat) (s : Scanner) : List Nat → Scanner
  | [] => s
  | m :: outer =>
      if least < s.margin then
        closeBlocksAbove least { s with margin := m, margins := outer, tokens := s.tokens.push .blockEnd }
          outer
      else s

def closeBlocks (s : Scanner) (least : Nat) : Scanner :=
  if s.inFlow then s else closeBlocksAbove least s s.margins

/-- A mark between documents, or a directive before one, ends all blocks. -/
def endDocument (s : Scanner) : Except Fault Scanner := do
  let s ← (s.closeBlocks 0).removeKey
  return { s with keyAllowed := false }

def documentMark (s : Scanner) (t : Token) : Except Fault Scanner := do
  let s ← s.endDocument
  return (s.push t).skip 3

def flowStart (s : Scanner) (t : Token) : Except Fault Scanner := do
  let s ← s.saveKey
  return { (s.push t).skip 1 with keys := none :: s.keys, keyAllowed := true }

def flowEnd (s : Scanner) (t : Token) : Except Fault Scanner := do
  let s ← s.removeKey
  let keys := match s.keys with
    | _ :: outer :: keys => outer :: keys
    | keys => keys
  return { (s.push t).skip 1 with keys, keyAllowed := false }

def flowEntry (s : Scanner) : Except Fault Scanner := do
  let s ← s.removeKey
  return { (s.push .flowEntry).skip 1 with keyAllowed := true }

def blockEntry (s : Scanner) : Except Fault Scanner := do
  if !s.inFlow && !s.keyAllowed then throw .misplacedEntry
  let s := s.openBlock s.mark.column s.tokens.size .blockSequenceStart
  let s ← s.removeKey
  return { (s.push .blockEntry).skip 1 with keyAllowed := true }

def explicitKey (s : Scanner) : Except Fault Scanner := do
  if !s.inFlow && !s.keyAllowed then throw .misplacedKey
  let s := s.openBlock s.mark.column s.tokens.size .blockMappingStart
  let s ← s.removeKey
  return { (s.push .key).skip 1 with keyAllowed := !s.inFlow }

/-- A colon turns the possible key before it into a key. -/
def value (s : Scanner) : Except Fault Scanner := do
  match s.keys with
  | some k :: outer =>
      let s := { s with tokens := s.tokens.insertIdxIfInBounds k.token .key }
      let s := s.openBlock k.mark.column k.token .blockMappingStart
      return { (s.push .value).skip 1 with keys := none :: outer, keyAllowed := false }
  | _ =>
      if !s.inFlow && !s.keyAllowed then throw .misplacedValue
      let s := s.openBlock s.mark.column s.tokens.size .blockMappingStart
      return { (s.push .value).skip 1 with keyAllowed := !s.inFlow }

/-- The name behind `*` or `&`. -/
def named (s : Scanner) (t : String → Token) : Except Fault Scanner := do
  let s ← s.saveKey
  let name := (s.rest.drop 1).takeWhile isNameChar
  let behind := (s.rest.drop 1).drop name.length
  let ends := endsWord behind || (behind.head?.map fun c =>
    ['?', ':', ',', ']', '\x7d', '%', '@', Char.ofNat 0x60].contains c).getD false
  if name.isEmpty || !ends then throw .badName
  return { (s.push (t (String.ofList name))).skip (1 + name.length) with keyAllowed := false }

def isUriChar (inBrackets : Bool) (c : Char) : Bool :=
  isNameChar c || [';', '/', '?', ':', '@', '&', '=', '+', '$', '.', '!', '~', '*', '\'', '(', ')',
    '%'].contains c || (inBrackets && [',', '[', ']'].contains c)

/-- Replaces the escapes in a part of a tag. -/
def uriText : List Char → Option (List Char)
  | [] => some []
  | '%' :: a :: b :: cs =>
      (hexDigit? a).bind fun x => (hexDigit? b).bind fun y =>
        (uriText cs).map (Char.ofNat (x * 16 + y) :: ·)
  | c :: cs => if c = '%' then none else (uriText cs).map (c :: ·)

/-- The handle at the start of a tag: `!`, `!!` or a name between exclamation marks. -/
def tagHandle (cs : List Char) : List Char :=
  let name := (cs.drop 1).takeWhile isNameChar
  if (cs.drop (1 + name.length)).head? = some '!' then '!' :: name ++ ['!'] else ['!']

/-- A tag's handle and ending, and the number of its characters. -/
def tagAt (cs : List Char) : Except Fault (String × String × Nat) :=
  match cs with
  | '!' :: '<' :: inside =>
      let uri := inside.takeWhile (isUriChar true)
      match uriText uri, (inside.drop uri.length).head? with
      | some text, some '>' =>
          if uri.isEmpty then .error .badTag
          else .ok ("", String.ofList text, uri.length + 3)
      | _, _ => .error .badTag
  | _ =>
      let handle := tagHandle cs
      let uri := (cs.drop handle.length).takeWhile (isUriChar false)
      match uriText uri with
      | none => .error .badTag
      | some text =>
          let length := handle.length + uri.length
          if handle = ['!'] then
            if text.isEmpty then .ok ("", "!", length)
            else .ok ("!", String.ofList text, length)
          else if text.isEmpty then .error .badTag
          else .ok (String.ofList handle, String.ofList text, length)

def tag (s : Scanner) : Except Fault Scanner := do
  let s ← s.saveKey
  let (handle, ending, length) ← tagAt s.rest
  let behind := s.rest.drop length
  if !endsWord behind && !(s.inFlow && behind.head? = some ',') then throw .badTag
  return { (s.push (.tag handle ending)).skip length with keyAllowed := false }

def digitsValue (cs : List Char) : Nat :=
  cs.foldl (fun v c => v * 10 + (c.toNat - '0'.toNat)) 0

/-- The version number of a directive. -/
def versionAt (cs : List Char) : Except Fault (Token × List Char) :=
  let major := cs.takeWhile Char.isDigit
  match cs.drop major.length with
  | '.' :: rest =>
      let minor := rest.takeWhile Char.isDigit
      if major.isEmpty || minor.isEmpty || 9 < major.length || 9 < minor.length then
        .error .badDirective
      else .ok (.versionDirective (digitsValue major) (digitsValue minor), rest.drop minor.length)
  | _ => .error .badDirective

/-- The handle of a directive and what it stands for. -/
def handleAt (cs : List Char) : Except Fault (Token × List Char) :=
  let handle := tagHandle cs
  let rest := cs.drop handle.length
  let uri := (rest.dropWhile isBlank).takeWhile (isUriChar true)
  let behind := (rest.dropWhile isBlank).drop uri.length
  if cs.head? ≠ some '!' || !(rest.head?.map isBlank).getD false || uri.isEmpty ||
      !endsWord behind then
    .error .badDirective
  else
    match uriText uri with
    | some text => .ok (.tagDirective (String.ofList handle) (String.ofList text), behind)
    | none => .error .badDirective

/-- A directive with its whole line. -/
def directive (s : Scanner) : Except Fault Scanner := do
  let s ← s.endDocument
  let name := (s.rest.drop 1).takeWhile isNameChar
  let rest := s.rest.drop (1 + name.length)
  if name.isEmpty || !endsWord rest then throw .badDirective
  let value := rest.dropWhile isBlank
  let (t, behind) ←
    if name = "YAML".toList then versionAt value
    else if name = "TAG".toList then handleAt value
    else throw .badDirective
  let behind := behind.dropWhile isBlank
  let behind := if behind.head? = some '#' then behind.dropWhile fun c => !isBreak c else behind
  match takeBreak behind with
  | (lineBreak, _, next) =>
      if lineBreak.isEmpty && !next.isEmpty then throw .badDirective
      let passed := s.rest.length - next.length
      return { s.push t with rest := next, mark := s.mark.nextLine passed }

def takeScan (s : Scanner) (style : Style) (scan : Scan) : Scanner :=
  { s.push (.scalar style (String.ofList scan.text)) with
    rest := scan.rest, mark := scan.mark, keyAllowed := scan.onNewLine }

def blockScalarAt (s : Scanner) (style : Style) : Except Fault Scanner := do
  let s ← s.removeKey
  return s.takeScan style (← blockScalar style s.margin s.mark.next (s.rest.drop 1))

def singleQuoted (s : Scanner) : Except Fault Scanner := do
  let s ← s.saveKey
  return s.takeScan .singleQuoted (← singleQuotedFrom s.mark.next [] .nothing (s.rest.drop 1))

def doubleQuoted (s : Scanner) : Except Fault Scanner := do
  let s ← s.saveKey
  return s.takeScan .doubleQuoted (← doubleQuotedFrom s.mark.next [] .nothing (s.rest.drop 1))

def plain (s : Scanner) : Except Fault Scanner := do
  let s ← s.saveKey
  return s.takeScan .plain (← plainFrom s.inFlow s.margin s.mark [] .nothing s.rest)

/-- Characters that start something other than a plain scalar. -/
def indicators : List Char :=
  ['-', '?', ':', ',', '[', ']', '\x7b', '\x7d', '#', '&', '*', '!', '|', '>', '\'', '"', '%', '@',
    Char.ofNat 0x60]

def startsPlain (inFlow : Bool) (c : Char) (cs : List Char) : Bool :=
  !(isBlank c || indicators.contains c) || (c = '-' && !(cs.head?.map isBlank).getD false) ||
    (!inFlow && (c = '?' || c = ':') && !endsWord cs)

/-- The token at the start of the rest, whose first character is given. -/
def tokenAt (s : Scanner) (c : Char) (cs : List Char) : Except Fault Scanner :=
  let atLineStart := s.mark.column = 0
  if atLineStart && c = '%' then s.directive
  else if atLineStart && startsWithMarker (c :: cs) then
    s.documentMark (if c = '-' then .documentStart else .documentEnd)
  else if c = '[' then s.flowStart .flowSequenceStart
  else if c = '\x7b' then s.flowStart .flowMappingStart
  else if c = ']' then s.flowEnd .flowSequenceEnd
  else if c = '\x7d' then s.flowEnd .flowMappingEnd
  else if c = ',' then s.flowEntry
  else if c = '-' && endsWord cs then s.blockEntry
  else if c = '?' && (s.inFlow || endsWord cs) then s.explicitKey
  else if c = ':' && (s.inFlow || endsWord cs) then s.value
  else if c = '*' then s.named .reference
  else if c = '&' then s.named .anchor
  else if c = '!' then s.tag
  else if c = '|' && !s.inFlow then s.blockScalarAt .literal
  else if c = '>' && !s.inFlow then s.blockScalarAt .folded
  else if c = '\'' then s.singleQuoted
  else if c = '"' then s.doubleQuoted
  else if startsPlain s.inFlow c cs then s.plain
  else .error .strayCharacter

/-- Scans up to the end. Each token takes at least one character. -/
def scanAll (s : Scanner) : Except Fault (List Token) := do
  let t ← s.toNextToken.dropStaleKeys
  let t := t.closeBlocks (t.mark.column + 1)
  match t.rest with
  | [] => return (← t.endDocument).tokens.toList
  | c :: cs =>
      let u ← t.tokenAt c cs
      if _h : u.rest.length < s.rest.length then u.scanAll else throw .strayCharacter
termination_by s.rest.length

end Scanner

/-- Characters that may stand in a YAML text. -/
def isAllowed (c : Char) : Bool :=
  let n := c.toNat
  n = 9 || n = 10 || n = 13 || (0x20 ≤ n && n ≤ 0x7E) || n = 0x85 || (0xA0 ≤ n && n ≤ 0xFFFD) ||
    0x10000 ≤ n

/-- The tokens of a text. -/
def scan (text : List Char) : Except Fault (List Token) :=
  if text.all isAllowed then Scanner.scanAll { rest := text }
  else .error .controlCharacter

end Antipattern.Yaml
