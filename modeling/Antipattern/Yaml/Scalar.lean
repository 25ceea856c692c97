/-!
Scalars of YAML: plain, quoted and block texts. Each reader takes the characters from the start of a
scalar and gives its text with the characters behind it.
-/

namespace Antipattern.Yaml

/-- What is wrong with a text that is no YAML. -/
inductive Fault where
  | controlCharacter
  | strayCharacter
  | missingColon
  | misplacedEntry
  | misplacedKey
  | misplacedValue
  | unclosedQuote
  | markerInQuote
  | badEscape
  | badBlockHeader
  | tabAsIndent
  | badName
  | badTag
  | badDirective
  | unexpectedToken
  | unknownAnchor
  | secondDocument
deriving DecidableEq, Inhabited

def Fault.text : Fault → String
  | controlCharacter => "control characters are not allowed"
  | strayCharacter => "found character that cannot start any token"
  | missingColon => "could not find expected colon"
  | misplacedEntry => "block sequence entries are not allowed in this context"
  | misplacedKey => "mapping keys are not allowed in this context"
  | misplacedValue => "mapping values are not allowed in this context"
  | unclosedQuote => "found unexpected end of stream in a quoted scalar"
  | markerInQuote => "found unexpected document indicator in a quoted scalar"
  | badEscape => "found unknown escape character"
  | badBlockHeader => "did not find expected comment or line break behind a block indicator"
  | tabAsIndent => "found a tab character where an indentation space is expected"
  | badName => "did not find expected alphabetic or numeric character"
  | badTag => "did not find expected tag"
  | badDirective => "found a directive that is not understood"
  | unexpectedToken => "did not find expected node content"
  | unknownAnchor => "unknown anchor"
  | secondDocument => "more than one document"

inductive Style where
  | plain
  | singleQuoted
  | doubleQuoted
  | literal
  | folded
deriving DecidableEq, Inhabited

def isBlank (c : Char) : Bool :=
  c = ' ' || c = '\t'

def isBreak (c : Char) : Bool :=
  c = '\n' || c = '\r' || c.toNat = 0x85 || c.toNat = 0x2028 || c.toNat = 0x2029

/-- How a line break is kept. -/
def breakChar (c : Char) : Char :=
  if c.toNat = 0x2028 || c.toNat = 0x2029 then c else '\n'

/-- Letters, digits and the two marks of names. -/
def isNameChar (c : Char) : Bool :=
  c.isAlphanum || c = '_' || c = '-'

/-- Whether the text starts with a blank or a line break, or is empty. -/
def endsWord : List Char → Bool
  | [] => true
  | c :: _ => isBlank c || isBreak c

/-- Whether a line starts with a mark between documents. -/
def startsWithMarker : List Char → Bool
  | a :: b :: c :: cs => a = b && b = c && (a = '-' || a = '.') && endsWord cs
  | _ => false

/-- A place in the text, counted in characters. -/
structure Mark where
  index : Nat := 0
  line : Nat := 0
  column : Nat := 0
deriving DecidableEq, Inhabited

namespace Mark

def next (m : Mark) : Mark :=
  ⟨m.index + 1, m.line, m.column + 1⟩

def skip (m : Mark) (n : Nat) : Mark :=
  ⟨m.index + n, m.line, m.column + n⟩

/-- Behind a line break of `n` characters. -/
def nextLine (m : Mark) (n : Nat) : Mark :=
  ⟨m.index + n, m.line + 1, 0⟩

end Mark

/-- Blanks and line breaks inside a scalar that spans lines, all in reverse. -/
inductive Gap where
  | nothing
  | blanks (text : List Char)
  | breaks (first : Option Char) (further : List Char)
deriving DecidableEq, Inhabited

namespace Gap

def hasBreaks : Gap → Bool
  | breaks .. => true
  | _ => false

/-- Blanks behind a line break are dropped. -/
def addBlank (c : Char) : Gap → Gap
  | nothing => blanks [c]
  | blanks text => blanks (c :: text)
  | g => g

/-- Blanks before a line break are dropped. -/
def addBreak (c : Char) : Gap → Gap
  | breaks first further => breaks first (breakChar c :: further)
  | _ => breaks (some (breakChar c)) []

/-- The text of a gap, in reverse: one line break becomes a space, and of several the first is
dropped. -/
def folded : Gap → List Char
  | nothing => []
  | blanks text => text
  | breaks none further => further
  | breaks (some c) further =>
      if c = '\n' then (if further.isEmpty then [' '] else further) else further ++ [c]

end Gap

/-- A scalar that was read: its text, what stands behind it and where, and whether a line break was
passed behind the text. -/
structure Scan where
  text : List Char
  rest : List Char
  mark : Mark
  onNewLine : Bool := false
deriving DecidableEq, Inhabited

def isFlowMark (c : Char) : Bool :=
  c = ',' || c = '[' || c = ']' || c = '\x7b' || c = '\x7d'

/-- A plain scalar from its first character on. Text on further lines stands at `margin` or behind
it. `text` is what was read, the last character first. -/
def plainFrom (inFlow : Bool) (margin : Nat) (m : Mark) (text : List Char) (gap : Gap) :
    List Char → Except Fault Scan
  | [] => .ok ⟨text.reverse, [], m, gap.hasBreaks⟩
  | '\r' :: '\n' :: cs => plainFrom inFlow margin (m.nextLine 2) text (gap.addBreak '\n') cs
  | c :: cs =>
      if isBreak c then plainFrom inFlow margin (m.nextLine 1) text (gap.addBreak c) cs
      else if isBlank c then
        if gap.hasBreaks && c = '\t' && m.column < margin then .error .tabAsIndent
        else plainFrom inFlow margin m.next text (gap.addBlank c) cs
      else if gap ≠ .nothing && ((m.column = 0 && startsWithMarker (c :: cs)) || c = '#' ||
          (!inFlow && m.column < margin)) then
        .ok ⟨text.reverse, c :: cs, m, gap.hasBreaks⟩
      else if inFlow && c = ':' && (cs.head?.map fun d => isFlowMark d || d = '?').getD false then
        .error .misplacedValue
      else if (c = ':' && endsWord cs) || (inFlow && isFlowMark c) then
        .ok ⟨text.reverse, c :: cs, m, gap.hasBreaks⟩
      else plainFrom inFlow margin m.next (c :: (gap.folded ++ text)) .nothing cs

/-- The rest of a single-quoted scalar, in which a quote is written twice. -/
def singleQuotedFrom (m : Mark) (text : List Char) (gap : Gap) : List Char → Except Fault Scan
  | [] => .error .unclosedQuote
  | '\r' :: '\n' :: cs => singleQuotedFrom (m.nextLine 2) text (gap.addBreak '\n') cs
  | '\'' :: '\'' :: cs => singleQuotedFrom (m.skip 2) ('\'' :: (gap.folded ++ text)) .nothing cs
  | c :: cs =>
      if isBreak c then singleQuotedFrom (m.nextLine 1) text (gap.addBreak c) cs
      else if isBlank c then singleQuotedFrom m.next text (gap.addBlank c) cs
      else if m.column = 0 && startsWithMarker (c :: cs) then .error .markerInQuote
      else if c = '\'' then .ok ⟨(gap.folded ++ text).reverse, cs, m.next, false⟩
      else singleQuotedFrom m.next (c :: (gap.folded ++ text)) .nothing cs

/-- Escapes of one character. -/
def shortEscape? (c : Char) : Option Char :=
  match c with
  | '0' => some (Char.ofNat 0)
  | 'a' => some (Char.ofNat 7)
  | 'b' => some (Char.ofNat 8)
  | 't' | '\t' => some '\t'
  | 'n' => some '\n'
  | 'v' => some (Char.ofNat 11)
  | 'f' => some (Char.ofNat 12)
  | 'r' => some '\r'
  | 'e' => some (Char.ofNat 27)
  | ' ' => some ' '
  | '"' => some '"'
  | '\'' => some '\''
  | '/' => some '/'
  | '\\' => some '\\'
  | 'N' => some (Char.ofNat 0x85)
  | '_' => some (Char.ofNat 0xA0)
  | 'L' => some (Char.ofNat 0x2028)
  | 'P' => some (Char.ofNat 0x2029)
  | _ => none

/-- Hexadecimal digits of the longer escapes. -/
def escapeDigits? (c : Char) : Option Nat :=
  match c with
  | 'x' => some 2
  | 'u' => some 4
  | 'U' => some 8
  | _ => none

def hexDigit? (c : Char) : Option Nat :=
  if c.isDigit then some (c.toNat - '0'.toNat)
  else if 'a' ≤ c && c ≤ 'f' then some (c.toNat - 'a'.toNat + 10)
  else if 'A' ≤ c && c ≤ 'F' then some (c.toNat - 'A'.toNat + 10)
  else none

/-- The value of exactly `n` digits at the start of a text. -/
def hexValue? (n : Nat) (cs : List Char) : Option Nat :=
  if (cs.take n).length = n then
    (cs.take n).foldl (fun v c => v.bind fun v => (hexDigit? c).map (v * 16 + ·)) (some 0)
  else none

/-- The character behind a backslash, and how many characters say so. -/
def escape? (c : Char) (cs : List Char) : Option (Char × Nat) :=
  match shortEscape? c with
  | some d => some (d, 0)
  | none =>
      (escapeDigits? c).bind fun n =>
        (hexValue? n cs).bind fun v =>
          if v.isValidChar then some (Char.ofNat v, n) else none

/-- The rest of a double-quoted scalar. A backslash at the end of a line joins it to the next. -/
def doubleQuotedFrom (m : Mark) (text : List Char) (gap : Gap) : List Char → Except Fault Scan
  | [] => .error .unclosedQuote
  | '\r' :: '\n' :: cs => doubleQuotedFrom (m.nextLine 2) text (gap.addBreak '\n') cs
  | '\\' :: '\r' :: '\n' :: cs =>
      doubleQuotedFrom (m.nextLine 3) (gap.folded ++ text) (.breaks none []) cs
  | '\\' :: c :: cs =>
      if isBreak c then doubleQuotedFrom (m.nextLine 2) (gap.folded ++ text) (.breaks none []) cs
      else
        match escape? c cs with
        | some (d, n) =>
            doubleQuotedFrom (m.skip (2 + n)) (d :: (gap.folded ++ text)) .nothing (cs.drop n)
        | none => .error .badEscape
  | c :: cs =>
      if isBreak c then doubleQuotedFrom (m.nextLine 1) text (gap.addBreak c) cs
      else if isBlank c then doubleQuotedFrom m.next text (gap.addBlank c) cs
      else if m.column = 0 && startsWithMarker (c :: cs) then .error .markerInQuote
      else if c = '"' then .ok ⟨(gap.folded ++ text).reverse, cs, m.next, false⟩
      else if c = '\\' then .error .badEscape
      else doubleQuotedFrom m.next (c :: (gap.folded ++ text)) .nothing cs
termination_by cs => cs.length
decreasing_by all_goals simp only [List.length_cons, List.length_drop]; omega

/-- What happens to line breaks at the end of a block. -/
inductive Chomp where
  | strip
  | clip
  | keep
deriving DecidableEq, Inhabited

def Chomp.ofSign? : Char → Option Chomp
  | '-' => some strip
  | '+' => some keep
  | _ => none

structure BlockHeader where
  chomp : Chomp := .clip
  /-- Columns by which the block is indented, if it says so. -/
  indent : Option Nat := none
  /-- Characters of the header. -/
  length : Nat := 0
deriving DecidableEq, Inhabited

def indentDigit? (c : Char) : Option Nat :=
  if c.isDigit then some (c.toNat - '0'.toNat) else none

/-- The sign and the digit behind a block indicator, in any order. -/
def blockHeader (cs : List Char) : BlockHeader :=
  match cs with
  | a :: b :: _ =>
      match Chomp.ofSign? a, indentDigit? a, Chomp.ofSign? b, indentDigit? b with
      | some chomp, _, _, some n => ⟨chomp, some n, 2⟩
      | some chomp, _, _, none => ⟨chomp, none, 1⟩
      | none, some n, some chomp, _ => ⟨chomp, some n, 2⟩
      | none, some n, none, _ => ⟨.clip, some n, 1⟩
      | none, none, _, _ => {}
  | [a] =>
      match Chomp.ofSign? a, indentDigit? a with
      | some chomp, _ => ⟨chomp, none, 1⟩
      | none, some n => ⟨.clip, some n, 1⟩
      | none, none => {}
  | [] => {}

/-- Empty lines and indentation before the next line of a block. -/
structure BlockGap where
  /-- The deepest indentation found. -/
  deepest : Nat
  /-- Line breaks in reverse. -/
  breaks : List Char
  mark : Mark
  rest : List Char
deriving DecidableEq, Inhabited

/-- Reads empty lines and indentation up to column `indent`, or any if that is zero. -/
def blockGap (indent deepest : Nat) (breaks : List Char) (m : Mark) :
    List Char → Except Fault BlockGap
  | [] => .ok ⟨max deepest m.column, breaks, m, []⟩
  | '\r' :: '\n' :: cs =>
      blockGap indent (max deepest m.column) ('\n' :: breaks) (m.nextLine 2) cs
  | c :: cs =>
      let inIndent := indent = 0 || m.column < indent
      if c = ' ' && inIndent then blockGap indent deepest breaks m.next cs
      else if c = '\t' && inIndent then .error .tabAsIndent
      else if isBreak c then
        blockGap indent (max deepest m.column) (breakChar c :: breaks) (m.nextLine 1) cs
      else .ok ⟨max deepest m.column, breaks, m, c :: cs⟩

theorem blockGap_length_le {indent deepest : Nat} {breaks : List Char} {m : Mark}
    {cs : List Char} {g : BlockGap} (h : blockGap indent deepest breaks m cs = .ok g) :
    g.rest.length ≤ cs.length := by
  fun_induction blockGap indent deepest breaks m cs with
  | case1 => cases h; simp
  | case2 _ _ _ _ ih => have := ih h; simp only [List.length_cons]; omega
  | case3 _ _ _ _ _ _ _ _ ih => have := ih h; simp only [List.length_cons]; omega
  | case4 => cases h
  | case5 _ _ _ _ _ _ _ _ _ _ ih => have := ih h; simp only [List.length_cons]; omega
  | case6 => cases h; simp

/-- The line break at the start of a text as it is kept, how many characters it has and what follows
it. -/
def takeBreak : List Char → List Char × Nat × List Char
  | '\r' :: '\n' :: cs => (['\n'], 2, cs)
  | c :: cs => if isBreak c then ([breakChar c], 1, cs) else ([], 0, c :: cs)
  | [] => ([], 0, [])

theorem takeBreak_length_le (cs : List Char) : (takeBreak cs).2.2.length ≤ cs.length := by
  unfold takeBreak
  split
  · simp only [List.length_cons]; omega
  · split <;> simp
  · simp

/-- The lines of a block. `text` is what was read, `last` the break that ended the last line and
`further` those of the empty lines behind it, all in reverse; `spaced` says that the last line started
with a blank. -/
def blockLines (style : Style) (chomp : Chomp) (indent : Nat) (text last further : List Char)
    (spaced : Bool) (m : Mark) : List Char → Except Fault Scan
  | [] => finish text last further m []
  | c :: cs =>
      if m.column ≠ indent then finish text last further m (c :: cs)
      else
        let start :=
          if style = .folded && last = ['\n'] && !spaced && !isBlank c then
            if further.isEmpty then [' '] else further
          else further ++ last
        let line := cs.takeWhile fun d => !isBreak d
        let after := takeBreak (cs.dropWhile fun d => !isBreak d)
        let m := m.skip (1 + line.length)
        let m := if after.1.isEmpty then m else m.nextLine after.2.1
        match _h : blockGap indent 0 [] m after.2.2 with
        | .error e => .error e
        | .ok g =>
            blockLines style chomp indent (line.reverse ++ c :: (start ++ text)) after.1 g.breaks
              (isBlank c) g.mark g.rest
termination_by cs => cs.length
decreasing_by
  have h1 := blockGap_length_le _h
  have h2 : after.2.2.length ≤ _ := takeBreak_length_le (cs.dropWhile fun d => !isBreak d)
  have h3 := (List.dropWhile_suffix (l := cs) fun d => !isBreak d).length_le
  simp only [List.length_cons]
  omega
where
  /-- The text with the line breaks at its end that the header asks for. -/
  finish (text last further : List Char) (m : Mark) (rest : List Char) : Except Fault Scan :=
    let ended := match chomp with
      | .strip => text
      | .clip => last ++ text
      | .keep => further ++ last ++ text
    .ok ⟨ended.reverse, rest, m, true⟩

/-- A block scalar from behind its indicator on. `margin` is the least column of what stands inside
the block around it. -/
def blockScalar (style : Style) (margin : Nat) (m : Mark) (cs : List Char) : Except Fault Scan := do
  let header := blockHeader cs
  if header.indent = some 0 then throw .badBlockHeader
  let cs := cs.drop header.length
  let blanks := (cs.takeWhile isBlank).length
  let cs := cs.drop blanks
  let comment := if cs.head? = some '#' then (cs.takeWhile fun c => !isBreak c).length else 0
  let cs := cs.drop comment
  let m := m.skip (header.length + blanks + comment)
  let (lineBreak, n, cs) := takeBreak cs
  if lineBreak.isEmpty && !cs.isEmpty then throw .badBlockHeader
  let m := if lineBreak.isEmpty then m else m.nextLine n
  let given := match header.indent with
    | some n => margin - 1 + n
    | none => 0
  let gap ← blockGap given 0 [] m cs
  let indent := if given = 0 then max (max gap.deepest margin) 1 else given
  blockLines style header.chomp indent [] [] gap.breaks false gap.mark gap.rest

end Antipattern.Yaml
