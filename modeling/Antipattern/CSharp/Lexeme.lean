import Antipattern.CSharp.Conditional
import Antipattern.Syntax.Span

/-!
Lexemes of C#. A scan cuts the text into tokens, comments and directives; what lies between them is
blank. A string is one token, whatever it holds, and so is an interpolated string with the
expressions in it. Lengths are counted in characters.
-/

namespace Antipattern.CSharp

/-- Characters between lexemes: blanks and the byte order mark. -/
def isSpacing (c : Char) : Bool :=
  Text.isBlank c || c.toNat == 0xFEFF

def isWordStart (c : Char) : Bool :=
  c.isAlpha || c == '_' || c == '\\' || (128 ≤ c.toNat && !isSpacing c)

def isWordPart (c : Char) : Bool :=
  isWordStart c || c.isDigit

def lineLength (cs : List Char) : Nat :=
  (cs.takeWhile fun c => c ≠ '\n' && c ≠ '\r').length

/-- Up to and with the end of a block comment. -/
def blockCommentLength : List Char → Nat
  | '*' :: '/' :: _ => 2
  | _ :: cs => 1 + blockCommentLength cs
  | [] => 0

/-- The rest of a string or character literal, with the quote that ends it. -/
def escapedLength (quote : Char) : List Char → Nat
  | [] => 0
  | '\\' :: _ :: cs => 2 + escapedLength quote cs
  | c :: cs => if c = quote then 1 else 1 + escapedLength quote cs

/-- The rest of a verbatim string, in which a quote is written twice. -/
def verbatimLength : List Char → Nat
  | [] => 0
  | '"' :: '"' :: cs => 2 + verbatimLength cs
  | '"' :: _ => 1
  | _ :: cs => 1 + verbatimLength cs

def quoteRun (cs : List Char) : Nat :=
  (cs.takeWhile (· = '"')).length

/-- The rest of a raw string, with the run of `quotes` quotes that ends it. -/
def rawLength (quotes : Nat) : List Char → Nat
  | [] => 0
  | c :: cs => if quotes ≤ quoteRun (c :: cs) then quotes else 1 + rawLength quotes cs

/-- The `u8` mark behind a string. -/
def suffixLength : List Char → Nat
  | c :: '8' :: _ => if c = 'u' || c = 'U' then 2 else 0
  | _ => 0

/-- A string without interpolation, from its first quote or `@`. -/
def stringLength (cs : List Char) : Nat :=
  let body := match cs with
    | '@' :: '"' :: rest => 2 + verbatimLength rest
    | _ =>
        let quotes := quoteRun cs
        if 3 ≤ quotes then quotes + rawLength quotes (cs.drop quotes)
        else 1 + escapedLength '"' (cs.drop 1)
  body + suffixLength (cs.drop body)

def wordLength (cs : List Char) : Nat :=
  (cs.takeWhile isWordPart).length

/-- The digits, point, exponent and suffix of a number. -/
def numberLength : List Char → Nat
  | e :: s :: d :: cs =>
      if (e = 'e' || e = 'E') && (s = '+' || s = '-') && d.isDigit then 3 + numberLength cs
      else if e = '.' && s.isDigit then 2 + numberLength (d :: cs)
      else if e.isAlphanum || e = '_' then 1 + numberLength (s :: d :: cs)
      else 0
  | [c, d] =>
      if c = '.' && d.isDigit then 2
      else if c.isAlphanum || c = '_' then 1 + numberLength [d]
      else 0
  | [c] => if c.isAlphanum || c = '_' then 1 else 0
  | [] => 0

/-- A hexadecimal number has no exponent, so a sign behind its `e` is an operator. -/
def literalLength (cs : List Char) : Nat :=
  match cs with
  | '0' :: 'x' :: _ | '0' :: 'X' :: _ => (cs.takeWhile fun c => c.isAlphanum || c = '_').length
  | _ => numberLength cs

/-- How an interpolated string is written: with escapes, verbatim, or raw between quotes and with
as many braces to an expression as it has dollars. -/
inductive Interpolated where
  | escaped
  | verbatim
  | raw (dollars quotes : Nat)
deriving DecidableEq, Inhabited

/-- Where the scan of an interpolated string stands. -/
inductive Frame where
  | text (style : Interpolated)
  | hole (style : Interpolated) (depth : Nat)
  | format (style : Interpolated)
deriving DecidableEq, Inhabited

def Interpolated.braces : Interpolated → Nat
  | raw dollars _ => dollars
  | _ => 1

/-- The opening of an interpolated string, with its length. -/
def interpolatedStart? (cs : List Char) : Option (Interpolated × Nat) :=
  match cs with
  | '@' :: '$' :: '"' :: _ => some (.verbatim, 3)
  | '$' :: '@' :: '"' :: _ => some (.verbatim, 3)
  | _ =>
      let dollars := (cs.takeWhile (· = '$')).length
      let quotes := quoteRun (cs.drop dollars)
      if dollars = 0 || quotes = 0 then none
      else if 3 ≤ quotes then some (.raw dollars quotes, dollars + quotes)
      else if dollars = 1 then some (.escaped, 2)
      else none

def braceRun (brace : Char) (cs : List Char) : Nat :=
  (cs.takeWhile (· = brace)).length

/-- One step of the scan: how many characters it passes over, and the frames behind them. At least
one character is passed over, so the first component counts those beyond it. -/
def interpolatedStep (frames : List Frame) (c : Char) (cs : List Char) : Nat × List Frame :=
  match frames with
  | [] => (0, [])
  | .text style :: outer =>
      match style with
      | .escaped =>
          if c = '\\' then (1, frames)
          else if c = '"' then (0, outer)
          else if c = '\x7b' then
            if cs.head? = some '\x7b' then (1, frames) else (0, .hole style 0 :: frames)
          else (0, frames)
      | .verbatim =>
          if c = '"' then
            if cs.head? = some '"' then (1, frames) else (0, outer)
          else if c = '\x7b' then
            if cs.head? = some '\x7b' then (1, frames) else (0, .hole style 0 :: frames)
          else (0, frames)
      | .raw dollars quotes =>
          if quotes ≤ quoteRun (c :: cs) then (quotes - 1, outer)
          else if c = '\x7b' then
            let run := braceRun '\x7b' (c :: cs)
            if dollars ≤ run then (run - 1, .hole style 0 :: frames) else (run - 1, frames)
          else (0, frames)
  | .format style :: outer =>
      if c = '\x7d' then (style.braces - 1, outer) else (0, frames)
  | .hole style depth :: outer =>
      match interpolatedStart? (c :: cs) with
      | some (inner, length) => (length - 1, .text inner :: frames)
      | none =>
          if c = '"' || (c = '@' && cs.head? = some '"') then (stringLength (c :: cs) - 1, frames)
          else if c = '\'' then (escapedLength '\'' cs, frames)
          else if c = '/' && cs.head? = some '*' then (1 + blockCommentLength (cs.drop 1), frames)
          else if c = '(' || c = '[' || c = '\x7b' then (0, .hole style (depth + 1) :: outer)
          else if c = ')' || c = ']' then (0, .hole style (depth - 1) :: outer)
          else if c = '\x7d' then
            if depth = 0 then (style.braces - 1, outer) else (0, .hole style (depth - 1) :: outer)
          else if c = ':' && depth = 0 then
            if cs.head? = some ':' then (1, frames) else (0, .format style :: outer)
          else (0, frames)

/-- Characters until the scan has left all frames. -/
def interpolatedLength (frames : List Frame) : List Char → Nat
  | [] => 0
  | c :: cs =>
      if frames.isEmpty then 0
      else
        let (beyond, frames) := interpolatedStep frames c cs
        1 + beyond + interpolatedLength frames (cs.drop beyond)
termination_by cs => cs.length
decreasing_by simp only [List.length_drop, List.length_cons]; omega

inductive LexemeKind where
  /-- An identifier or a keyword. -/
  | word
  | literal
  | operator
  /-- `#if`, `#elif`, `#else` or `#endif` without the rest of its line. -/
  | conditional
  | comment
  /-- A directive that takes up its line. -/
  | directive
deriving DecidableEq, Inhabited

/-- Operators of more than one character. A run of closing angle brackets is cut into single ones:
whether it is a shift is not seen here. -/
def operators : List (List Char) :=
  ["<<=", "??=", "::", "=>", "->", "++", "--", "&&", "||", "??", "==", "!=", "<=", ">=", "+=",
    "-=", "*=", "/=", "%=", "&=", "|=", "^=", "<<", ".."].map String.toList

def operatorLength (cs : List Char) : Nat :=
  match operators.find? fun o => o.isPrefixOf cs with
  | some o => o.length
  | none => 1

/-- The word of a directive, with the length up to its end. -/
def directiveWord (cs : List Char) : String × Nat :=
  let blanks := ((cs.drop 1).takeWhile fun c => c = ' ' || c = '\t').length
  let word := (cs.drop (1 + blanks)).takeWhile Char.isAlpha
  (String.ofList word, 1 + blanks + word.length)

/-- A directive's line with its line break and all line feeds that follow without a gap. -/
def directiveLength (cs : List Char) : Nat :=
  let line := (cs.takeWhile (· ≠ '\n')).length
  line + ((cs.drop line).takeWhile (· = '\n')).length

/-- The lexeme at the start of a text that starts with no blank: its kind and length. -/
def lexemeAt (cs : List Char) : LexemeKind × Nat :=
  match cs with
  | [] => (.operator, 0)
  | c :: rest =>
      match interpolatedStart? cs with
      | some (style, length) =>
          (.literal, length + interpolatedLength [.text style] (cs.drop length))
      | none =>
          if c = '/' && rest.head? = some '/' then (.comment, lineLength cs)
          else if c = '/' && rest.head? = some '*' then
            (.comment, 2 + blockCommentLength (rest.drop 1))
          else if c = '#' then
            let (word, length) := directiveWord cs
            if (Conditional.ofWord? word).isSome then (.conditional, length)
            else if rest.head? = some '!' then (.literal, lineLength cs)
            else (.directive, directiveLength cs)
          else if c = '"' || (c = '@' && rest.head? = some '"') then (.literal, stringLength cs)
          else if c = '\'' then (.literal, 1 + escapedLength '\'' rest)
          else if c.isDigit || (c = '.' && (rest.head?.map Char.isDigit).getD false) then
            (.literal, literalLength cs)
          else if c = '@' then (.word, 1 + wordLength rest)
          else if isWordStart c then (.word, wordLength cs)
          else (.operator, operatorLength cs)

/-- A place in the text. -/
structure Place where
  byte : Nat := 0
  line : Nat := 1
  column : Nat := 1
deriving DecidableEq, Inhabited

def Place.step (p : Place) (c : Char) : Place :=
  if c = '\n' then ⟨p.byte + c.utf8Size, p.line + 1, 1⟩
  else ⟨p.byte + c.utf8Size, p.line, p.column + c.utf8Size⟩

def Place.over (p : Place) (cs : List Char) : Place :=
  cs.foldl Place.step p

def Place.through (start stop : Place) : Span where
  startByte := start.byte
  endByte := stop.byte
  startLine := start.line
  startColumn := start.column
  endLine := stop.line
  endColumn := stop.column

/-- A lexeme with the blanks before it. -/
structure Lexeme where
  kind : LexemeKind
  blanks : List Char
  text : List Char
  span : Span
deriving Inhabited

/-- The lexemes of a text in order, from the place at which it starts; `blanks` are those just
passed, the last first. -/
def lexemesFrom (p : Place) (blanks : List Char) : List Char → List Lexeme
  | [] => []
  | c :: cs =>
      if isSpacing c then lexemesFrom (p.step c) (c :: blanks) cs
      else
        let (kind, length) := lexemeAt (c :: cs)
        let text := c :: cs.take (length - 1)
        let stop := p.over text
        ⟨kind, blanks.reverse, text, p.through stop⟩ ::
          lexemesFrom stop [] (cs.drop (length - 1))
termination_by cs => cs.length
decreasing_by
  · simp
  · simp only [List.length_drop, List.length_cons]; omega

def lexemes (source : List Char) : List Lexeme :=
  lexemesFrom {} [] source

/-- Comments and line directives: text that is kept but is no code. -/
structure Island where
  span : Span
  kind : TriviaKind
deriving DecidableEq, Inhabited

/-- A comment that starts with exactly three slashes documents what follows it. -/
def commentKind : List Char → TriviaKind
  | '/' :: '/' :: '/' :: '/' :: _ => .singleLineComment
  | '/' :: '/' :: '/' :: _ => .documentationComment
  | '/' :: '*' :: _ => .multiLineComment
  | _ => .singleLineComment

def Lexeme.island? (l : Lexeme) : Option Island :=
  match l.kind with
  | .comment => some ⟨l.span, commentKind l.text⟩
  | .directive => some ⟨l.span, .directive⟩
  | _ => none

/-- A token with all text between the token before it and itself. -/
structure Token where
  kind : LexemeKind
  gap : List Char
  text : List Char
  span : Span
deriving Inhabited

namespace Token

def is (t : Token) (s : String) : Bool :=
  t.text == s.toList

def isWord (t : Token) : Bool :=
  t.kind == .word

/-- What a conditional directive does. -/
def conditional? (t : Token) : Option Conditional :=
  if t.kind = .conditional then Conditional.ofLine? t.text else none

/-- Whether nothing stands between the two tokens. -/
def touches (t next : Token) : Bool :=
  t.span.endByte == next.span.startByte

/-- The tokens among lexemes; `gap` is the text since the last token. -/
def ofLexemes (gap : List Char) : List Lexeme → List Token
  | [] => []
  | l :: ls =>
      let gap := gap ++ l.blanks
      match l.kind with
      | .comment | .directive => ofLexemes (gap ++ l.text) ls
      | _ => ⟨l.kind, gap, l.text, l.span⟩ :: ofLexemes [] ls

/-- The source text from the first of the tokens to the last. -/
def sourceText : List Token → List Char
  | [] => []
  | t :: ts => t.text ++ ts.flatMap fun u => u.gap ++ u.text

end Token
end Antipattern.CSharp
