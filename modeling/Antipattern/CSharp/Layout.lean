import Antipattern.CSharp.Concrete
import Antipattern.CSharp.Conditional
import Antipattern.Syntax.Pragma

/-!
Trivia between tokens. Tokens, comments, directives and disabled text are the pieces of a file; what
lies between two pieces is a gap of blanks and line breaks. A token takes what follows it up to and
with the first line break, and the rest stands before the next token.
-/

namespace Antipattern.CSharp

/-- The line break at the start of a text, and the text behind it. -/
def takeLineBreak : List Char → List Char × List Char
  | '\r' :: '\n' :: cs => (['\r', '\n'], cs)
  | '\n' :: cs => (['\n'], cs)
  | '\r' :: cs => (['\r'], cs)
  | cs => ([], cs)

/-- Puts a blank before runs of blanks and line breaks. -/
def consBlank (c : Char) : List (TriviaKind × List Char) → List (TriviaKind × List Char)
  | (.whitespace, run) :: rest => (.whitespace, c :: run) :: rest
  | runs => (.whitespace, [c]) :: runs

/-- Cuts a gap into single line breaks and runs of other characters. -/
def gapRuns : List Char → List (TriviaKind × List Char)
  | [] => []
  | '\r' :: '\n' :: cs => (.endOfLine, ['\r', '\n']) :: gapRuns cs
  | c :: cs =>
      if c = '\n' || c = '\r' then (.endOfLine, [c]) :: gapRuns cs
      else consBlank c (gapRuns cs)

def gapTrivia (gap : List Char) : List Trivia :=
  (gapRuns gap).map fun (kind, text) => ⟨kind, String.ofList text⟩

inductive Content where
  | token
  | trivia (line : Nat) (kind : TriviaKind)
deriving DecidableEq, Inhabited

structure Piece where
  start : Nat
  stop : Nat
  content : Content
deriving DecidableEq, Inhabited

namespace Piece

def ofSpan (span : Span) : Piece :=
  ⟨span.startByte, span.endByte, .token⟩

def ofIsland (i : Island) : Piece :=
  ⟨i.span.startByte, i.span.endByte, .trivia i.span.startLine i.kind⟩

def ofCut (r : CutRange) : Piece :=
  ⟨r.start, r.stop, .trivia r.line r.kind⟩

/-- The pieces of a file in source order, without what is dropped. Of two that start at the same
place, one of the concrete tree comes before a conditional range. -/
def ofFile (file : ConcreteFile) (drop : Span → Bool) (cuts : List CutRange) : List Piece :=
  let tokens := file.root.tokenSpans drop
  let islands := file.islands.filter fun i => !drop i.span
  (tokens.map ofSpan ++ islands.map ofIsland ++ cuts.map ofCut).mergeSort
    fun p q => p.start ≤ q.start

theorem start_le_trans (a b c : Piece) (first : decide (a.start ≤ b.start) = true)
    (second : decide (b.start ≤ c.start) = true) : decide (a.start ≤ c.start) = true := by
  rw [decide_eq_true_iff] at first second ⊢
  exact Nat.le_trans first second

theorem start_le_total (a b : Piece) :
    (decide (a.start ≤ b.start) || decide (b.start ≤ a.start)) = true := by
  rw [Bool.or_eq_true, decide_eq_true_iff, decide_eq_true_iff]
  exact Nat.le_total a.start b.start

end Piece

/-- A piece that counts, with its text, or a run in the gap between two. -/
inductive Strand where
  | token (start : Nat)
  | gap (trivia : Trivia)
  | island (line : Nat) (trivia : Trivia)
deriving DecidableEq, Inhabited

/-- A documentation comment and a directive own the line break that ends them. -/
def ownsLineBreak (kind : TriviaKind) (text : List Char) : Bool :=
  (kind == .documentationComment || kind == .directive) && text.getLast? != some '\n'

/-- The strands of a text from byte `pos` on. A piece that starts before it is passed over. -/
def strands (pos : Nat) (source : List Char) : List Piece → List Strand
  | [] => (gapTrivia source).map .gap
  | p :: ps =>
      if p.start < pos then strands pos source ps
      else
        let (gap, here) := Text.splitBytes (p.start - pos) source
        let (text, behind) := Text.splitBytes (p.stop - p.start) here
        let found := match p.content with
          | .token => .token p.start :: strands p.stop behind ps
          | .trivia line kind =>
              let (lineBreak, behind) :=
                if ownsLineBreak kind text then takeLineBreak behind else ([], behind)
              .island line ⟨kind, String.ofList (text ++ lineBreak)⟩ ::
                strands (p.stop + Text.byteLength lineBreak) behind ps
        (gapTrivia gap).map .gap ++ found

namespace Strand

def pragma? : Strand → Option Pragma
  | island line t => if t.kind = .directive then Pragma.parse? line t.text.toList else none
  | _ => none

/-- The trivia before the first token, and each token with the trivia up to the next. -/
def segments : List Strand → List Trivia × List (Nat × List Trivia)
  | [] => ([], [])
  | s :: ss =>
      let (before, tokens) := segments ss
      match s with
      | token start => ([], (start, before) :: tokens)
      | gap t | island _ t => (t :: before, tokens)

end Strand

structure TokenTrivia where
  start : Nat
  leading : List Trivia
  trailing : List Trivia
deriving DecidableEq, Inhabited

/-- The share of the token before some trivia, and the rest. -/
def splitTrailing : List Trivia → List Trivia × List Trivia
  | [] => ([], [])
  | t :: ts =>
      if t.kind.startsLeading then ([], t :: ts)
      else if t.isEndOfLine then ([t], ts)
      else
        let (trailing, rest) := splitTrailing ts
        (t :: trailing, rest)

/-- Shares out the trivia of all tokens; what is left stands at the end of the file. -/
def shareOut (leading : List Trivia) :
    List (Nat × List Trivia) → List TokenTrivia × List Trivia
  | [] => ([], leading)
  | (start, behind) :: rest =>
      let (trailing, next) := splitTrailing behind
      let (tokens, left) := shareOut next rest
      (⟨start, leading, trailing⟩ :: tokens, left)

/-- Where the trivia of a file goes. -/
structure Layout where
  tokens : List TokenTrivia
  endOfFile : List Trivia
  pragmas : List Pragma
deriving DecidableEq, Inhabited

def Layout.ofPieces (source : List Char) (pieces : List Piece) : Layout :=
  let ss := strands 0 source pieces
  let (before, behind) := Strand.segments ss
  let (tokens, endOfFile) := shareOut before behind
  { tokens, endOfFile, pragmas := ss.filterMap Strand.pragma? }

end Antipattern.CSharp
