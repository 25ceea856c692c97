import Antipattern.CSharp.Lexeme

/-!
Tokens nested by their brackets. The blocks of conditional compilation nest too: `#if` opens one and
`#endif` closes it. A bracket without a partner stays where it is as a single token.
-/

namespace Antipattern.CSharp

inductive TokenTree where
  | leaf (token : Token)
  | group (opener : Token) (body : List TokenTree) (closer : Token)
deriving Inhabited

inductive Bracket where
  | round
  | square
  | brace
  /-- From `#if` to `#endif`. -/
  | block
  /-- Around type parameters and type arguments. -/
  | angle
deriving DecidableEq, Inhabited

namespace Bracket

/-- The bracket that a token opens, if it opens one. -/
def ofOpener? (t : Token) : Option Bracket :=
  match t.kind with
  | .operator =>
      if t.is "(" then some round
      else if t.is "[" then some square
      else if t.is "\x7b" then some brace
      else if t.is "<" then some angle
      else none
  | .conditional => if t.conditional? = some .opens then some block else none
  | _ => none

/-- Brackets that are matched by their shape alone. -/
def opens? (t : Token) : Option Bracket :=
  (ofOpener? t).filter (· ≠ angle)

def closes? (t : Token) : Option Bracket :=
  match t.kind with
  | .operator =>
      if t.is ")" then some round
      else if t.is "]" then some square
      else if t.is "\x7d" then some brace
      else none
  | .conditional => if t.conditional? = some .closes then some block else none
  | _ => none

end Bracket

namespace TokenTree

def first : TokenTree → Token
  | leaf t => t
  | group opener _ _ => opener

def last : TokenTree → Token
  | leaf t => t
  | group _ _ closer => closer

mutual
/-- The tokens of the tree in order. -/
def tokens : TokenTree → List Token
  | leaf t => [t]
  | group opener body closer => opener :: (forestTokens body ++ [closer])

def forestTokens : List TokenTree → List Token
  | [] => []
  | t :: ts => t.tokens ++ forestTokens ts
end

mutual
/-- How deep brackets nest in the tree. -/
def depth : TokenTree → Nat
  | leaf _ => 0
  | group _ body _ => 1 + forestDepth body

def forestDepth : List TokenTree → Nat
  | [] => 0
  | t :: ts => max t.depth (forestDepth ts)
end

def isLeaf (s : String) : TokenTree → Bool
  | leaf t => t.is s
  | group .. => false

def isWord : TokenTree → Bool
  | leaf t => t.isWord
  | group .. => false

def isConditional : TokenTree → Bool
  | leaf t => t.kind == .conditional
  | group .. => false

def isGroup (b : Bracket) : TokenTree → Bool
  | leaf _ => false
  | group opener _ _ => Bracket.ofOpener? opener == some b

/-- The source text from the first of the trees to the last. -/
def sourceText (ts : List TokenTree) : String :=
  String.ofList (Token.sourceText (forestTokens ts))

/-- From the start of the first tree to the end of the last. -/
def spanOf (ts : List TokenTree) : Span :=
  match ts.head?, ts.getLast? with
  | some t, some u => t.first.span.through u.last.span
  | _, _ => {}

/-- Brackets that are still open, the innermost first, each with what followed it so far in
reverse. -/
abbrev Opened := List (Token × List TokenTree)

/-- Puts a finished tree into the innermost open bracket, or to those at the top. -/
def put (t : TokenTree) : Opened → List TokenTree → Opened × List TokenTree
  | [], top => ([], t :: top)
  | (opener, body) :: outer, top => ((opener, t :: body) :: outer, top)

def step (state : Opened × List TokenTree) (t : Token) : Opened × List TokenTree :=
  match Bracket.opens? t with
  | some _ => ((t, []) :: state.1, state.2)
  | none =>
      match Bracket.closes? t, state.1 with
      | some b, (opener, body) :: outer =>
          if Bracket.opens? opener = some b then put (group opener body.reverse t) outer state.2
          else put (leaf t) state.1 state.2
      | _, _ => put (leaf t) state.1 state.2

/-- Gives up brackets that nothing closes. -/
def release : Opened → List TokenTree → List TokenTree
  | [], top => top.reverse
  | (opener, body) :: outer, top => release outer top ++ leaf opener :: body.reverse

def ofTokens (ts : List Token) : List TokenTree :=
  let (opened, top) := ts.foldl step ([], [])
  release opened top

end TokenTree
end Antipattern.CSharp
