import Antipattern.CSharp.Lexeme
import Antipattern.Syntax.Node

/-!
The concrete tree of a file: declarations with their parts, and tokens for all else. Comments and
line directives stand beside it as islands in source order.
-/

namespace Antipattern.CSharp

inductive Concrete where
  | token (text : String) (span : Span)
  | node (kind : NodeKind) (name : Option String) (span : Span) (children : List Concrete)
  /-- A using directive keeps its text. -/
  | usingDirective (text : String) (span : Span) (children : List Concrete)
deriving Inhabited

structure ConcreteFile where
  root : Concrete
  islands : List Island
deriving Inhabited

namespace Concrete

def span : Concrete → Span
  | token _ span => span
  | node _ _ span _ => span
  | usingDirective _ span _ => span

def ofToken (t : Token) : Concrete :=
  .token (String.ofList t.text) t.span

mutual
/-- Texts of the using directives, wherever they stand. -/
def usingTexts : Concrete → List String
  | token _ _ => []
  | node _ _ _ children => forestUsingTexts children
  | usingDirective text _ children => text :: forestUsingTexts children

def forestUsingTexts : List Concrete → List String
  | [] => []
  | c :: cs => c.usingTexts ++ forestUsingTexts cs
end

mutual
/-- Places of the tokens, in document order, without empty ones and without what is dropped. -/
def tokenSpans (drop : Span → Bool) : Concrete → List Span
  | token _ span =>
      if drop span then [] else if span.startByte < span.endByte then [span] else []
  | node _ _ span children | usingDirective _ span children =>
      if drop span then [] else forestTokenSpans drop children

def forestTokenSpans (drop : Span → Bool) : List Concrete → List Span
  | [] => []
  | c :: cs => c.tokenSpans drop ++ forestTokenSpans drop cs
end

end Concrete
end Antipattern.CSharp
