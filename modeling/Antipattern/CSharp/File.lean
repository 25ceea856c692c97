import Antipattern.CSharp.Declaration
import Antipattern.CSharp.Layout
import Antipattern.Syntax.Tree

/-!
Source files: the syntax tree of a C# text with its pragmas and the namespaces it imports.
`ConcreteFile.syntaxTree` builds it from any concrete tree over the text.
-/

namespace Antipattern.CSharp

/-- Endings of the names of generated files, in lower case. -/
def generatedEndings : List String :=
  [".designer.cs", ".generated.cs", ".g.cs", ".g.i.cs"]

def isGeneratedPath (path : String) : Bool :=
  generatedEndings.any fun e => Text.endsWith e.toList (path.toList.map Char.toLower)

def generatedMarkers : List String :=
  ["<auto-generated", "<autogenerated"]

/-- Whether a comment before the first token says that the file is generated. -/
def hasGeneratedHeader (root : SyntaxNode) : Bool :=
  match root.firstToken? with
  | some t =>
      (t.leading.filter fun t => t.kind.isComment).any fun t =>
        generatedMarkers.any fun m => Text.occurs m.toList t.text.toList
  | none => false

/-- Whether an attribute of the node marks generated code. -/
def hasGeneratedAttribute (n : SyntaxNode) : Bool :=
  (n.attributes.filterMap SyntaxNode.identifier?).any fun name =>
    let last := String.ofList (Text.afterLast '.' name.toList)
    last == "GeneratedCode" || last == "GeneratedCodeAttribute"

/-- Marks a declaration whose attributes say that it is generated. -/
def markGenerated (n : SyntaxNode) : SyntaxNode :=
  if (n.kind.isTypeDeclaration || n.kind.isMemberDeclaration) && hasGeneratedAttribute n then
    { n with generated := true }
  else n

/-- The trivia of the token that starts at a place, if it is the next in line. -/
def takeTrivia (start : Nat) : List TokenTrivia → (List Trivia × List Trivia) × List TokenTrivia
  | [] => (([], []), [])
  | t :: ts => if t.start = start then ((t.leading, t.trailing), ts) else (([], []), t :: ts)

mutual
/-- The syntax node of a concrete one, unless it is dropped or an empty token; the trivia of the
tokens is handed out in order. -/
def Concrete.convert (drop : Span → Bool) :
    Concrete → List TokenTrivia → Option SyntaxNode × List TokenTrivia
  | token text span, trivia =>
      if drop span || span.endByte ≤ span.startByte then (none, trivia)
      else
        let ((leading, trailing), trivia) := takeTrivia span.startByte trivia
        (some { kind := .token, span, name := some text, leading, trailing }, trivia)
  | node kind name span children, trivia =>
      if drop span then (none, trivia)
      else
        let (children, trivia) := Concrete.convertAll drop children trivia
        (some (markGenerated { kind, span, name, children }), trivia)
  | usingDirective _ span children, trivia =>
      if drop span then (none, trivia)
      else
        let (children, trivia) := Concrete.convertAll drop children trivia
        (some { kind := .other, span, children }, trivia)

def Concrete.convertAll (drop : Span → Bool) :
    List Concrete → List TokenTrivia → List SyntaxNode × List TokenTrivia
  | [], trivia => ([], trivia)
  | c :: cs, trivia =>
      let (n, trivia) := c.convert drop trivia
      let (ns, trivia) := Concrete.convertAll drop cs trivia
      (n.toList ++ ns, trivia)
end

def dropSemicolons (cs : List Char) : List Char :=
  (cs.reverse.dropWhile (· = ';')).reverse

/-- The namespace that a using directive imports. An alias and `using static` import none. -/
def importedNamespace? (directive : List Char) : Option String := do
  let rest := Text.trim (dropSemicolons (Text.trim directive))
  let rest := ((Text.after? "global".toList rest).map Text.trimStart).getD rest
  let rest := Text.trimStart (← Text.after? "using".toList rest)
  if (Text.after? "static ".toList rest).isSome || rest.contains '=' then none
  else
    let name := Text.removeBlanks rest
    if name.isEmpty then none else some (String.ofList name)

def importedNamespaces (root : Concrete) : List String :=
  (root.usingTexts.filterMap fun t => importedNamespace? t.toList).foldl
    (fun found name => if found.contains name then found else found ++ [name]) []

/-- The syntax tree of a text from its concrete tree. Conditional compilation drops what lies on
directive lines or in disabled text. -/
def ConcreteFile.syntaxTree (file : ConcreteFile) (path : String) (source : List Char) :
    SyntaxTree :=
  let cuts := cutRanges source
  let covered := coveredRanges cuts
  let drop (span : Span) : Bool := covers covered span.startByte span.endByte
  let layout := Layout.ofPieces source (Piece.ofFile file drop cuts)
  let node := (file.root.convert drop layout.tokens).1.getD
    { kind := .compilationUnit, span := file.root.span }
  let node := { node with trailing := layout.endOfFile }
  { path, root := node, generated := isGeneratedPath path || hasGeneratedHeader node
    pragmas := layout.pragmas }

/-- Parses a source file. -/
def parseFile (path source : String) : ParsedFile :=
  let file := ConcreteFile.read source.toList
  { tree := file.syntaxTree path source.toList
    usings := importedNamespaces file.root }

end Antipattern.CSharp
