import Antipattern.CSharp.Part

/-!
Declarations of a text that is known to be well formed. Siblings are cut into items, and each item
is read by itself: a namespace, a type, a method, a constructor, a using directive, or something of
no interest, of which only the tokens are kept.
-/

namespace Antipattern.CSharp.Concrete

open TokenTree

/-- Where an item stands: directly in a file or namespace, or in the body of a type. Functions are
members only in a type. -/
inductive Surrounding where
  | outer
  | body
deriving DecidableEq, Inhabited

/-- An item runs up to a semicolon or a block of braces, unless the braces belong to a value. -/
def cutItem (inValue : Bool) : List TokenTree → List TokenTree × List TokenTree
  | [] => ([], [])
  | t :: ts =>
      let hasValue := (ts.head?.map (isLeaf "=")).getD false
      if t.isLeaf ";" || (t.isGroup .brace && !inValue && !hasValue) then ([t], ts)
      else
        let (item, rest) := cutItem (inValue || t.isLeaf "=" || t.isLeaf "=>") ts
        (t :: item, rest)

theorem cutItem_length (inValue : Bool) (ts : List TokenTree) :
    (cutItem inValue ts).2.length ≤ ts.length := by
  induction ts generalizing inValue with
  | nil => simp [cutItem]
  | cons t ts ih =>
      simp only [cutItem]
      split
      · exact Nat.le_succ _
      · exact Nat.le_succ_of_le (ih _)

/-- A branch of a conditional block: its directive line and what follows. -/
structure Branch where
  directive : List TokenTree
  items : List TokenTree
deriving Inhabited

/-- The trees up to the next directive of the block. -/
def branchesOf (current : List TokenTree) : List TokenTree → List (List TokenTree)
  | [] => [current.reverse]
  | t :: ts =>
      if t.isConditional then current.reverse :: branchesOf [t] ts
      else branchesOf (t :: current) ts

/-- Splits off the rest of the line that the first tree is on. -/
def branch (ts : List TokenTree) : Branch :=
  match ts with
  | [] => ⟨[], []⟩
  | t :: _ =>
      let line := t.last.span.endLine
      ⟨ts.takeWhile fun u => u.first.span.startLine == line,
        ts.dropWhile fun u => u.first.span.startLine == line⟩

/-- The branches of a conditional block. -/
def branches (opener : Token) (body : List TokenTree) : List Branch :=
  (branchesOf [.leaf opener] body).map branch

/-- A conditional block around attribute lists belongs to the declaration behind it. -/
def choosesAttributes : TokenTree → Bool
  | .group opener body closer =>
      isGroup .block (.group opener body closer) &&
        (branches opener body).any (fun b => !b.items.isEmpty) &&
        (branches opener body).all fun b => b.items.all (isGroup .square)
  | .leaf _ => false

/-- An attribute list that applies to the whole program. -/
def isGlobalAttributeList : TokenTree → Bool
  | .group opener (word :: colon :: rest) closer =>
      isGroup .square (.group opener (word :: colon :: rest) closer) &&
        (word.isLeaf "assembly" || word.isLeaf "module") && colon.isLeaf ":"
  | _ => false

def isShebang : TokenTree → Bool
  | .leaf t => "#!".toList.isPrefixOf t.text
  | .group .. => false

/-- Trees that are an item by themselves. -/
def standsAlone (t : TokenTree) : Bool :=
  (t.isGroup .block && !choosesAttributes t) || isGlobalAttributeList t || isShebang t

def isAttributes (t : TokenTree) : Bool :=
  t.isGroup .square || choosesAttributes t

def modifiers : List String :=
  ["abstract", "const", "extern", "fixed", "internal", "new", "override", "private", "protected",
    "public", "readonly", "sealed", "static", "unsafe", "virtual", "volatile"]

/-- Words that are modifiers only before a type or another modifier. -/
def contextualModifiers : List String :=
  ["async", "file", "partial", "required"]

/-- Whether a type starts here: a word, or a tuple that a word follows. -/
def startsType : List TokenTree → Bool
  | t :: ts => t.isWord || (t.isGroup .round && (ts.head?.map isWord).getD false)
  | [] => false

def startsStruct : List TokenTree → Bool
  | t :: ts =>
      t.isLeaf "struct" || (t.isLeaf "partial" && (ts.head?.map (isLeaf "struct")).getD false)
  | [] => false

/-- Number of modifiers at the start. -/
def modifierCount : List TokenTree → Nat
  | [] => 0
  | t :: ts =>
      if modifiers.any (fun m => t.isLeaf m) ||
          (contextualModifiers.any (fun m => t.isLeaf m) && startsType ts) ||
          (t.isLeaf "ref" && startsStruct ts) then
        1 + modifierCount ts
      else 0

/-- The kind of type that the words behind the modifiers declare, and how many words say so. -/
def typeKeyword? : List TokenTree → Option (NodeKind × Nat)
  | [] => none
  | t :: ts =>
      if t.isLeaf "class" then some (.classDeclaration, 1)
      else if t.isLeaf "struct" then some (.structDeclaration, 1)
      else if t.isLeaf "interface" then some (.interfaceDeclaration, 1)
      else if t.isLeaf "enum" then some (.enumDeclaration, 1)
      else if t.isLeaf "record" then
        match ts with
        | next :: _ =>
            if next.isLeaf "class" || next.isLeaf "struct" then some (.recordDeclaration, 2)
            else if next.isWord then some (.recordDeclaration, 1)
            else none
        | [] => none
      else none

/-- An item cut into the attributes and modifiers at its start and the rest. -/
structure Head where
  attributes : List TokenTree
  modifiers : List TokenTree
  rest : List TokenTree
deriving Inhabited

def head (item : List TokenTree) : Head :=
  let rest := item.dropWhile isAttributes
  ⟨item.takeWhile isAttributes, rest.take (modifierCount rest), rest.drop (modifierCount rest)⟩

def declaresNamespace (h : Head) : Bool :=
  (h.rest.head?.map (isLeaf "namespace")).getD false

/-- Whether a semicolon that touches the closing brace of the item belongs to it. -/
def takesSemicolon (item : List TokenTree) : Bool :=
  let h := head item
  (item.getLast?.map (isGroup .brace)).getD false &&
    (declaresNamespace h || (typeKeyword? h.rest).isSome)

/-- The first item among siblings, and the siblings behind it. -/
def nextItem (t : TokenTree) (ts : List TokenTree) : List TokenTree × List TokenTree :=
  if standsAlone t then ([t], ts)
  else
    match cutItem false (t :: ts) with
    | (item, .leaf next :: rest) =>
        if takesSemicolon item && next.is ";" &&
            (item.getLast?.map fun u => u.last.touches next).getD false then
          (item ++ [.leaf next], rest)
        else (item, .leaf next :: rest)
    | (item, rest) => (item, rest)

theorem cutItem_cons_length (t : TokenTree) (ts : List TokenTree) :
    (cutItem false (t :: ts)).2.length < (t :: ts).length := by
  simp only [cutItem]
  split
  · exact Nat.lt_succ_self _
  · exact Nat.lt_succ_of_le (cutItem_length _ ts)

theorem nextItem_length (t : TokenTree) (ts : List TokenTree) :
    (nextItem t ts).2.length < (t :: ts).length := by
  have h := cutItem_cons_length t ts
  simp only [nextItem]
  split
  · simp
  · split
    · rename_i heq
      rw [heq] at h
      simp only [List.length_cons] at h
      split <;> simp only [List.length_cons] <;> omega
    · rename_i heq
      rw [heq] at h
      exact h

def cutItems : List TokenTree → List (List TokenTree)
  | [] => []
  | t :: ts => (nextItem t ts).1 :: cutItems (nextItem t ts).2
termination_by ts => ts.length
decreasing_by exact nextItem_length t ts

/-- Attribute lists, also those that a conditional block chooses from. -/
def attributesOf (ts : List TokenTree) : List Concrete :=
  ts.map fun t => if t.isGroup .square then attributeList t else plain [t]

/-- A block of braces whose content is read as items. -/
def bodyOf (inside : List TokenTree → List Concrete) (t : TokenTree) : Concrete :=
  match t with
  | .group opener body closer =>
      across .other none [t] (ofToken opener :: (inside body ++ [ofToken closer]))
  | .leaf single => ofToken single

/-- The end of a declaration. A semicolon behind a body is no token. -/
def ending (inside : List TokenTree → List Concrete) (ts : List TokenTree) : List Concrete :=
  let before := ts.takeWhile fun t => !t.isGroup .brace
  match ts.dropWhile fun t => !t.isGroup .brace with
  | block :: _ => ofTrees before ++ [bodyOf inside block]
  | [] => ofTrees before

/-- What may stand behind the name of a declared type: its type parameters and its parameters. -/
def afterName (t : TokenTree) : List Concrete :=
  if t.isGroup .angle then [typeParameterList t]
  else if t.isGroup .round then [parameterList t]
  else ofTrees [t]

/-- The word that starts the constraints of type parameters, or the end of the declaration's
front. -/
def endsFront (t : TokenTree) : Bool :=
  t.isLeaf "where" || t.isLeaf ";" || t.isGroup .brace

def typeDeclaration (inside : List TokenTree → List Concrete) (kind : NodeKind) (words : Nat)
    (item : List TokenTree) : Concrete :=
  let h := head item
  let name := (h.rest.drop words).take 1
  let front := (h.rest.drop (words + 1)).takeWhile fun t => !endsFront t
  let back := (h.rest.drop (words + 1)).dropWhile fun t => !endsFront t
  across kind (some (sourceText name)) item
    (attributesOf h.attributes ++ ofTrees (h.modifiers ++ h.rest.take words ++ name) ++
      (front.takeWhile fun t => !t.isLeaf ":").flatMap afterName ++
      baseList (kind == .recordDeclaration) (front.dropWhile fun t => !t.isLeaf ":") ++
      ending (if kind = .enumDeclaration then ofTrees else inside) back)

def namespaceDeclaration (inside : List TokenTree → List Concrete) (item : List TokenTree) :
    Concrete :=
  let h := head item
  let front := (h.rest.drop 1).takeWhile fun t => !endsFront t
  let back := (h.rest.drop 1).dropWhile fun t => !endsFront t
  across .namespaceDeclaration (some (sourceText front)) item
    (attributesOf h.attributes ++ ofTrees (h.modifiers ++ h.rest.take 1) ++ [plain front] ++
      ending inside back)

/-- Words before which a tuple is a type and no parameter list. -/
def canName (t : TokenTree) : Bool :=
  t.isWord && !t.isLeaf "ref" && !t.isLeaf "readonly"

/-- Whether the trees, the last first, end with a type and a name that a parameter list may
follow. -/
def endsWithName : List TokenTree → Bool
  | name :: type :: before =>
      if name.isGroup .angle then canName type && !before.isEmpty else canName name
  | _ => false

/-- Where the parameter list of a method is, counted from the start of its type. `before` are the
trees already seen, the last first. -/
def parametersAt? (before : List TokenTree) : List TokenTree → Option Nat
  | [] => none
  | t :: ts =>
      if t.isLeaf "=" || t.isLeaf "=>" || t.isLeaf ";" || t.isLeaf "operator" ||
          t.isGroup .brace then none
      else if t.isGroup .round && endsWithName before then some before.length
      else parametersAt? (t :: before) ts

/-- A destructor, a delegate or an event, but not the type of a function pointer. -/
def isNoMethod : List TokenTree → Bool
  | t :: ts =>
      t.isLeaf "~" || t.isLeaf "event" || (t.isLeaf "delegate" && !(ts.head?.map (isLeaf "*")).getD false)
  | [] => false

/-- The kind of a member and the place of its parameter list. -/
def member? (ts : List TokenTree) : Option (NodeKind × Nat) :=
  match ts with
  | name :: params :: _ =>
      if canName name && params.isGroup .round then some (.constructorDeclaration, 1)
      else if isNoMethod ts then none
      else (parametersAt? [] ts).map fun n => (.methodDeclaration, n)
  | _ => none

def memberDeclaration (kind : NodeKind) (place : Nat) (item : List TokenTree) : Concrete :=
  let h := head item
  let front := h.rest.take place
  let name := (front.reverse.find? isWord).map fun t => sourceText [t]
  let signature := match front.getLast? with
    | some t =>
        if t.isGroup .angle then ofTrees front.dropLast ++ [typeParameterList t]
        else ofTrees front
    | none => []
  across kind name item
    (attributesOf h.attributes ++ ofTrees h.modifiers ++ signature ++
      ((h.rest.drop place).take 1).map parameterList ++
      ending ofTrees (h.rest.drop (place + 1)))

/-- Whether the item imports names. A `using` statement has a resource in parentheses, or declares
a variable. -/
def isUsingDirective (item : List TokenTree) : Bool :=
  let item := if (item.head?.map (isLeaf "global")).getD false then item.drop 1 else item
  match item with
  | word :: first :: rest =>
      word.isLeaf "using" && !first.isGroup .round &&
        (first.isLeaf "static" || first.isLeaf "unsafe" ||
          (rest.head?.map (isLeaf "=")).getD false || !rest.any (isLeaf "="))
  | _ => false

/-- A conditional block, whose branches are all read. -/
def conditionalBlock (inside : List TokenTree → List Concrete) (t : TokenTree) : Concrete :=
  match t with
  | .group opener body closer =>
      across .other none [t]
        ((branches opener body).flatMap (fun b => ofTrees b.directive ++ inside b.items) ++
          [ofToken closer])
  | .leaf single => ofToken single

def item (inside : Surrounding → List TokenTree → List Concrete) (place : Surrounding)
    (ts : List TokenTree) : Concrete :=
  let h := head ts
  if ts.length = 1 && ts.any (isGroup .block) then
    ts.head?.elim (plain ts) (conditionalBlock (inside place))
  else if isUsingDirective ts then .usingDirective (sourceText ts) (spanOf ts) (ofTrees ts)
  else if declaresNamespace h then namespaceDeclaration (inside .outer) ts
  else
    match typeKeyword? h.rest with
    | some (kind, words) => typeDeclaration (inside .body) kind words ts
    | none =>
        match place, member? h.rest with
        | .body, some (kind, n) => memberDeclaration kind n ts
        | _, _ => plain ts

/-- Reads siblings whose brackets nest less than `depth` deep. -/
def items : Nat → Surrounding → List TokenTree → List Concrete
  | 0, _, ts => ofTrees ts
  | depth + 1, place, ts => (cutItems ts).map (item (items depth) place)

end Concrete

/-- The place behind a text. -/
def endOf (source : List Char) : Place :=
  Place.over {} source

/-- The whole text from its first character that is not blank. -/
def rootSpan (source : List Char) : Span :=
  (Place.over {} (source.takeWhile isSpacing)).through (endOf source)

/-- The concrete tree of a text. -/
def ConcreteFile.read (source : List Char) : ConcreteFile :=
  let ls := lexemes source
  let trees := TokenTree.read (Token.ofLexemes [] ls)
  { root := .node .compilationUnit none (rootSpan source)
      (Concrete.items (TokenTree.forestDepth trees + 1) .outer trees)
    islands := ls.filterMap Lexeme.island? }

end Antipattern.CSharp
