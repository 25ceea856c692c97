import Antipattern.CSharp.Concrete
import Antipattern.CSharp.TypeArgs

/-!
Parts of a declaration: attribute lists, parameter lists, type parameter lists and base lists.
-/

namespace Antipattern.CSharp.Concrete

open TokenTree

def ofTrees (ts : List TokenTree) : List Concrete :=
  (forestTokens ts).map ofToken

/-- A node that runs from the first of the trees to the last. -/
def across (kind : NodeKind) (name : Option String) (ts : List TokenTree)
    (children : List Concrete) : Concrete :=
  .node kind name (spanOf ts) children

/-- A node of no interest with the tokens of the trees. -/
def plain (ts : List TokenTree) : Concrete :=
  across .other none ts (ofTrees ts)

/-- Cuts siblings at their commas; each comma is a part of its own. -/
def commaParts : List TokenTree → List (List TokenTree)
  | [] => []
  | t :: ts =>
      if t.isLeaf "," then [t] :: commaParts ts
      else
        match ts.head?, commaParts ts with
        | some next, p :: ps => if next.isLeaf "," then [t] :: p :: ps else (t :: p) :: ps
        | _, _ => [[t]]

/-- The parts read one by one, with the commas between them. -/
def separated (read : List TokenTree → List Concrete) (ts : List TokenTree) : List Concrete :=
  (commaParts ts).flatMap fun part =>
    if part.any (isLeaf ",") then ofTrees part else read part

def attributeUse (ts : List TokenTree) : Concrete :=
  let named := match ts.getLast? with
    | some args => if args.isGroup .round then ts.dropLast else ts
    | none => ts
  across .attributeUse (some (sourceText named)) ts (ofTrees ts)

/-- What the attributes of a list apply to, written as a word and a colon. -/
def target : List TokenTree → List TokenTree × List TokenTree
  | word :: colon :: rest =>
      if word.isWord && colon.isLeaf ":" then ([word, colon], rest)
      else ([], word :: colon :: rest)
  | ts => ([], ts)

def attributeList (t : TokenTree) : Concrete :=
  match t with
  | .group opener body closer =>
      let (before, attributes) := target body
      across .attributeList none [t]
        (ofToken opener :: (ofTrees before ++ separated (fun ts => [attributeUse ts]) attributes ++
          [ofToken closer]))
  | .leaf single => ofToken single

/-- The last word before a default value. -/
def parameterName? (ts : List TokenTree) : Option String :=
  ((ts.takeWhile fun t => !t.isLeaf "=").reverse.find? isWord).map fun t => sourceText [t]

/-- Whether the parameter takes all further arguments. -/
def takesRest (ts : List TokenTree) : Bool :=
  ((ts.dropWhile (isGroup .square)).head?.map (isLeaf "params")).getD false

/-- A parameter that takes all further arguments has no node of its own. -/
def parameter (ts : List TokenTree) : List Concrete :=
  let children := (ts.takeWhile (isGroup .square)).map attributeList ++
    ofTrees (ts.dropWhile (isGroup .square))
  if takesRest ts then children else [across .parameter (parameterName? ts) ts children]

/-- The list is named by the parameter that takes all further arguments. -/
def parameterList (t : TokenTree) : Concrete :=
  match t with
  | .group opener body closer =>
      across .parameterList (((commaParts body).find? takesRest).bind parameterName?) [t]
        (ofToken opener :: (separated parameter body ++ [ofToken closer]))
  | .leaf single => ofToken single

def typeParameterList (t : TokenTree) : Concrete :=
  across .typeParameterList (some (sourceText [t])) [t] (ofTrees [t])

/-- Whether a reference of several tokens is known by its source text. Tuples, pointers and
functions are not, unless they are nullable or make up an array. -/
def namedByText (ts : List TokenTree) : Bool :=
  match ts.head?, ts.getLast? with
  | some t, some u =>
      u.isLeaf "?" || u.isGroup .square ||
        !(t.isGroup .round || t.isLeaf "delegate" || u.isLeaf "*")
  | _, _ => false

def typeReference (ts : List TokenTree) : Concrete :=
  match ts with
  | [.leaf single] => ofToken single
  | _ => if namedByText ts then across .other (some (sourceText ts)) ts (ofTrees ts) else plain ts

/-- An entry of a base list. Arguments for the base constructor are an entry of their own, save
in a record, where they hide the name of the base. -/
def baseEntry (isRecord : Bool) (ts : List TokenTree) : List Concrete :=
  match ts.getLast? with
  | some args =>
      if args.isGroup .round && ts.length ≠ 1 then
        if isRecord then [plain ts] else [typeReference ts.dropLast, plain [args]]
      else [typeReference ts]
  | none => []

/-- The colon and what follows it. -/
def baseList (isRecord : Bool) : List TokenTree → List Concrete
  | [] => []
  | colon :: entries =>
      [across .baseList none (colon :: entries)
        (ofTrees [colon] ++ separated (baseEntry isRecord) entries)]

end Antipattern.CSharp.Concrete
