import Antipattern.Analysis.Program
import Antipattern.Binding.Scope
import Antipattern.Symbol.Interfaces
import Antipattern.Syntax.Tree

/-!
Resolving declarations. The first pass declares every type of every file, so that references may
run forward and across files. The second resolves base lists, attributes and members. What no
file declares and the catalog does not list becomes an unresolved symbol, at which every
hierarchy question ends.
-/

namespace Antipattern

/-- A type declaration with the scope it is written in. -/
structure Declared where
  id : Nat
  tree : Nat
  node : SyntaxNode
  scope : Scope
deriving Inhabited

structure Binder where
  table : SymbolTable := {}
  /-- Generic definitions by their names up to the type parameters, the newest first. -/
  generics : List (String × Nat) := []
  /-- Declarations in document order. -/
  declared : List Declared := []
deriving Inhabited

namespace SyntaxNode

/-- A namespace without a body: a `;` ends its name. -/
def isFileScoped (n : SyntaxNode) : Bool :=
  n.children.any fun c => c.kind == .token && c.name == some ";"

/-- The type parameter list of a generic declaration without blanks; empty for others. -/
def typeParameters (n : SyntaxNode) : String :=
  match (n.child? .typeParameterList).bind (·.name) with
  | some text => Text.withoutBlanks text
  | none => ""

/-- The text of a reference in a base list: the node's own, or that of its first token. -/
def referenceText? (n : SyntaxNode) : Option String :=
  match n.name with
  | some text => some text
  | none => n.firstToken?.bind (·.name)

/-- References of the first base list, without its punctuation. -/
def baseReferences (n : SyntaxNode) : List String :=
  match n.child? .baseList with
  | none => []
  | some l => (l.children.filterMap referenceText?).filter fun t => t != ":" && t != ","

mutual
/-- Methods and constructors of the node itself, or below it through `other` nodes. -/
def membersAt : SyntaxNode → List SyntaxNode
  | n@⟨kind, _, _, _, _, _, children⟩ =>
      match kind with
      | .methodDeclaration | .constructorDeclaration => [n]
      | .other => membersAmong children
      | _ => []

def membersAmong : List SyntaxNode → List SyntaxNode
  | [] => []
  | n :: rest => n.membersAt ++ membersAmong rest
end

/-- Members of a type declaration, without those of the types nested in it. -/
def members (n : SyntaxNode) : List SyntaxNode :=
  membersAmong n.children

end SyntaxNode

namespace Binder

/-- The display name of a type declared in a scope. -/
def displayNameIn (scope : Scope) (name : String) (n : SyntaxNode) : String :=
  let container := match scope.enclosing.getLast? with
    | some e => withoutTypeArgs e
    | none => scope.namespaceName
  qualify container name ++ n.typeParameters

/-- Registers a type declaration under its display name. -/
def register (tree : Nat) (n : SyntaxNode) (display : String) (scope : Scope) (b : Binder) :
    Binder :=
  let (id, table) := b.table.addType display (.ofNodeKind n.kind)
  { table := table.addDeclaration id (.ofNode tree n)
    generics :=
      if display.toList.contains '<' then (withoutTypeArgs display, id) :: b.generics
      else b.generics
    declared := b.declared ++ [⟨id, tree, n, scope⟩] }

mutual
/-- Declares the types below a node. -/
def declareBelow (tree : Nat) : SyntaxNode → Scope → Binder → Binder
  | ⟨_, _, _, _, _, _, children⟩, scope, b => declareAmong tree children scope b

/-- Declares the types of siblings; a namespace without a body holds for those behind it. -/
def declareAmong (tree : Nat) : List SyntaxNode → Scope → Binder → Binder
  | [], _, b => b
  | n :: rest, scope, b =>
      if n.kind = .namespaceDeclaration then
        match n.identifier? with
        | none => declareAmong tree rest scope b
        | some name =>
            let qualified := qualify scope.namespaceName name
            if n.isFileScoped then
              let scope := { scope with namespaceName := qualified }
              declareAmong tree rest scope (declareBelow tree n scope b)
            else
              let inner : Scope := { namespaceName := qualified, usings := scope.usings }
              declareAmong tree rest scope (declareBelow tree n inner b)
      else if n.kind.isTypeDeclaration then
        match n.identifier? with
        | none => declareAmong tree rest scope b
        | some name =>
            let display := displayNameIn scope name n
            let inner := { scope with enclosing := scope.enclosing ++ [display] }
            declareAmong tree rest scope
              (declareBelow tree n inner (b.register tree n display scope))
      else if n.kind = .token then declareAmong tree rest scope b
      else declareAmong tree rest scope (declareBelow tree n scope b)
end

/-- Resolves a name without type arguments among its candidates. -/
def resolvePlain? : List String → SymbolTable → Option (Nat × SymbolTable)
  | [], _ => none
  | candidate :: rest, t =>
      let known := (t.lookup? candidate).filter fun id =>
        (t.symbol? id).map (·.kind) != some .unresolved
      match known with
      | some id => some (id, t)
      | none =>
          match Catalog.ensure? candidate t with
          | some found => some found
          | none => resolvePlain? rest t

/-- Resolves a name with type arguments: the first candidate that names a generic definition is
filled in with them. -/
def resolveGeneric? (generics : List (String × Nat)) (args : String) (t : SymbolTable) :
    List String → Option (Nat × SymbolTable)
  | [] => none
  | candidate :: rest =>
      match generics.lookup candidate with
      | none => resolveGeneric? generics args t rest
      | some definition =>
          let kind := ((t.symbol? definition).map (·.kind)).getD .classType
          let (id, t) := t.addType (candidate ++ args) kind
          if id = definition then some (id, t)
          else some (id, t.setOriginalDefinition id definition)

def resolve? (b : Binder) (scope : Scope) (reference : String) : Option (Nat × Binder) :=
  let cs := (normalizeReference reference).toList
  let plain := String.ofList (cs.takeWhile (· ≠ '<'))
  let args := String.ofList (cs.dropWhile (· ≠ '<'))
  let found :=
    if args.isEmpty then resolvePlain? (scope.candidates plain) b.table
    else resolveGeneric? b.generics args b.table (scope.candidates plain)
  found.map fun (id, table) => (id, { b with table })

/-- Resolves a reference; what nothing declares becomes an unresolved type of that name. -/
def resolveType (b : Binder) (scope : Scope) (reference : String) : Nat × Binder :=
  match b.resolve? scope reference with
  | some found => found
  | none =>
      let (id, table) := b.table.addType (normalizeReference reference) .unresolved
      (id, { b with table })

/-- Resolves an attribute: first with the suffix that its class name usually has. -/
def resolveAttribute (b : Binder) (scope : Scope) (n : SyntaxNode) : AppliedAttribute × Binder :=
  let name := n.identifier?.getD ""
  if name.isEmpty then (⟨name, none⟩, b)
  else
    let suffixed :=
      if Text.endsWith "Attribute".toList name.toList then none
      else b.resolve? scope (name ++ "Attribute")
    match suffixed <|> b.resolve? scope name with
    | some (id, b) => (⟨name, some id⟩, b)
    | none =>
        let (id, table) := b.table.addType name .unresolved
        (⟨name, some id⟩, { b with table })

def resolveAttributes (scope : Scope) :
    List SyntaxNode → Binder → List AppliedAttribute × Binder
  | [], b => ([], b)
  | n :: rest, b =>
      let (a, b) := b.resolveAttribute scope n
      let (as, b) := resolveAttributes scope rest b
      (a :: as, b)

/-- Whether a resolved reference is the base type of a declaration, by the kinds of both; an
unresolved first reference is, unless it is named like an interface. -/
def isBase (declaration : NodeKind) (target : Option TypeKind) (first : Bool)
    (reference : String) : Bool :=
  match declaration, target with
  | .classDeclaration, some kind | .recordDeclaration, some kind =>
      match kind with
      | .classType | .recordType => true
      | .unresolved => first && !looksLikeInterface reference
      | _ => false
  | _, _ => false

def resolveBases (d : Declared) (scope : Scope) : List (String × Nat) → Binder → Binder
  | [], b => b
  | (reference, position) :: rest, b =>
      let (target, b) := b.resolveType scope reference
      let targetKind := (b.table.symbol? target).map (·.kind)
      let table :=
        if isBase d.node.kind targetKind (position == 0) reference then b.table.setBase d.id target
        else if d.node.kind = .enumDeclaration then b.table
        else b.table.addInterface d.id target
      resolveBases d scope rest { b with table }

def resolveMembers (d : Declared) (scope : Scope) : List SyntaxNode → Binder → Binder
  | [], b => b
  | n :: rest, b =>
      let kind := if n.kind = .constructorDeclaration then MemberKind.constructor else .method
      let (attributes, b) := resolveAttributes scope n.attributes b
      let member : MemberSymbol :=
        { name := n.identifier?.getD "", kind, attributes, declared := some (.ofNode d.tree n) }
      resolveMembers d scope rest { b with table := b.table.addMember d.id member }

/-- The second pass over one declaration: bases, attributes and members. -/
def resolveDeclared (d : Declared) (b : Binder) : Binder :=
  let scope := match b.table.symbol? d.id with
    | some s => { d.scope with enclosing := d.scope.enclosing ++ [s.displayName] }
    | none => d.scope
  let b := resolveBases d scope d.node.baseReferences.zipIdx b
  let (attributes, b) := resolveAttributes scope d.node.attributes b
  let b := { b with table := attributes.foldl (fun t a => t.addAttribute d.id a) b.table }
  resolveMembers d scope d.node.members b

/-- Classes and records without a base derive from `System.Object`. -/
def defaultBase (object : Nat) (d : Declared) (t : SymbolTable) : SymbolTable :=
  if d.node.kind = .classDeclaration || d.node.kind = .recordDeclaration then
    match t.symbol? d.id with
    | some s => if s.baseType.isNone && s.id != object then t.setBase d.id object else t
    | none => t
  else t

def declareFiles (files : List ParsedFile) : Binder :=
  files.zipIdx.foldl
    (fun b (file, index) => declareBelow index file.tree.root { usings := file.usings } b) {}

/-- Resolves all files into one table. -/
def bind (files : List ParsedFile) : SymbolTable :=
  let b := declareFiles files
  let b := b.declared.foldl (fun b d => resolveDeclared d b) b
  let table := match Catalog.ensure? "System.Object" b.table with
    | some (object, t) => b.declared.foldl (fun t d => defaultBase object d t) t
    | none => b.table
  table.finish

end Binder

/-- The program that parsed files make up. -/
def Program.ofFiles (files : List ParsedFile) : Program where
  trees := files.map (·.tree)
  symbols := Binder.bind files

end Antipattern
