/-!
Kinds of syntax nodes and of trivia, with the words they are written by.
-/

namespace Antipattern

/-- What a syntax node is. Rules subscribe to kinds; whatever no rule asks for is `other`. -/
inductive NodeKind where
  | compilationUnit
  | namespaceDeclaration
  | classDeclaration
  | interfaceDeclaration
  | structDeclaration
  | recordDeclaration
  | enumDeclaration
  | methodDeclaration
  | constructorDeclaration
  | parameterList
  | parameter
  | typeParameterList
  | attributeList
  | attributeUse
  | baseList
  | token
  | other
deriving DecidableEq, Inhabited

namespace NodeKind

def all : List NodeKind :=
  [compilationUnit, namespaceDeclaration, classDeclaration, interfaceDeclaration,
    structDeclaration, recordDeclaration, enumDeclaration, methodDeclaration,
    constructorDeclaration, parameterList, parameter, typeParameterList, attributeList,
    attributeUse, baseList, token, other]

def text : NodeKind → String
  | compilationUnit => "compilation_unit"
  | namespaceDeclaration => "namespace_declaration"
  | classDeclaration => "class_declaration"
  | interfaceDeclaration => "interface_declaration"
  | structDeclaration => "struct_declaration"
  | recordDeclaration => "record_declaration"
  | enumDeclaration => "enum_declaration"
  | methodDeclaration => "method_declaration"
  | constructorDeclaration => "constructor_declaration"
  | parameterList => "parameter_list"
  | parameter => "parameter"
  | typeParameterList => "type_parameter_list"
  | attributeList => "attribute_list"
  | attributeUse => "attribute"
  | baseList => "base_list"
  | token => "token"
  | other => "other"

def ofText? (s : String) : Option NodeKind :=
  all.find? fun k => k.text == s

/-- Whether nodes of this kind declare a named type. -/
def isTypeDeclaration : NodeKind → Bool
  | classDeclaration | interfaceDeclaration | structDeclaration | recordDeclaration
  | enumDeclaration => true
  | _ => false

/-- Whether nodes of this kind declare a member that can carry routes. -/
def isMemberDeclaration : NodeKind → Bool
  | methodDeclaration | constructorDeclaration => true
  | _ => false

end NodeKind

/-- What a piece of text between tokens is. -/
inductive TriviaKind where
  | whitespace
  | endOfLine
  | singleLineComment
  | multiLineComment
  | documentationComment
  | directive
  | disabledText
deriving DecidableEq, Inhabited

namespace TriviaKind

def all : List TriviaKind :=
  [whitespace, endOfLine, singleLineComment, multiLineComment, documentationComment, directive,
    disabledText]

def text : TriviaKind → String
  | whitespace => "whitespace"
  | endOfLine => "end_of_line"
  | singleLineComment => "single_line_comment"
  | multiLineComment => "multi_line_comment"
  | documentationComment => "documentation_comment"
  | directive => "directive"
  | disabledText => "disabled_text"

def ofText? (s : String) : Option TriviaKind :=
  all.find? fun k => k.text == s

def isComment : TriviaKind → Bool
  | singleLineComment | multiLineComment | documentationComment => true
  | _ => false

/-- Trivia that is never attached behind a token: it stands before what follows it. -/
def startsLeading : TriviaKind → Bool
  | directive | documentationComment | disabledText => true
  | _ => false

end TriviaKind

/-- Text between tokens. -/
structure Trivia where
  kind : TriviaKind
  text : String
deriving DecidableEq, Inhabited

namespace Trivia

def lineBreak : Trivia := ⟨.endOfLine, "\n"⟩

def isEndOfLine (t : Trivia) : Bool :=
  t.kind == .endOfLine

end Trivia
end Antipattern
