import Antipattern.Yaml.Token

/-!
Documents of YAML: nodes from tokens. A text holds one document at most.
-/

namespace Antipattern.Yaml

/-- A node. An anchored node has a slot, and an alias stands for the node of its slot. -/
inductive Node where
  | scalar (slot : Option Nat) (tag : Option String) (style : Style) (text : String)
  | sequence (slot : Option Nat) (tag : Option String) (items : List Node)
  | mapping (slot : Option Nat) (tag : Option String) (entries : List (Node × Node))
  | reference (slot : Nat)
deriving Inhabited

namespace Node

/-- What stands for a value that is left out. -/
def absent : Node :=
  .scalar none none .plain ""

def slot? : Node → Option Nat
  | scalar slot _ _ _ => slot
  | sequence slot _ _ => slot
  | mapping slot _ _ => slot
  | reference _ => none

mutual
/-- The node and all below it in document order. -/
def preorder : Node → List Node
  | n@(scalar ..) => [n]
  | n@(reference _) => [n]
  | n@(sequence _ _ items) => n :: listPreorder items
  | n@(mapping _ _ entries) => n :: entriesPreorder entries

def listPreorder : List Node → List Node
  | [] => []
  | n :: ns => n.preorder ++ listPreorder ns

def entriesPreorder : List (Node × Node) → List Node
  | [] => []
  | (k, v) :: rest => k.preorder ++ v.preorder ++ entriesPreorder rest
end

/-- The node that an alias in this document stands for: the last with its slot. -/
def resolve (root : Node) : Node → Node
  | reference slot => (root.preorder.reverse.find? fun n => n.slot? == some slot).getD absent
  | n => n

end Node

/-- Tokens still to be read, the slots of anchors by name, and the handles of tags. -/
structure Composer where
  tokens : List Token
  slots : List (String × Nat) := []
  handles : List (String × String) := []
deriving Inhabited

abbrev Compose := StateT Composer (Except Fault)

namespace Compose

def peek : Compose (Option Token) :=
  return (← get).tokens.head?

def advance : Compose Unit :=
  modify fun c => { c with tokens := c.tokens.tail }

/-- The next token is passed over if it is the given one. -/
def accept (t : Token) : Compose Bool := do
  if (← peek) = some t then
    advance
    return true
  else return false

def fail {α : Type} : Compose α :=
  throw .unexpectedToken

/-- Gives an anchor the slot numbered by the names in use. -/
def newSlot (name : String) : Compose Nat := do
  let slots := (← get).slots
  let slot := slots.length
  modify fun c => { c with slots := (name, slot) :: slots.filter fun s => s.1 != name }
  return slot

/-- The full tag. -/
def fullTag (handle ending : String) : Compose String := do
  if handle = "" then return ending
  match (← get).handles.lookup handle with
  | some start => return start ++ ending
  | none => throw .badTag

/-- The anchor and the tag before a node, in any order. -/
def properties : Compose (Option String × Option String) := do
  match ← peek with
  | some (.anchor name) =>
      advance
      match ← peek with
      | some (.tag handle ending) =>
          advance
          return (some name, some (← fullTag handle ending))
      | _ => return (some name, none)
  | some (.tag handle ending) =>
      advance
      match ← peek with
      | some (.anchor name) =>
          advance
          return (some name, some (← fullTag handle ending))
      | _ => return (none, some (← fullTag handle ending))
  | _ => return (none, none)

/-- Whether one of the tokens comes next, or nothing. -/
def before (ts : List Token) : Compose Bool := do
  match ← peek with
  | some t => return ts.contains t
  | none => return true

mutual
/-- A node. `inBlock` says that it may be a block collection, `indentless` that a sequence may start
at the column of the key before it. -/
def node : Nat → Bool → Bool → Compose Node
  | 0, _, _ => fail
  | fuel + 1, inBlock, indentless => do
      match ← peek with
      | some (.reference name) =>
          advance
          match (← get).slots.lookup name with
          | some slot => return .reference slot
          | none => throw .unknownAnchor
      | _ =>
          let (anchor, tag) ← properties
          let slot ← match anchor with
            | some name => some <$> newSlot name
            | none => pure none
          match ← peek with
          | some (.scalar style text) =>
              advance
              return .scalar slot (tag.filter (· != "!")) style text
          | some .flowSequenceStart =>
              advance
              return .sequence slot tag (← flowItems fuel true)
          | some .flowMappingStart =>
              advance
              return .mapping slot tag (← flowEntries fuel true)
          | some .blockEntry =>
              if indentless then return .sequence slot tag (← indentlessItems fuel)
              else bare slot anchor tag
          | some .blockSequenceStart =>
              if inBlock then
                advance
                return .sequence slot tag (← blockItems fuel)
              else bare slot anchor tag
          | some .blockMappingStart =>
              if inBlock then
                advance
                return .mapping slot tag (← blockEntries fuel)
              else bare slot anchor tag
          | _ => bare slot anchor tag

/-- A node that consists of an anchor or a tag only. -/
def bare (slot : Option Nat) (anchor tag : Option String) : Compose Node :=
  if anchor.isSome || tag.isSome then
    return .scalar slot (tag.filter (· != "!")) .plain ""
  else fail

def blockItems : Nat → Compose (List Node)
  | 0 => fail
  | fuel + 1 => do
      if ← accept .blockEnd then return []
      if !(← accept .blockEntry) then fail
      let item ← if ← before [.blockEntry, .blockEnd] then pure .absent else node fuel true false
      return item :: (← blockItems fuel)

def indentlessItems : Nat → Compose (List Node)
  | 0 => fail
  | fuel + 1 => do
      if !(← accept .blockEntry) then return []
      let item ←
        if ← before [.blockEntry, .key, .value, .blockEnd] then pure .absent
        else node fuel true false
      return item :: (← indentlessItems fuel)

def blockEntries : Nat → Compose (List (Node × Node))
  | 0 => fail
  | fuel + 1 => do
      if ← accept .blockEnd then return []
      if !(← accept .key) then fail
      let key ←
        if ← before [.key, .value, .blockEnd] then pure .absent else node fuel true true
      let value ←
        if ← accept .value then
          if ← before [.key, .value, .blockEnd] then pure .absent else node fuel true true
        else pure .absent
      return (key, value) :: (← blockEntries fuel)

def flowItems : Nat → Bool → Compose (List Node)
  | 0, _ => fail
  | fuel + 1, first => do
      if ← accept .flowSequenceEnd then return []
      if !first && !(← accept .flowEntry) then fail
      if ← accept .flowSequenceEnd then return []
      let item ← if ← accept .key then flowPair fuel else node fuel false false
      return item :: (← flowItems fuel false)

/-- An entry of a flow sequence that is a mapping of one key. -/
def flowPair : Nat → Compose Node
  | 0 => fail
  | fuel + 1 => do
      let key ←
        if ← before [.value, .flowEntry, .flowSequenceEnd] then do
          advance
          pure .absent
        else node fuel false false
      let value ←
        if ← accept .value then
          if ← before [.flowEntry, .flowSequenceEnd] then pure .absent else node fuel false false
        else pure .absent
      return .mapping none none [(key, value)]

def flowEntries : Nat → Bool → Compose (List (Node × Node))
  | 0, _ => fail
  | fuel + 1, first => do
      if ← accept .flowMappingEnd then return []
      if !first && !(← accept .flowEntry) then fail
      if ← accept .flowMappingEnd then return []
      if ← accept .key then
        let key ←
          if ← before [.value, .flowEntry, .flowMappingEnd] then pure .absent
          else node fuel false false
        let value ←
          if ← accept .value then
            if ← before [.flowEntry, .flowMappingEnd] then pure .absent else node fuel false false
          else pure .absent
        return (key, value) :: (← flowEntries fuel false)
      else
        let key ← node fuel false false
        return (key, .absent) :: (← flowEntries fuel false)
end

/-- Handles that need no directive. -/
def defaultHandles : List (String × String) :=
  [("!", "!"), ("!!", "tag:yaml.org,2002:")]

/-- The directives before a document; each version and each handle is given once. -/
def directives : List Token → Bool → List (String × String) →
    Except Fault (List (String × String) × List Token)
  | .versionDirective major minor :: ts, versioned, handles =>
      if versioned || major ≠ 1 || (minor ≠ 1 && minor ≠ 2) then .error .badDirective
      else directives ts true handles
  | .tagDirective handle start :: ts, versioned, handles =>
      if (handles.lookup handle).isSome then .error .badDirective
      else directives ts versioned ((handle, start) :: handles)
  | ts, _, handles => .ok (handles ++ defaultHandles, ts)

def startsDocument : List Token → Bool
  | .versionDirective .. :: _ | .tagDirective .. :: _ | .documentStart :: _ => true
  | _ => false

def isDocumentEnd (t : Token) : Bool :=
  t == .documentEnd

/-- The content of a document up to its end. Nodes nest less deep than there are tokens. -/
def content (ts : List Token) (handles : List (String × String)) :
    Except Fault (Node × List Token) := do
  let (n, c) ← (node (2 * ts.length + 2) true false).run { tokens := ts, handles }
  return (n, c.tokens)

end Compose

/-- The only document of a text; none if the text is empty. -/
def read (text : List Char) : Except Fault (Option Node) := do
  let ts ← scan text
  if ts.isEmpty then return none
  let (n, rest) ←
    if Compose.startsDocument ts then
      let (handles, ts) ← Compose.directives ts false []
      match ts with
      | .documentStart :: ts =>
          if ts.isEmpty || Compose.startsDocument ts || ts.head? = some .documentEnd then
            pure (Node.absent, ts)
          else Compose.content ts handles
      | _ => throw .badDirective
    else Compose.content ts Compose.defaultHandles
  if (rest.dropWhile Compose.isDocumentEnd).isEmpty then return some n
  else throw .secondDocument

end Antipattern.Yaml
