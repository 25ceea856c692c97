import Antipattern.Glob.Match
import Antipattern.Rule.Builtin
import Antipattern.Text.Blank
import Antipattern.Yaml.Document

/-!
Settings from text. A field that is left out has its default, and fields that are not known are
ignored. What was read is checked: rules must exist, patterns must be readable, limits of size must
be positive and names of known types must not be blank.
-/

namespace Antipattern

/-- Why settings are refused. -/
inductive SettingsError where
  | badYaml (fault : Yaml.Fault)
  | badValue (field : String)
  | repeatedField (field : String)
  | unknownRule (id : String)
  | badPattern (error : Glob.Error)
  | zeroThreshold (name : String)
  | emptyKnownType (name : String)
deriving DecidableEq, Inhabited

namespace SettingsError

def message : SettingsError → String
  | badYaml fault => "invalid config YAML: " ++ fault.text
  | badValue field => "invalid config YAML: invalid value for " ++ field
  | repeatedField field => "invalid config YAML: duplicate field " ++ field
  | unknownRule id => "unknown rule id in config: " ++ id
  | badPattern e => e.message
  | zeroThreshold name => "threshold " ++ name ++ " must be greater than zero"
  | emptyKnownType name => "known type " ++ name ++ " must not be empty"

end SettingsError

namespace Yaml.Node

/-- Any scalar is a text, as it is written. Aliases are looked up in `root`. -/
def text? (root n : Node) : Option String :=
  match root.resolve n with
  | .scalar _ _ _ text => some text
  | _ => none

/-- A plain scalar, or a literal block that is tagged as what is wanted. -/
def unquoted? (root n : Node) (wanted : String) : Option String :=
  match root.resolve n with
  | .scalar _ _ .plain text => some text
  | .scalar _ (some tag) .literal text =>
      if tag = "tag:yaml.org,2002:" ++ wanted then some text else none
  | _ => none

def flag? (root n : Node) : Option Bool :=
  match root.unquoted? n "bool" with
  | some "true" | some "True" | some "TRUE" => some true
  | some "false" | some "False" | some "FALSE" => some false
  | _ => none

/-- Numbers are those that fit 64 bits. -/
def numberLimit : Nat := 0x10000000000000000

/-- The value of digits in a base, if it is a number. -/
def digitsValue? (base : Nat) (cs : List Char) : Option Nat :=
  let digit? (c : Char) : Option Nat := (Yaml.hexDigit? c).filter (· < base)
  if cs.isEmpty then none
  else
    (cs.foldl (fun v c => v.bind fun v => (digit? c).map (v * base + ·)) (some 0)).filter
      (· < numberLimit)

/-- A number: decimal without leading zeros, or with its base in front. -/
def numberValue? (text : List Char) : Option Nat :=
  let text := match text with
    | '+' :: cs => cs
    | cs => cs
  let based := match text with
    | '0' :: 'x' :: cs => digitsValue? 16 cs
    | '0' :: 'o' :: cs => digitsValue? 8 cs
    | '0' :: 'b' :: cs => digitsValue? 2 cs
    | _ => none
  match based, text with
  | some n, _ => some n
  | none, '0' :: _ :: _ => none
  | none, cs => digitsValue? 10 cs

def number? (root n : Node) : Option Nat :=
  (root.unquoted? n "int").bind fun text => numberValue? text.toList

/-- A sequence; a value that is left out is an empty one. -/
def items? (root n : Node) : Option (List Node) :=
  match root.resolve n with
  | .sequence _ _ items => some items
  | .scalar _ _ .plain "" => some []
  | _ => none

/-- A mapping whose keys are texts; a value that is left out is an empty one. -/
def fields? (root n : Node) : Option (List (String × Node)) :=
  match root.resolve n with
  | .mapping _ _ entries => entries.mapM fun (k, v) => (root.text? k).map fun name => (name, v)
  | .scalar _ _ .plain "" => some []
  | _ => none

def isNullWord (text : String) : Bool :=
  ["null", "Null", "NULL", "~"].contains text

/-- The name behind the exclamation mark of a local tag. -/
def localTag? (tag : String) : Option String :=
  match tag.toList with
  | ['!'] => some "!"
  | '!' :: name => some (String.ofList name)
  | _ => none

/-- A severity, or none if the value is left out or null. A local tag may name it, too. -/
def severity? (root n : Node) : Option (Option Severity) :=
  match root.resolve n with
  | .scalar _ tag style text =>
      let isNone : Option Bool :=
        if style ≠ .plain then some false
        else match tag with
          | some tag =>
              if tag = "tag:yaml.org,2002:null" then
                if isNullWord text then some true else none
              else some false
          | none => some (text = "" || isNullWord text)
      match isNone with
      | none => none
      | some true => some none
      | some false =>
          match tag.bind localTag? with
          | some name =>
              if style = .plain && (text = "" || isNullWord text) then
                (Severity.ofText? name).map some
              else none
          | none => (Severity.ofText? text).map some
  | _ => none

end Yaml.Node

namespace Settings

open Yaml (Node)

abbrev Read := Except SettingsError

/-- The field's value, or the default if there is no such field. -/
def field {α : Type} (fields : List (String × Node)) (name : String) (fallback : α)
    (value? : Node → Option α) : Read α :=
  match fields.filter fun f => f.1 == name with
  | [] => .ok fallback
  | [(_, n)] =>
      match value? n with
      | some a => .ok a
      | none => .error (.badValue name)
  | _ => .error (.repeatedField name)

/-- The fields of a mapping that is itself a field. -/
def subfields (root : Node) (fields : List (String × Node)) (name : String) :
    Read (List (String × Node)) :=
  field fields name [] root.fields?

def thresholdsOf (root : Node) (fields : List (String × Node)) : Read Thresholds := do
  let default : Thresholds := {}
  return {
    maxConstructorParameters :=
      ← field fields "max_constructor_parameters" default.maxConstructorParameters root.number?
    maxClassLines := ← field fields "max_class_lines" default.maxClassLines root.number?
    maxMethodLines := ← field fields "max_method_lines" default.maxMethodLines root.number?
    maxTotalLines := ← field fields "max_total_lines" default.maxTotalLines root.number?
    maxNanoServiceEndpoints :=
      ← field fields "max_nano_service_endpoints" default.maxNanoServiceEndpoints root.number? }

def knownTypesOf (root : Node) (fields : List (String × Node)) : Read KnownTypeNames := do
  let default : KnownTypeNames := {}
  return {
    controller := ← field fields "controller" default.controller root.text?
    routeProvider := ← field fields "route_provider" default.routeProvider root.text? }

def ruleOf (root : Node) (fields : List (String × Node)) : Read RuleSettings := do
  return {
    enabled := ← field fields "enabled" true root.flag?
    severity := ← field fields "severity" none root.severity? }

/-- Puts a rule's settings into the order of ids, in place of earlier ones. -/
def insertRule (id : String) (r : RuleSettings) :
    List (String × RuleSettings) → List (String × RuleSettings)
  | [] => [(id, r)]
  | (other, s) :: rest =>
      if id = other then (id, r) :: rest
      else if id < other then (id, r) :: (other, s) :: rest
      else (other, s) :: insertRule id r rest

def rulesOf (root : Node) (fields : List (String × Node)) :
    Read (List (String × RuleSettings)) :=
  fields.foldlM
    (fun rules (id, n) =>
      match root.fields? n with
      | some fields => return insertRule id (← ruleOf root fields) rules
      | none => throw (.badValue id))
    []

def ofNode (root : Node) : Read Settings := do
  let some fields := root.fields? root | throw (.badValue "document")
  return {
    version := ← field fields "version" "" root.text?
    excludedPaths := ← field fields "excluded_paths" [] fun n =>
      (root.items? n).bind fun items => items.mapM root.text?
    thresholds := ← thresholdsOf root (← subfields root fields "thresholds")
    knownTypes := ← knownTypesOf root (← subfields root fields "known_types")
    rules := ← rulesOf root (← subfields root fields "rules")
    includeGenerated := ← field fields "include_generated" false root.flag? }

/-- The patterns of the excluded paths, in their order. -/
def excludes (s : Settings) : Read (List (List Glob.Part)) :=
  s.excludedPaths.mapM fun p =>
    match Glob.parse p with
    | .ok parts => .ok parts
    | .error e => .error (.badPattern e)

/-- Limits of size with their names, in the order in which they are checked. -/
def sizeLimits (t : Thresholds) : List (String × Nat) :=
  [("max_constructor_parameters", t.maxConstructorParameters),
    ("max_class_lines", t.maxClassLines), ("max_method_lines", t.maxMethodLines),
    ("max_total_lines", t.maxTotalLines)]

def knownTypeFields (k : KnownTypeNames) : List (String × String) :=
  [("controller", k.controller), ("route_provider", k.routeProvider)]

/-- The first thing that is wrong with settings. -/
def check (s : Settings) : Read Unit := do
  if let some (id, _) := s.rules.find? fun r => (Rule.builtin? r.1).isNone then
    throw (.unknownRule id)
  let _ ← s.excludes
  if let some (name, _) := (sizeLimits s.thresholds).find? fun l => l.2 = 0 then
    throw (.zeroThreshold name)
  if let some (name, _) :=
      (knownTypeFields s.knownTypes).find? fun k => (Text.trim k.2.toList).isEmpty then
    throw (.emptyKnownType name)

/-- Reads settings and checks them. -/
def parse (text : String) : Read Settings := do
  match Yaml.read text.toList with
  | .error fault => throw (.badYaml fault)
  | .ok document =>
      let settings ← ofNode (document.getD .absent)
      settings.check
      return settings

end Settings

/-- Whether a path matches one of the patterns. -/
def isExcluded (patterns : List (List Glob.Part)) (path : String) : Bool :=
  patterns.any fun p => Glob.matchesPath p path

end Antipattern
