import Antipattern.Command.Arguments

/-!
The commands and what their arguments ask for.
-/

namespace Antipattern

structure LintRequest where
  path : String
  config : Option String := none
  format : String := "pretty"
  sequential : Bool := false
  showSuppressed : Bool := false
deriving DecidableEq, Inhabited

inductive Request where
  | lint (r : LintRequest)
  | rules
  | init (output : String)
deriving DecidableEq, Inhabited

namespace Request

open Arguments

inductive CommandName where
  | lint
  | rules
  | init
  | help
deriving DecidableEq, Inhabited

def CommandName.ofText? : String → Option CommandName
  | "lint" | "check" => some lint
  | "rules" => some rules
  | "init" => some init
  | "help" => some help
  | _ => none

def lintSignature : Signature where
  options := [⟨"config", some 'c', .path⟩, ⟨"format", some 'f', .text⟩, ⟨"sequential", none, .flag⟩,
    ⟨"show-suppressed", none, .flag⟩, helpOption]
  operand := some ⟨"path", none, .path⟩

def rulesSignature : Signature where
  options := [helpOption]

def initSignature : Signature where
  options := [⟨"output", some 'o', .path⟩, helpOption]

/-- What stands before the name of a command. -/
def outerSignature : Signature where
  options := [helpOption, versionOption]

/-- The command whose help is asked for must exist, and commands have no commands of their own. -/
def helpFault : List String → UsageFault
  | [] => .help
  | [name] => if (CommandName.ofText? name).isSome then .help else .unknownCommand
  | _ => .unknownCommand

def ofCommand (name : CommandName) (args : List String) : Except UsageFault Request :=
  match name with
  | .lint => do
      let values ← lintSignature.read args
      return .lint {
        path := (values.lookup "path").getD ""
        config := values.lookup "config"
        format := (values.lookup "format").getD "pretty"
        sequential := (values.lookup "sequential").isSome
        showSuppressed := (values.lookup "show-suppressed").isSome }
  | .rules => do
      let _ ← rulesSignature.read args
      return .rules
  | .init => do
      let values ← initSignature.read args
      return .init ((values.lookup "output").getD "apcheck.yaml")
  | .help => .error (helpFault args)

/-- Reads the arguments of the program; a command's name behind `--` is not one. -/
def ofArgs : List String → Except UsageFault Request
  | [] => .error .noCommand
  | "--" :: rest =>
      match rest with
      | [] => .error .noCommand
      | name :: _ =>
          if (CommandName.ofText? name).isSome then .error .unknownArgument
          else .error .unknownCommand
  | name :: rest =>
      match CommandName.ofText? name with
      | some command => ofCommand command rest
      | none =>
          match name.toList with
          | '-' :: _ :: _ =>
              match outerSignature.read [name] with
              | .ok _ => .error .unknownArgument
              | .error fault => .error fault
          | _ => .error .unknownCommand

end Request
end Antipattern
