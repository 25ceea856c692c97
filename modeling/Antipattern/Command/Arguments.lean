import Antipattern.Text.Split

/-!
Arguments of one command. An option is written `--long`, `--long=value`, `-s`, `-svalue` or
`-s=value`; options without a value can share a dash. Behind `--` nothing is an option any more.

Arguments are read from left to right and the first fault counts. An option or operand is settled
when the next one begins, and only then its value is looked at.
-/

namespace Antipattern

/-- Why arguments do not name a command to run. Asking for help or for the version counts too. -/
inductive UsageFault where
  | help
  | version
  | noCommand
  | unknownCommand
  | unknownArgument
  | badValue
  | unwantedValue
  | repeated
  | missingOperand
deriving DecidableEq, Inhabited

/-- Help and the version are answers; all else is an error. -/
def UsageFault.exitCode : UsageFault → UInt32
  | help | version => 0
  | _ => 2

namespace Arguments

/-- What an option does. A path must not be empty. -/
inductive Role where
  | flag
  | text
  | path
  | help
  | version
deriving DecidableEq, Inhabited

def Role.takesValue : Role → Bool
  | text | path => true
  | _ => false

structure Opt where
  long : String
  short : Option Char := none
  role : Role
deriving DecidableEq, Inhabited

def helpOption : Opt := ⟨"help", some 'h', .help⟩

def versionOption : Opt := ⟨"version", some 'V', .version⟩

/-- The options that a command knows, and the operand that it needs, if any. -/
structure Signature where
  options : List Opt
  operand : Option Opt := none
deriving Inhabited

/-- What has been read. The pending option or operand has its value once it was given. -/
structure Progress where
  values : List (String × String) := []
  pending : Option (Opt × Option String) := none
  operandTaken : Bool := false
deriving Inhabited

namespace Progress

def record (p : Progress) (o : Opt) (value : String) : Except UsageFault Progress :=
  if (p.values.lookup o.long).isSome then .error .repeated
  else if o.role = .path ∧ value = "" then .error .badValue
  else .ok { p with values := p.values ++ [(o.long, value)] }

def settle (p : Progress) : Except UsageFault Progress :=
  match p.pending with
  | none => .ok p
  | some (_, none) => .error .badValue
  | some (o, some value) => { p with pending := none }.record o value

/-- An option that stands alone. -/
def raise (p : Progress) (o : Opt) : Except UsageFault Progress := do
  let p ← p.settle
  match o.role with
  | .help => .error .help
  | .version => .error .version
  | _ => p.record o ""

/-- An option with the value that is attached to it; without one it waits for its value. -/
def begin (p : Progress) (o : Opt) (value : Option String) : Except UsageFault Progress := do
  let p ← p.settle
  match value with
  | some value => p.record o value
  | none => return { p with pending := some (o, none) }

/-- The option that waits for its value. -/
def waiting? (p : Progress) : Option Opt :=
  match p.pending with
  | some (o, none) => some o
  | _ => none

end Progress

namespace Signature

def long (s : Signature) (p : Progress) (written : List Char) : Except UsageFault Progress :=
  let name := String.ofList (written.takeWhile (· ≠ '='))
  let value := (Text.after? ['='] (written.dropWhile (· ≠ '='))).map String.ofList
  match s.options.find? (·.long == name) with
  | none => .error .unknownArgument
  | some o =>
      if o.role.takesValue then p.begin o value
      else if value.isSome then .error .unwantedValue
      else p.raise o

/-- The letters behind one dash; what follows a letter that takes a value is the value. -/
def short (s : Signature) (p : Progress) : List Char → Except UsageFault Progress
  | [] => .ok p
  | c :: rest =>
      match s.options.find? (·.short == some c) with
      | none => .error .unknownArgument
      | some o =>
          if o.role.takesValue then
            match rest with
            | [] => p.begin o none
            | '=' :: value => p.begin o (some (String.ofList value))
            | value => p.begin o (some (String.ofList value))
          else do s.short (← p.raise o) rest

def operandValue (s : Signature) (p : Progress) (arg : String) : Except UsageFault Progress :=
  match s.operand with
  | some o =>
      if p.operandTaken then .error .unknownArgument
      else do return { ← p.settle with pending := some (o, some arg), operandTaken := true }
  | none => .error .unknownArgument

/-- Reads the arguments; `closed` says that a `--` stands before them. -/
def readFrom (s : Signature) (p : Progress) (closed : Bool) :
    List String → Except UsageFault Progress
  | [] => p.settle
  | arg :: rest =>
      if closed then do s.readFrom (← s.operandValue p arg) true rest
      else
        match arg.toList with
        | ['-', '-'] => s.readFrom p true rest
        | '-' :: '-' :: name => do s.readFrom (← s.long p name) false rest
        | '-' :: c :: letters => do s.readFrom (← s.short p (c :: letters)) false rest
        | _ =>
            match p.waiting? with
            | some o => s.readFrom { p with pending := some (o, some arg) } false rest
            | none => do s.readFrom (← s.operandValue p arg) false rest

/-- The values that the arguments give, by the long names of options. -/
def read (s : Signature) (args : List String) : Except UsageFault (List (String × String)) := do
  let p ← s.readFrom {} false args
  match s.operand with
  | some _ => if p.operandTaken then return p.values else throw .missingOperand
  | none => return p.values

end Signature
end Arguments
end Antipattern
