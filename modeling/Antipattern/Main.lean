import Antipattern.Command.Run

/-!
The program: its arguments, the files of the machine, and its streams.
-/

namespace Antipattern.Machine

def faultOf : IO.Error → FileFault
  | .noFileOrDirectory .. | .noSuchThing .. => .notFound
  | .inappropriateType _ code details =>
      if code == 20 then .notDirectory else if code == 21 then .isDirectory else .other details
  | .alreadyExists .. => .alreadyExists
  | e => .other (toString e)

def attempt {α : Type} (action : IO α) : IO (Except FileFault α) := do
  try return .ok (← action) catch e => return .error (faultOf e)

def kindAt (path : String) : IO (Option FileKind) := do
  let here ← IO.currentDir
  match ← attempt (here / path).metadata with
  | .ok found =>
      match found.type with
      | .dir => return some .directory
      | _ => return some .file
  | .error _ => return none

def readText (path : String) : IO (Except FileFault String) := do
  if (← kindAt path) = some .directory then return .error .isDirectory
  match ← attempt (IO.FS.readBinFile path) with
  | .error fault => return .error fault
  | .ok content =>
      match String.fromUTF8? content with
      | some text => return .ok text
      | none => return .error .notText

/-- The files below a directory; links are not followed. -/
partial def namesBelow (path : String) : IO (List (List String)) := do
  let here ← IO.currentDir
  match ← attempt (here / path).readDir with
  | .error _ => return []
  | .ok entries =>
      let below ← entries.toList.mapM fun entry => do
        match ← attempt entry.path.symlinkMetadata with
        | .ok found =>
            match found.type with
            | .dir =>
                let names ← namesBelow (Path.join path entry.fileName)
                return names.map (entry.fileName :: ·)
            | _ =>
                if (← kindAt (Path.join path entry.fileName)) = some .file then
                  return [[entry.fileName]]
                else return []
        | .error _ => return []
      return below.flatten

def access : FileAccess IO where
  kind? := kindAt
  read := readText
  filesBelow := namesBelow
  createDirectory path := attempt (IO.FS.createDir path)
  write path text := attempt (IO.FS.writeFile path text)

/-- Whether a variable of the environment is set, and to something other than zero. -/
def switch? (name : String) : IO (Option Bool) := do
  return (← IO.getEnv name).map (· ≠ "0")

def wantsColor : IO Bool := do
  if (← switch? "CLICOLOR_FORCE") = some true then return true
  if (← switch? "NO_COLOR").isSome then return false
  return (← (← IO.getStdout).isTty) && ((← switch? "CLICOLOR").getD true)

def usageText : String :=
  "Usage: apcheck lint <PATH> [--config <CONFIG>] [--format <FORMAT>] [--sequential]"
    ++ " [--show-suppressed]\n       apcheck rules\n       apcheck init [--output <OUTPUT>]\n"

def explain : UsageFault → IO Unit
  | .help => IO.print usageText
  | .version => IO.println (toolName ++ " " ++ toolVersion)
  | _ => IO.eprint usageText

end Antipattern.Machine

open Antipattern in
def main (args : List String) : IO UInt32 := do
  match Request.ofArgs args with
  | .error fault =>
      Machine.explain fault
      return fault.exitCode
  | .ok request =>
      let outcome ← request.run Machine.access (← Machine.wantsColor)
      for (path, reason) in outcome.skipped do
        IO.eprintln ("WARN file not analyzed path=" ++ path ++ " reason=" ++ reason)
      IO.eprint outcome.err
      IO.print outcome.out
      return outcome.exitCode
