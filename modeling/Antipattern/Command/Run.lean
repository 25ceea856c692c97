import Antipattern.Analysis.Runner
import Antipattern.Command.Request
import Antipattern.Files.Loading
import Antipattern.Report.Printed
import Antipattern.Settings.Template

/-!
The commands. Each is a function of its request and of the files it can reach.
-/

namespace Antipattern

/-- What a command leaves behind: its exit code, its texts, and the source files that it left out
with the reason. -/
structure Outcome where
  exitCode : UInt32 := 0
  out : String := ""
  err : String := ""
  skipped : List (String × String) := []
deriving DecidableEq, Inhabited

namespace Outcome

def failed : UInt32 := 1

def error : UInt32 := 2

/-- An error with these lines. -/
def refusal (lines : List String) : Outcome where
  exitCode := error
  err := "Error: " ++ String.join (lines.map (· ++ "\n"))

end Outcome

variable {m : Type → Type} [Monad m]

/-- Makes a directory and those that are missing above it. -/
def createDirectories (fs : FileAccess m) (path : String) : m (Except FileFault Unit) := do
  if path = "" then return .ok ()
  match ← fs.createDirectory path with
  | .ok () => return .ok ()
  | .error .notFound =>
      match _h : Path.parent? path with
      | none => return .error (.other "failed to create whole tree")
      | some parent =>
          match ← createDirectories fs parent with
          | .error fault => return .error fault
          | .ok () =>
              match ← fs.createDirectory path with
              | .ok () => return .ok ()
              | .error fault => existing fault
  | .error fault => existing fault
termination_by path.length
decreasing_by exact Path.parent?_length_lt _h
where
  existing (fault : FileFault) : m (Except FileFault Unit) := do
    if (← fs.kind? path) = some .directory then return .ok () else return .error fault

namespace Settings

/-- The names under which settings are looked for, the first one first. -/
def fileNames : List String := ["apcheck.yaml", "apcheck.yml", ".apcheck.yaml"]

def findFile (fs : FileAccess m) (directory : String) : List String → m (Option String)
  | [] => return none
  | name :: rest => do
      if ← fs.isFile (Path.join directory name) then return some (Path.join directory name)
      else findFile fs directory rest

/-- The settings at a path, or the text that says why there are none. -/
def load (fs : FileAccess m) (path : String) : m (Except String Settings) := do
  match ← fs.read path with
  | .error fault => return .error ("failed to read config " ++ path ++ ": " ++ fault.message)
  | .ok text => return (Settings.parse text).mapError SettingsError.message

/-- The path of the settings for a run: the one that is given, or the one beside the sources. -/
def choose (fs : FileAccess m) (given : Option String) (root : String) : m (Option String) := do
  match given with
  | some path => return some path
  | none =>
      if ← fs.isFile root then findFile fs ((Path.parent? root).getD root) fileNames
      else findFile fs root fileNames

end Settings

namespace LintRequest

/-- Analyzes sources with settings that have been chosen. -/
def runWith (r : LintRequest) (fs : FileAccess m) (color : Bool) (format : ReportFormat)
    (config : Option String) (settings : Settings) : m Outcome := do
  match settings.excludes with
  | .error e => return .refusal [e.message]
  | .ok excludes =>
      let loaded ← loadFiles fs (← sourceFiles fs r.path excludes)
      let (result, _) := (Runner.ofSettings settings).run loaded.program {}
      return {
        exitCode := if result.passed then 0 else Outcome.failed
        out := printed
          { format, path := r.path, config, showSuppressed := r.showSuppressed, color } result
        err := if loaded.program.trees.isEmpty then "Warning: no C# files to analyze\n" else ""
        skipped := loaded.skipped }

def run (r : LintRequest) (fs : FileAccess m) (color : Bool) : m Outcome := do
  match ReportFormat.parse r.format with
  | .error e => return .refusal [e.message]
  | .ok format =>
      if (← fs.kind? r.path).isNone then
        return .refusal ["cannot access path " ++ Text.quoted r.path]
      let config ← Settings.choose fs r.config r.path
      let settings ← match config with
        | none => pure (.ok {})
        | some path => Settings.load fs path
      match settings with
      | .error message => return .refusal ["invalid config: " ++ message]
      | .ok settings => r.runWith fs color format config settings

end LintRequest

namespace Request

/-- The list of the rules. -/
def rulesText (color : Bool) : String :=
  "Built-in rules:\n\n" ++ String.join (Rule.builtin.map fun rule =>
    "  " ++ styledTo 6 color .bold rule.id ++ " " ++ padded 8 rule.defaultSeverity.text ++ " "
      ++ styledTo 11 color .dimmed rule.category ++ " " ++ rule.title ++ "\n"
      ++ "         " ++ styled color .dimmed rule.description ++ "\n")

def createdText (output : String) : String :=
  "Created " ++ output ++ "\n\nNext steps:\n  1. Edit " ++ output
    ++ " to tune thresholds and rules\n  2. Run: apcheck lint . --config " ++ output ++ "\n"

/-- Makes the directories above a path, if it has any. -/
def prepare (fs : FileAccess m) (output : String) : m (Except FileFault Unit) :=
  match Path.parent? output with
  | none | some "" | some "." => return .ok ()
  | some parent => createDirectories fs parent

/-- Writes settings with all defaults to a path where nothing stands yet. -/
def writeTemplate (fs : FileAccess m) (output : String) : m Outcome := do
  if (← fs.kind? output).isSome then
    return .refusal ["file already exists: " ++ output,
      "Remove it or use --output to specify a different path"]
  match ← prepare fs output with
  | .error fault => return .refusal ["failed to create directory: " ++ fault.message]
  | .ok () =>
      match ← fs.write output Settings.template with
      | .error fault => return .refusal ["failed to write config: " ++ fault.message]
      | .ok () => return { out := createdText output }

def run (fs : FileAccess m) (color : Bool) : Request → m Outcome
  | .lint r => r.run fs color
  | .rules => return { out := rulesText color }
  | .init output => writeTemplate fs output

end Request
end Antipattern
