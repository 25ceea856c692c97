import Antipattern.Binding.Binder
import Antipattern.CSharp.File
import Antipattern.Files.Access
import Antipattern.Files.Path
import Antipattern.Settings.Reader

/-!
The program that the C# files below a path make up. A path that is a file is taken as it is; of a
directory, the files that end in `.cs` and that no pattern excludes are taken, ordered by the names
of their paths.
-/

namespace Antipattern

/-- A file with its path, and the path that findings name. -/
structure SourceFile where
  path : String
  shown : String
deriving DecidableEq, Inhabited

def isSourceName (name : String) : Bool :=
  Path.extension? name == some "cs"

/-- Shown paths have no backslashes. -/
def shownPath (path : String) : String :=
  String.ofList (path.toList.map fun c => if c = '\\' then '/' else c)

/-- The source files below a directory, from the names that lead to each file. -/
def sourcesBelow (root : String) (excludes : List (List Glob.Part)) (files : List (List String)) :
    List SourceFile :=
  let found := files.filter fun names =>
    (names.getLast?.any isSourceName)
      && !isExcluded excludes (Path.ofNames names)
      && !isExcluded excludes (names.foldl Path.join root)
  (found.mergeSort Path.namesLE).map fun names =>
    { path := names.foldl Path.join root
      shown := shownPath (Path.ofNames names) }

/-- The files of a program that could be read, and why the others could not. -/
structure Loaded where
  program : Program
  skipped : List (String × String) := []
deriving Inhabited

variable {m : Type → Type} [Monad m]

def sourceFiles (fs : FileAccess m) (root : String) (excludes : List (List Glob.Part)) :
    m (List SourceFile) := do
  match ← fs.kind? root with
  | none => return []
  | some .file => return [{ path := root, shown := shownPath ((Path.fileName? root).getD root) }]
  | some .directory => return sourcesBelow root excludes (← fs.filesBelow root)

/-- What reading a source file gives: the parsed file, or the path and why it is skipped. -/
def readSource (fs : FileAccess m) (file : SourceFile) :
    m (Except (String × String) ParsedFile) := do
  match ← fs.read file.path with
  | .ok text => return .ok (CSharp.parseFile file.shown text)
  | .error fault =>
      return .error (file.path, "failed to read " ++ file.path ++ ": " ++ fault.message)

def loadFiles (fs : FileAccess m) (files : List SourceFile) : m Loaded := do
  let read ← files.mapM (readSource fs)
  return {
    program := Program.ofFiles (read.filterMap Except.toOption)
    skipped := read.filterMap fun
      | .ok _ => none
      | .error skipped => some skipped }

end Antipattern
