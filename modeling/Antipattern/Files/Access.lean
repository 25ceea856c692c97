/-!
What a command asks of the files around it. The commands are written for any such access, so that
they run on the files of a machine as well as on a directory that is a value.
-/

namespace Antipattern

inductive FileKind where
  | file
  | directory
deriving DecidableEq, Inhabited

/-- Why a file cannot be read or written. -/
inductive FileFault where
  | notFound
  | notDirectory
  | isDirectory
  | alreadyExists
  | notText
  | other (reason : String)
deriving DecidableEq, Inhabited

def FileFault.message : FileFault → String
  | notFound => "No such file or directory (os error 2)"
  | notDirectory => "Not a directory (os error 20)"
  | isDirectory => "Is a directory (os error 21)"
  | alreadyExists => "File exists (os error 17)"
  | notText => "stream did not contain valid UTF-8"
  | other reason => reason

structure FileAccess (m : Type → Type) where
  /-- What stands at a path; nothing if it cannot be reached. -/
  kind? : String → m (Option FileKind)
  read : String → m (Except FileFault String)
  /-- The files below a directory, each by the names that lead to it. -/
  filesBelow : String → m (List (List String))
  createDirectory : String → m (Except FileFault Unit)
  write : String → String → m (Except FileFault Unit)

namespace FileAccess

variable {m : Type → Type} [Monad m]

def isFile (fs : FileAccess m) (path : String) : m Bool := do
  return (← fs.kind? path) == some .file

end FileAccess
end Antipattern
