import Antipattern.Files.Access
import Antipattern.Text.Split

/-!
A directory as a value: files with their bytes, and directories with named entries. A path is
followed name by name; `..` goes back to the directory that was passed last, and every name but the
last has to be a directory.
-/

namespace Antipattern

inductive FileEntry where
  | file (content : ByteArray)
  | directory (entries : List (String × FileEntry))
deriving Inhabited

namespace FileEntry

def empty : FileEntry := .directory []

def kind : FileEntry → FileKind
  | file _ => .file
  | directory _ => .directory

def entry? (name : String) : FileEntry → Option FileEntry
  | file _ => none
  | directory entries => entries.lookup name

/-- What the names lead to, each an entry of the one before. -/
def at? (root : FileEntry) (names : List String) : Option FileEntry :=
  names.foldlM (fun e name => e.entry? name) root

/-- Puts an entry behind the names, with the directories that are missing on the way. -/
def insert (new : FileEntry) : List String → FileEntry → FileEntry
  | [], _ => new
  | name :: rest, old =>
      let entries := match old with
        | directory entries => entries
        | file _ => []
      let below := (entries.lookup name).getD empty
      let kept := entries.filter (·.1 ≠ name)
      directory (kept ++ [(name, insert new rest below)])

/-- The files below an entry, each by the names that lead to it. -/
def files : FileEntry → List (List String × ByteArray)
  | file content => [([], content)]
  | directory entries => filesOf entries
where
  filesOf : List (String × FileEntry) → List (List String × ByteArray)
    | [] => []
    | (name, e) :: rest => (files e).map (fun f => (name :: f.1, f.2)) ++ filesOf rest

/-- The names of a path as they are written, also the empty ones and the dots. -/
def writtenNames (path : String) : List String :=
  (Text.pieces '/' path.toList).map String.ofList

/-- Follows names from the directory behind `passed`, the names to it in reverse. -/
def follow (root : FileEntry) : List String → List String → Except FileFault (List String)
  | passed, [] => .ok passed
  | passed, name :: rest =>
      match root.at? passed.reverse with
      | some (directory entries) =>
          match name with
          | "" | "." => follow root passed rest
          | ".." => follow root passed.tail rest
          | name =>
              if (entries.lookup name).isSome then follow root (name :: passed) rest
              else .error .notFound
      | _ => .error .notDirectory

/-- The names that lead to what stands at a path. -/
def locate (root : FileEntry) (path : String) : Except FileFault (List String) :=
  if path.isEmpty then .error .notFound
  else (root.follow [] (writtenNames path)).map List.reverse

def find (root : FileEntry) (path : String) : Except FileFault FileEntry := do
  match root.at? (← root.locate path) with
  | some e => .ok e
  | none => .error .notFound

def read (root : FileEntry) (path : String) : Except FileFault String := do
  match ← root.find path with
  | directory _ => .error .isDirectory
  | file content =>
      match String.fromUTF8? content with
      | some text => .ok text
      | none => .error .notText

/-- The last of written names that is not empty, those before it, and whether a slash ends them. -/
def splitLast (names : List String) : List String × String × Bool :=
  match names.reverse with
  | [] => ([], "", false)
  | last :: before =>
      if last ≠ "" then (before.reverse, last, false)
      else
        match before.dropWhile (· = "") with
        | [] => ([], "", true)
        | last :: before => (before.reverse, last, true)

/-- The names to the directory that holds the last of written names. -/
def locateHolder (root : FileEntry) (names : List String) : Except FileFault (List String) := do
  let passed ← root.follow [] names
  match root.at? passed.reverse with
  | some (directory _) => .ok passed.reverse
  | _ => .error .notDirectory

def isDot (name : String) : Bool :=
  name == "." || name == ".." || name.isEmpty

/-- Writes a file into a directory that is there; a path that can only be a directory is refused. -/
def write (root : FileEntry) (path text : String) : Except FileFault FileEntry := do
  if path.isEmpty then .error .notFound
  let (names, last, closed) := splitLast (writtenNames path)
  let holder ← root.locateHolder names
  if closed || isDot last then .error .isDirectory
  match root.at? (holder ++ [last]) with
  | some (directory _) => .error .isDirectory
  | _ => .ok (insert (.file text.toUTF8) (holder ++ [last]) root)

def createDirectory (root : FileEntry) (path : String) : Except FileFault FileEntry := do
  if path.isEmpty then .error .notFound
  let (names, last, _) := splitLast (writtenNames path)
  let holder ← root.locateHolder names
  if isDot last || (root.at? (holder ++ [last])).isSome then .error .alreadyExists
  .ok (insert empty (holder ++ [last]) root)

/-- The directory with these entries, and the directories on the way to them. -/
def ofEntries (entries : List (String × FileEntry)) : FileEntry :=
  entries.foldl (fun root (path, e) =>
    insert e ((writtenNames path).filter fun name => name ≠ "" ∧ name ≠ ".") root) empty

/-- A change of the directory that keeps it if it fails. -/
def update (change : FileEntry → Except FileFault FileEntry) :
    StateM FileEntry (Except FileFault Unit) := do
  match change (← get) with
  | .ok root =>
      set root
      return .ok ()
  | .error fault => return .error fault

/-- Access to a directory that is the state. -/
def access : FileAccess (StateM FileEntry) where
  kind? path := do return ((← get).find path).toOption.map kind
  read path := do return (← get).read path
  filesBelow path := do
    match (← get).find path with
    | .ok e => return e.files.map (·.1)
    | .error _ => return []
  createDirectory path := update (·.createDirectory path)
  write path text := update (·.write path text)

end FileEntry
end Antipattern
