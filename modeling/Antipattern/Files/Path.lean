import Antipattern.Order.Lexicographic
import Antipattern.Text.Split

/-!
Paths as they are written: names with slashes between them. Slashes at the end, doubled slashes and
single dots behind another name do not count as names.
-/

namespace Antipattern.Path

/-- Leaves out slashes and single dots at the start of a reversed path, but for a dot or a slash
that is the whole of it. -/
def dropIdle : List Char → List Char
  | ['/'] => ['/']
  | '/' :: cs => dropIdle cs
  | '.' :: '/' :: cs => dropIdle ('/' :: cs)
  | cs => cs

theorem dropIdle_length_le (cs : List Char) : (dropIdle cs).length ≤ cs.length := by
  fun_induction dropIdle cs <;> simp_all <;> omega

/-- The last name of a reversed path, reversed. -/
def lastName (cs : List Char) : List Char :=
  (dropIdle cs).takeWhile (· ≠ '/')

/-- What stands before the last name of a reversed path. -/
def beforeLastName (cs : List Char) : List Char :=
  dropIdle ((dropIdle cs).dropWhile (· ≠ '/'))

/-- The path without its last name; it is empty for a single name. -/
def parent? (path : String) : Option String :=
  if lastName path.toList.reverse = [] then none
  else some (String.ofList (beforeLastName path.toList.reverse).reverse)

theorem beforeLastName_length_lt {cs : List Char} (h : lastName cs ≠ []) :
    (beforeLastName cs).length < cs.length := by
  have idle := dropIdle_length_le cs
  have rest := dropIdle_length_le ((dropIdle cs).dropWhile (· ≠ '/'))
  have parts := congrArg List.length
    (List.takeWhile_append_dropWhile (p := (· ≠ '/')) (l := dropIdle cs))
  have pos := List.length_pos_iff.2 h
  rw [List.length_append] at parts
  simp only [lastName, beforeLastName] at *
  omega

/-- A path is longer than what is left without its last name. -/
theorem parent?_length_lt {path parent : String} (h : parent? path = some parent) :
    parent.length < path.length := by
  simp only [parent?] at h
  split at h
  · cases h
  · cases h
    rename_i named
    have shorter := beforeLastName_length_lt named
    simp only [← String.length_toList, String.toList_ofList, List.length_reverse] at *
    exact shorter

/-- The last name, unless it only points at a directory. -/
def fileName? (path : String) : Option String :=
  match String.ofList (lastName path.toList.reverse).reverse with
  | "" | "." | ".." => none
  | name => some name

/-- The path of an entry of a directory. -/
def join (directory name : String) : String :=
  if directory.toList = [] ∨ directory.toList.getLast? = some '/' then directory ++ name
  else directory ++ "/" ++ name

/-- What stands behind the last dot of a name; a dot at the start does not count. -/
def extension? (name : String) : Option String :=
  match Text.beforeLast? '.' name.toList with
  | none | some [] => none
  | some _ => some (String.ofList (Text.afterLast '.' name.toList))

/-- Names below each other as one path. -/
def ofNames (names : List String) : String :=
  "/".intercalate names

/-- The order of paths by their names. -/
def namesLE (as bs : List String) : Bool :=
  lexLE (fun a b => decide (a < b)) as bs

end Antipattern.Path
