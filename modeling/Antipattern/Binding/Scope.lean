import Antipattern.Binding.Catalog
import Antipattern.Text.Blank

/-!
Where a name is written, and the full names it can mean there, the nearest first.
-/

namespace Antipattern

structure Scope where
  namespaceName : String := ""
  /-- Display names of the types around, the outermost first. -/
  enclosing : List String := []
  usings : List String := []
deriving DecidableEq, Inhabited

/-- A name inside a container; the empty container adds nothing. -/
def qualify (container name : String) : String :=
  if container.isEmpty then name else container ++ "." ++ name

namespace Scope

/-- The namespace and those around it, without the nameless one. -/
def chainOf (n : List Char) : List (List Char) :=
  if n.isEmpty then []
  else
    match _h : Text.beforeLast? '.' n with
    | none => [n]
    | some outer => n :: chainOf outer
termination_by n.length
decreasing_by
  unfold Text.beforeLast? at _h
  have hle := (List.dropWhile_suffix (p := fun c : Char => decide (c ≠ '.')) (l := n.reverse)).length_le
  split at _h
  · simp at _h
  · next c rest hd =>
      rw [hd] at hle
      simp only [Option.some.injEq] at _h
      simp only [List.length_cons, List.length_reverse] at hle
      rw [← _h]
      simp only [List.length_reverse]
      omega

def namespaceChain (s : Scope) : List String :=
  (chainOf s.namespaceName.toList).map String.ofList

/-- Full names that a name can mean: in the types around from the inside out, in the namespaces
around, at the top, in the imported namespaces, and in those that every file sees. -/
def candidates (s : Scope) (name : String) : List String :=
  (s.enclosing.reverse.map fun e => withoutTypeArgs e ++ "." ++ name) ++
    (s.namespaceChain.map fun n => n ++ "." ++ name) ++
    [name] ++
    (s.usings.map fun u => u ++ "." ++ name) ++
    (Catalog.implicitNamespaces.map fun u => u ++ "." ++ name)

end Scope

/-- A type reference without blanks and without a leading `global::`. -/
def normalizeReference (text : String) : String :=
  let cs := Text.removeBlanks text.toList
  String.ofList ((Text.after? "global::".toList cs).getD cs)

/-- The naming convention for interfaces: the last part starts with `I` and a capital. -/
def looksLikeInterface (reference : String) : Bool :=
  match Text.afterLast '.' (reference.toList.takeWhile (· ≠ '<')) with
  | 'I' :: c :: _ => c.isUpper
  | _ => false

end Antipattern
