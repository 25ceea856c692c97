import Antipattern.Report.Sarif
import Antipattern.Report.Summary

/-!
Reading structured values by the names of their fields. A field that is left out is absent, and the
first of two fields of one name is the one that is read.
-/

namespace Antipattern.Json

/-- The value behind a path of field names. -/
def at? (j : Json) : List String → Option Json
  | [] => some j
  | name :: path => (j.field? name).bind (at? · path)

@[simp] theorem at?_nil (j : Json) : j.at? [] = some j := rfl

theorem at?_cons (j : Json) (name : String) (path : List String) :
    j.at? (name :: path) = (j.field? name).bind (at? · path) := rfl

@[simp] theorem at?_singleton (j : Json) (name : String) : j.at? [name] = j.field? name := by
  rw [at?_cons]
  cases j.field? name <;> rfl

variable {α : Type} (name : String)

@[simp] theorem field?_nil : (obj []).field? name = none := rfl

@[simp] theorem field?_cons (other : String) (value : Json) (fields : List (String × Json)) :
    (obj ((other, value) :: fields)).field? name =
      if name = other then some value else (obj fields).field? name := by
  rw [field?, field?, List.lookup_cons]
  by_cases same : name = other
  · rw [if_pos same, same, beq_self_eq_true]
  · rw [if_neg same, beq_false_of_ne same]

@[simp] theorem field?_append (xs ys : List (String × Json)) :
    (obj (xs ++ ys)).field? name = ((obj xs).field? name).or ((obj ys).field? name) :=
  List.lookup_append

@[simp] theorem field?_optional (other : String) (value : α → Json) (o : Option α) :
    (obj (optional other value o)).field? name = if name = other then o.map value else none := by
  cases o <;> simp [optional]

@[simp] theorem field?_nonempty (other : String) (value : α → Json) (items : List α) :
    (obj (nonempty other value items)).field? name =
      if name = other ∧ items ≠ [] then some (arr (items.map value)) else none := by
  cases items <;> simp [nonempty]

end Antipattern.Json
