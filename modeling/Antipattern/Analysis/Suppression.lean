import Antipattern.Rule.Finding
import Antipattern.Syntax.Tree

/-!
Findings that warning pragmas switch off. Of the pragmas of the file at or above the finding's line
that concern its rule, the last decides. Findings without a location stay.
-/

namespace Antipattern.Suppression

/-- The disabling pragma in force for a rule at a line. -/
def disabling? (pragmas : List Pragma) (rule : String) (line : Nat) : Option Pragma :=
  ((pragmas.filter fun p => p.line ≤ line && p.concerns rule).getLast?).filter fun p =>
    p.action == .disable

/-- The pragmas of a path: those of the last tree with that path that has any. -/
def pragmasOf (trees : List SyntaxTree) (path : String) : List Pragma :=
  match trees.reverse.find? fun t => !t.pragmas.isEmpty && t.path == path with
  | some t => t.pragmas
  | none => []

def suppressor? (trees : List SyntaxTree) (f : Finding) : Option Pragma :=
  match f.location with
  | .none => none
  | .source file line _ _ _ => disabling? (pragmasOf trees file) f.ruleId line

/-- Findings that stay, and those that a pragma switches off, each in the given order. -/
def divide (trees : List SyntaxTree) (findings : List Finding) :
    List Finding × List SuppressedFinding :=
  (findings.filter fun f => (suppressor? trees f).isNone,
    findings.filterMap fun f => (suppressor? trees f).map fun p => ⟨f, p.line⟩)

/-- Divides the findings; where no tree has a pragma, they are not looked at. -/
def split (trees : List SyntaxTree) (findings : List Finding) :
    List Finding × List SuppressedFinding :=
  if trees.all fun t => t.pragmas.isEmpty then (findings, []) else divide trees findings

theorem suppressed_findings (trees : List SyntaxTree) (fs : List Finding) :
    (divide trees fs).2.map (·.finding) = fs.filter fun f => (suppressor? trees f).isSome := by
  induction fs with
  | nil => rfl
  | cons f fs ih =>
      simp only [divide] at ih ⊢
      cases h : suppressor? trees f <;> simp [h, ih]

theorem pragmasOf_eq_nil {trees : List SyntaxTree} {path : String}
    (none : ∀ t ∈ trees, t.path = path → t.pragmas = []) : pragmasOf trees path = [] := by
  unfold pragmasOf
  split
  · next t found =>
      have held := List.find?_some found
      simp only [Bool.and_eq_true, beq_iff_eq] at held
      exact none t (List.mem_reverse.mp (List.mem_of_find?_eq_some found)) held.2
  · rfl

theorem suppressor?_eq_none {trees : List SyntaxTree} {f : Finding}
    (none : ∀ t ∈ trees, f.location.file? = some t.path → t.pragmas = []) :
    suppressor? trees f = .none := by
  unfold suppressor?
  split
  · rfl
  · next file line _ _ _ located =>
      have free : pragmasOf trees file = [] :=
        pragmasOf_eq_nil fun t ht same => none t ht (by rw [located, same]; rfl)
      rw [free]
      rfl

/-- Passing over the findings where there are no pragmas divides them as ever. -/
theorem split_eq_divide (trees : List SyntaxTree) (findings : List Finding) :
    split trees findings = divide trees findings := by
  unfold split
  split
  · next free =>
      have stays : ∀ f, suppressor? trees f = none := by
        intro f
        apply suppressor?_eq_none
        intro t ht _
        exact List.isEmpty_iff.mp (List.all_eq_true.mp free t ht)
      have all : findings.filter (fun f => (suppressor? trees f).isNone) = findings :=
        List.filter_eq_self.mpr fun f _ => by rw [stays f]; rfl
      have none : findings.filterMap (fun f => (suppressor? trees f).map
          fun p => (⟨f, p.line⟩ : SuppressedFinding)) = [] :=
        List.filterMap_eq_nil_iff.mpr fun f _ => by rw [stays f]; rfl
      rw [divide, all, none]
  · rfl

end Antipattern.Suppression
