import Antipattern.Symbol.Table

/-!
The interfaces that a type reaches. The search follows base types and interfaces with a stack and
a list of the types seen, so it ends on every graph, cyclic ones too.
-/

namespace Antipattern.SymbolTable

/-- Types of the table that the search has not opened yet. -/
def unopened (t : SymbolTable) (opened : List Nat) : Nat :=
  (List.range t.symbols.size).countP fun i => !opened.contains i

theorem unopened_cons_lt {t : SymbolTable} {opened : List Nat} {i : Nat} {s : TypeSymbol}
    (hs : t.symbol? i = some s) (hi : opened.contains i = false) :
    t.unopened (i :: opened) < t.unopened opened := by
  have hlt : i < t.symbols.size := by
    simp only [symbol?] at hs
    exact (Array.getElem?_eq_some_iff.mp hs).1
  unfold unopened
  have hmem : i ∈ List.range t.symbols.size := by simpa using hlt
  have hsub : ∀ l : List Nat, l.countP (fun j => !(i :: opened).contains j) ≤
      l.countP (fun j => !opened.contains j) := by
    intro l
    apply List.countP_mono_left
    intro j _ hj
    simp only [List.contains_cons, Bool.not_or, Bool.and_eq_true] at hj
    exact hj.2
  obtain ⟨xs, ys, hxy⟩ := List.append_of_mem hmem
  rw [hxy]
  have hx := hsub xs
  have hy := hsub ys
  have hi' : i ∉ opened := by simpa using hi
  simp [hi'] at hx hy ⊢
  omega

/-- Direct interfaces join the list once each and without the type that the search started at. -/
def join (start : Nat) (found interfaces : List Nat) : List Nat :=
  interfaces.foldl
    (fun found i => if i == start || found.contains i then found else found ++ [i]) found

def reach (t : SymbolTable) (start : Nat) : List Nat → List Nat → List Nat → List Nat
  | [], _, found => found
  | current :: pending, opened, found =>
      if _ho : opened.contains current then reach t start pending opened found
      else
        match _hs : t.symbol? current with
        | none => reach t start pending opened found
        | some s =>
            reach t start (s.baseType.toList ++ (s.interfaces.reverse ++ pending))
              (current :: opened) (join start found s.interfaces)
termination_by pending opened _ => (t.unopened opened, pending.length)
decreasing_by
  · exact Prod.Lex.right _ (by simp)
  · exact Prod.Lex.right _ (by simp)
  · exact Prod.Lex.left _ _ (unopened_cons_lt _hs (by simpa using _ho))

/-- Every interface over bases and interfaces, in the order in which the search meets them. -/
def reachedInterfaces (t : SymbolTable) (id : Nat) : List Nat :=
  t.reach id [id] [] []

/-- Finishes a table: every type gets the interfaces it reaches. -/
def finish (t : SymbolTable) : SymbolTable :=
  { t with
    symbols := t.symbols.mapIdx fun i s => { s with allInterfaces := t.reachedInterfaces i }
    indexed := fun name => by
      have names : (t.symbols.mapIdx fun i s =>
          { s with allInterfaces := t.reachedInterfaces i }).map (·.displayName) =
          t.symbols.map (·.displayName) := by
        apply Array.ext <;> simp
      rw [names, t.indexed] }

end Antipattern.SymbolTable
