import Antipattern.Proofs.InterfaceClosure

/-!
The search for interfaces, round by round. Every round takes one type off the stack, and a type puts
what it extends on the stack once, so on every table the search is over after at most one round for
each entry of a base type or an interface and one for the start. It finds each interface once.
-/

namespace Antipattern.SymbolTable

/-- What the search holds before a round. -/
structure Search where
  pending : List Nat
  opened : List Nat
  found : List Nat

/-- A round takes a type off the stack. A type that was opened before or is not in the table is
passed over; the interfaces of another one are found, and they and its base type go on the stack. -/
inductive Search.Round (t : SymbolTable) (start : Nat) : Search → Search → Prop
  | pass {current : Nat} {pending opened found : List Nat}
      (known : current ∈ opened ∨ t.symbol? current = none) :
      Round t start ⟨current :: pending, opened, found⟩ ⟨pending, opened, found⟩
  | extend {current : Nat} {pending opened found : List Nat} {s : TypeSymbol}
      (new : current ∉ opened) (held : t.symbol? current = some s) :
      Round t start ⟨current :: pending, opened, found⟩
        ⟨s.baseType.toList ++ (s.interfaces.reverse ++ pending), current :: opened,
          join start found s.interfaces⟩

/-- The search is over after this many rounds, with these interfaces. -/
inductive Search.Ends (t : SymbolTable) (start : Nat) : Nat → Search → List Nat → Prop
  | done {opened found : List Nat} : Ends t start 0 ⟨[], opened, found⟩ found
  | next {rounds : Nat} {state state' : Search} {result : List Nat}
      (round : Round t start state state') (ends : Ends t start rounds state' result) :
      Ends t start (rounds + 1) state result

/-- What a type extends: its base type and its direct interfaces. -/
def links (t : SymbolTable) (id : Nat) : List Nat :=
  (t.symbol? id).elim [] fun s => s.baseType.toList ++ s.interfaces

/-- What the types extend that are still to be opened. -/
def linksAhead (t : SymbolTable) (opened : List Nat) : List Nat :=
  ((List.range t.symbols.size).filter fun i => !opened.contains i).flatMap t.links

/-- What all types of the table extend. -/
def allLinks (t : SymbolTable) : List Nat :=
  (List.range t.symbols.size).flatMap t.links

theorem linksAhead_nil (t : SymbolTable) : t.linksAhead [] = t.allLinks := by
  rw [linksAhead, allLinks]
  congr 1
  apply List.filter_eq_self.mpr
  intro i _
  rfl

/-- Opening a type takes what it extends out of what is ahead. -/
theorem length_linksAhead {t : SymbolTable} {opened : List Nat} {i : Nat} {s : TypeSymbol}
    (held : t.symbol? i = some s) (new : i ∉ opened) :
    (t.linksAhead opened).length = (t.links i).length + (t.linksAhead (i :: opened)).length := by
  have inside : i < t.symbols.size := (Array.getElem?_eq_some_iff.mp held).1
  have listed : i ∈ (List.range t.symbols.size).filter fun j => !opened.contains j := by
    simp [inside, new]
  have rest : ((List.range t.symbols.size).filter fun j => !(i :: opened).contains j) =
      ((List.range t.symbols.size).filter fun j => !opened.contains j).erase i := by
    rw [List.Nodup.erase_eq_filter (List.nodup_range.filter _), List.filter_filter]
    apply List.filter_congr
    intro j _
    rw [List.contains_cons, Bool.not_or]
    rfl
  have same := ((List.perm_cons_erase listed).flatMap_right t.links).length_eq
  rw [List.flatMap_cons, List.length_append] at same
  rw [linksAhead, linksAhead, rest, same]

/-- The search ends. What is on the stack and what the types ahead extend bounds its rounds. -/
theorem ends_reach (t : SymbolTable) (start : Nat) (pending opened found : List Nat) :
    ∃ rounds, rounds ≤ pending.length + (t.linksAhead opened).length ∧
      Search.Ends t start rounds ⟨pending, opened, found⟩ (t.reach start pending opened found) := by
  fun_induction reach t start pending opened found with
  | case1 opened found => exact ⟨0, Nat.zero_le _, .done⟩
  | case2 current pending opened found known ih =>
      obtain ⟨rounds, bound, ends⟩ := ih
      refine ⟨rounds + 1, ?_, .next (.pass (.inl (List.contains_iff_mem.mp known))) ends⟩
      rw [List.length_cons]
      omega
  | case3 current pending opened found new absent ih =>
      obtain ⟨rounds, bound, ends⟩ := ih
      refine ⟨rounds + 1, ?_, .next (.pass (.inr absent)) ends⟩
      rw [List.length_cons]
      omega
  | case4 current pending opened found known s held ih =>
      obtain ⟨rounds, bound, ends⟩ := ih
      have new : current ∉ opened := fun mem => known (List.contains_iff_mem.mpr mem)
      refine ⟨rounds + 1, ?_, .next (.extend new held) ends⟩
      have ahead := length_linksAhead held new
      have own : (t.links current).length = s.baseType.toList.length + s.interfaces.length := by
        rw [links, held, Option.elim_some, List.length_append]
      simp only [List.length_append, List.length_reverse] at bound
      rw [List.length_cons]
      omega

theorem nodup_join {start : Nat} {found interfaces : List Nat} (h : found.Nodup) :
    (join start found interfaces).Nodup := by
  rw [join]
  induction interfaces generalizing found with
  | nil => exact h
  | cons i interfaces ih =>
      rw [List.foldl_cons]
      apply ih
      split
      · exact h
      · next fresh =>
          simp only [Bool.or_eq_true, List.contains_iff_mem, not_or] at fresh
          apply List.nodup_append.mpr
          refine ⟨h, List.pairwise_singleton _ _, ?_⟩
          intro a listed b same eq
          apply fresh.2
          rw [← List.mem_singleton.mp same, ← eq]
          exact listed

theorem nodup_reach {t : SymbolTable} {start : Nat} {pending opened found : List Nat}
    (h : found.Nodup) : (t.reach start pending opened found).Nodup := by
  fun_induction reach t start pending opened found with
  | case1 opened found => exact h
  | case2 current pending opened found known ih => exact ih h
  | case3 current pending opened found new absent ih => exact ih h
  | case4 current pending opened found new s held ih => exact ih (nodup_join h)

/-- On every table and for every id, the search ends and lists once each interface of a type that is
reached over base types and interfaces, the start apart; and a type implements what the definitions
of these interfaces are. -/
theorem interfaces_of_search (t : SymbolTable) (id : Nat) :
    (∃ rounds, rounds ≤ 1 + t.allLinks.length ∧
        Search.Ends t id rounds ⟨[id], [], []⟩ (t.reachedInterfaces id)) ∧
      (t.reachedInterfaces id).Nodup ∧
      (∀ x, x ∈ t.reachedInterfaces id ↔
        x ≠ id ∧ ∃ y s, t.Reaches id y ∧ t.symbol? y = some s ∧ x ∈ s.interfaces) ∧
      ∀ k, t.finish.implements (some id) k = true ↔
        ∃ x, (x ≠ id ∧ ∃ y s, t.Reaches id y ∧ t.symbol? y = some s ∧ x ∈ s.interfaces) ∧
          t.finish.is (some (t.finish.originalDefinition x)) k = true := by
  refine ⟨?_, nodup_reach List.nodup_nil, fun x => mem_reachedInterfaces_iff, fun k => ?_⟩
  · have ends := ends_reach t id [id] [] []
    rw [linksAhead_nil] at ends
    exact ends
  · rw [implements_finish_iff]
    apply exists_congr
    intro x
    rw [inherits_finish, and_assoc, Inherits]

end Antipattern.SymbolTable
