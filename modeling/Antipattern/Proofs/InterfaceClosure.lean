import Antipattern.Proofs.TableNames
import Antipattern.Symbol.Hierarchy

/-!
The interfaces that a type reaches. The search finds the direct interfaces of all types that can be
reached over base types and interfaces, apart from the type that it starts at. Original definitions
play no part in it: a type that is filled in reaches what is entered for it and no more.
-/

namespace Antipattern.SymbolTable

/-- A type has another as its base type or as an interface. -/
def Extends (t : SymbolTable) (x y : Nat) : Prop :=
  ∃ s, t.symbol? x = some s ∧ (s.baseType = some y ∨ y ∈ s.interfaces)

/-- What can be reached over base types and interfaces, the type itself included. -/
inductive Reaches (t : SymbolTable) (x : Nat) : Nat → Prop
  | self : Reaches t x x
  | next {y z : Nat} (reached : Reaches t x y) (edge : t.Extends y z) : Reaches t x z

theorem Reaches.trans {t : SymbolTable} {x y z : Nat} (h : t.Reaches x y) (h' : t.Reaches y z) :
    t.Reaches x z := by
  induction h' with
  | self => exact h
  | next _ edge ih => exact ih.next edge

theorem Reaches.eq_of_absent {t : SymbolTable} {x y : Nat} (h : t.Reaches x y)
    (absent : t.symbol? x = none) : y = x := by
  induction h with
  | self => rfl
  | next _ edge ih =>
      obtain ⟨s, hs, -⟩ := edge
      rw [ih, absent] at hs
      cases hs

/-- An interface of a type that is reached. -/
def Inherits (t : SymbolTable) (x interface : Nat) : Prop :=
  ∃ y s, t.Reaches x y ∧ t.symbol? y = some s ∧ interface ∈ s.interfaces

theorem mem_join {start x : Nat} {found interfaces : List Nat} :
    x ∈ join start found interfaces ↔ x ∈ found ∨ x ≠ start ∧ x ∈ interfaces := by
  rw [join]
  induction interfaces generalizing found with
  | nil => simp
  | cons i interfaces ih =>
      rw [List.foldl_cons, ih]
      split <;> grind

/-- The state of a search: what is opened or still to be opened is reached, the interfaces of what
is opened are found, and nothing that an opened type extends is forgotten. -/
structure Searching (t : SymbolTable) (start : Nat) (pending opened found : List Nat) : Prop where
  ahead : ∀ y ∈ pending, t.Reaches start y
  behind : ∀ y ∈ opened, t.Reaches start y
  lists : ∀ x, x ∈ found ↔
    x ≠ start ∧ ∃ y ∈ opened, ∃ s, t.symbol? y = some s ∧ x ∈ s.interfaces
  closed : ∀ y ∈ opened, ∀ z, t.Extends y z →
    z ∈ opened ∨ z ∈ pending ∨ t.symbol? z = none
  root : start ∈ opened ∨ start ∈ pending ∨ t.symbol? start = none

namespace Searching

variable {t : SymbolTable} {start current : Nat} {pending opened found : List Nat}

theorem initial (t : SymbolTable) (id : Nat) : Searching t id [id] [] [] where
  ahead y hy := List.mem_singleton.mp hy ▸ .self
  behind := nofun
  lists x := by simp
  closed := nofun
  root := .inr (.inl List.mem_cons_self)

/-- A type that was opened before, or is not in the table, is passed over. -/
theorem skip (h : Searching t start (current :: pending) opened found)
    (known : current ∈ opened ∨ t.symbol? current = none) :
    Searching t start pending opened found where
  ahead y hy := h.ahead y (List.mem_cons_of_mem _ hy)
  behind := h.behind
  lists := h.lists
  closed y hy z edge := by
    have := h.closed y hy z edge
    grind
  root := by
    have := h.root
    grind

theorem extend {s : TypeSymbol} (h : Searching t start (current :: pending) opened found)
    (hs : t.symbol? current = some s) :
    Searching t start (s.baseType.toList ++ (s.interfaces.reverse ++ pending)) (current :: opened)
      (join start found s.interfaces) := by
  have here := h.ahead current List.mem_cons_self
  have edges (z : Nat) : t.Extends current z ↔ z ∈ s.baseType.toList ∨ z ∈ s.interfaces := by
    simp [Extends, hs]
  refine ⟨?_, ?_, ?_, ?_, ?_⟩
  · intro y hy
    rcases List.mem_append.mp hy with base | hy
    · exact here.next ((edges y).mpr (.inl base))
    · rcases List.mem_append.mp hy with interface | later
      · exact here.next ((edges y).mpr (.inr (List.mem_reverse.mp interface)))
      · exact h.ahead y (List.mem_cons_of_mem _ later)
  · exact List.forall_mem_cons.mpr ⟨here, h.behind⟩
  · intro x
    rw [mem_join, h.lists]
    simp only [List.mem_cons, exists_eq_or_imp, hs, Option.some.injEq, exists_eq_left']
    rw [and_or_left, or_comm]
  · intro y hy z edge
    rcases List.mem_cons.mp hy with rfl | hy
    · have := (edges z).mp edge
      grind
    · have := h.closed y hy z edge
      grind
  · have := h.root
    grind

/-- With nothing left to open, all that is reached has been opened. -/
theorem done (h : Searching t start [] opened found) (x : Nat) :
    x ∈ found ↔ x ≠ start ∧ t.Inherits start x := by
  have all {y : Nat} (reached : t.Reaches start y) : y ∈ opened ∨ t.symbol? y = none := by
    induction reached with
    | self => simpa using h.root
    | next _ edge ih =>
        rcases ih with opened | absent
        · simpa using h.closed _ opened _ edge
        · obtain ⟨s, hs, -⟩ := edge
          rw [absent] at hs
          cases hs
  rw [h.lists]
  refine and_congr_right fun _ => ?_
  constructor
  · rintro ⟨y, hy, s, hs, interface⟩
    exact ⟨y, s, h.behind y hy, hs, interface⟩
  · rintro ⟨y, s, reached, hs, interface⟩
    rcases all reached with opened | absent
    · exact ⟨y, opened, s, hs, interface⟩
    · rw [absent] at hs
      cases hs

theorem mem_reach (h : Searching t start pending opened found) (x : Nat) :
    x ∈ t.reach start pending opened found ↔ x ≠ start ∧ t.Inherits start x := by
  fun_induction reach t start pending opened found with
  | case1 opened found => exact h.done x
  | case2 current pending opened found known ih =>
      exact ih (h.skip (.inl (List.contains_iff_mem.mp known)))
  | case3 current pending opened found new absent ih => exact ih (h.skip (.inr absent))
  | case4 current pending opened found new s hs ih => exact ih (h.extend hs)

end Searching

theorem mem_reachedInterfaces_iff {t : SymbolTable} {id x : Nat} :
    x ∈ t.reachedInterfaces id ↔ x ≠ id ∧ t.Inherits id x :=
  (Searching.initial t id).mem_reach x

theorem extends_finish {t : SymbolTable} {x y : Nat} : t.finish.Extends x y ↔ t.Extends x y := by
  simp only [Extends, symbol?_finish, Option.map_eq_some_iff]
  constructor
  · rintro ⟨_, ⟨s, hs, rfl⟩, edge⟩
    exact ⟨s, hs, edge⟩
  · rintro ⟨s, hs, edge⟩
    exact ⟨_, ⟨s, hs, rfl⟩, edge⟩

theorem inherits_finish {t : SymbolTable} {x i : Nat} : t.finish.Inherits x i ↔ t.Inherits x i := by
  have reaches {t t' : SymbolTable} (edges : ∀ {x y}, t.Extends x y → t'.Extends x y) {y : Nat}
      (h : t.Reaches x y) : t'.Reaches x y := by
    induction h with
    | self => exact .self
    | next _ edge ih => exact ih.next (edges edge)
  simp only [Inherits, symbol?_finish, Option.map_eq_some_iff]
  constructor
  · rintro ⟨y, _, reached, ⟨s, hs, rfl⟩, interface⟩
    exact ⟨y, s, reaches extends_finish.mp reached, hs, interface⟩
  · rintro ⟨y, s, reached, hs, interface⟩
    exact ⟨y, _, reaches extends_finish.mpr reached, ⟨s, hs, rfl⟩, interface⟩

/-- A type implements what the interfaces that it reaches, or their definitions, are. -/
theorem implements_finish_iff {t : SymbolTable} {id : Nat} {k : KnownType} :
    t.finish.implements (some id) k = true ↔
      ∃ x, x ≠ id ∧ t.finish.Inherits id x ∧
        t.finish.is (some (t.finish.originalDefinition x)) k = true := by
  have absent (none : t.symbol? id = none) {x : Nat} : ¬ t.Inherits id x := by
    rintro ⟨y, s, reached, hs, -⟩
    rw [reached.eq_of_absent none, none] at hs
    cases hs
  simp only [inherits_finish, implements, Option.bind_some]
  rw [symbol?_finish]
  cases hs : t.symbol? id with
  | none => simp [absent hs]
  | some s => simp only [Option.map_some, List.any_eq_true, mem_reachedInterfaces_iff, and_assoc]

end Antipattern.SymbolTable
