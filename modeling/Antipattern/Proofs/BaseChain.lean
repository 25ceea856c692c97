import Antipattern.Symbol.Hierarchy

/-!
Subtypes by the bare chain of base types. The search up the chain stops at a type that it has met
before. From there on the chain only repeats types that the search has passed over, so the stop
saves steps and changes no answer, on cyclic tables too.
-/

namespace Antipattern.SymbolTable

/-- The type that lies `n` steps up the chain of base types, each taken by its definition. -/
def ancestor? (t : SymbolTable) (id : Option Nat) : Nat → Option Nat
  | 0 => id
  | n + 1 => (t.ancestor? id n).bind fun x =>
      (t.symbol? x).bind fun s => s.baseType.map t.originalDefinition

section

variable {t : SymbolTable} {k : KnownType} {id : Option Nat}

theorem ancestor?_succ (n : Nat) : t.ancestor? id (n + 1) = (t.ancestor? id n).bind t.baseStep := by
  rw [ancestor?]
  congr 1
  funext x
  rw [baseStep, Option.map_bind]
  rfl

theorem is_none : t.is none k = false := rfl

/-- Only a type of the table can be the known type. -/
theorem symbol_of_is {x : Nat} (h : t.is (some x) k = true) : ∃ s, t.symbol? x = some s := by
  cases found : t.symbol? x with
  | none => simp [is, found] at h
  | some s => exact ⟨s, rfl⟩

/-- Where two stretches of the chain start at the same type, they run through the same types. -/
theorem ancestor?_add_congr {i j : Nat} (same : t.ancestor? id i = t.ancestor? id j) (n : Nat) :
    t.ancestor? id (i + n) = t.ancestor? id (j + n) := by
  induction n with
  | zero => exact same
  | succ n ih =>
      rw [← Nat.add_assoc, ← Nat.add_assoc, ancestor?_succ, ancestor?_succ, ih]

theorem ancestor?_eq_none_of_le {m n : Nat} (ended : t.ancestor? id m = none) (le : m ≤ n) :
    t.ancestor? id n = none := by
  induction le with
  | refl => exact ended
  | step _ ih => rw [ancestor?, ih, Option.bind_none]

/-- The first `m` types of the chain are not the known type. -/
def Missed (t : SymbolTable) (k : KnownType) (id : Option Nat) (m : Nat) : Prop :=
  ∀ i, i < m → t.is (t.ancestor? id i) k = false

/-- A chain that comes back to an earlier type brings nothing new. -/
theorem Missed.of_revisit {i m : Nat} (missed : t.Missed k id m) (lt : i < m)
    (same : t.ancestor? id i = t.ancestor? id m) (n : Nat) : t.is (t.ancestor? id n) k = false := by
  induction n using Nat.strongRecOn with
  | ind n ih =>
      by_cases early : n < m
      · exact missed n early
      · -- the same type stands one round earlier in the chain
        have back := ancestor?_add_congr same (n - m)
        rw [show m + (n - m) = n by omega] at back
        rw [← back]
        apply ih
        omega

/-- What the search knows before step `m`: the types it has met are those of the chain below `m`,
and none of them is the known type. -/
structure Climbing (t : SymbolTable) (k : KnownType) (id : Option Nat) (m : Nat)
    (met : List Nat) : Prop where
  met : ∀ x, x ∈ met ↔ ∃ i, i < m ∧ t.ancestor? id i = some x
  missed : t.Missed k id m

theorem climbing_start : t.Climbing k id 0 [] := by
  constructor
  · intro x
    simp
  · intro i lt
    omega

theorem Climbing.step {m x : Nat} {met : List Nat} (h : t.Climbing k id m met)
    (here : t.ancestor? id m = some x) (other : t.is (some x) k = false) :
    t.Climbing k id (m + 1) (x :: met) := by
  constructor
  · intro y
    rw [List.mem_cons, h.met]
    constructor
    · intro found
      cases found with
      | inl same => exact ⟨m, by omega, same ▸ here⟩
      | inr found =>
          obtain ⟨i, lt, reached⟩ := found
          exact ⟨i, by omega, reached⟩
    · intro found
      obtain ⟨i, lt, reached⟩ := found
      by_cases last : i = m
      · rw [last, here] at reached
        exact .inl (Option.some.inj reached).symm
      · exact .inr ⟨i, by omega, reached⟩
  · intro i lt
    by_cases last : i = m
    · rw [last, here, other]
    · exact h.missed i (by omega)

/-- From step `m` on, the search finds what the next `steps` types of the chain hold. -/
theorem Climbing.climb_iff {m steps : Nat} {met : List Nat} (h : t.Climbing k id m met) :
    t.climb k steps met (t.ancestor? id m) = true ↔
      ∃ n, m ≤ n ∧ n < m + steps ∧ t.is (t.ancestor? id n) k = true := by
  induction steps generalizing m met with
  | zero =>
      simp only [climb, Bool.false_eq_true, false_iff]
      intro found
      obtain ⟨n, le, lt, -⟩ := found
      omega
  | succ steps ih =>
      cases here : t.ancestor? id m with
      | none =>
          simp only [climb, Bool.false_eq_true, false_iff]
          intro found
          obtain ⟨n, le, -, known⟩ := found
          rw [ancestor?_eq_none_of_le here le, is_none] at known
          cases known
      | some x =>
          rw [climb]
          split
          · next seen =>
              obtain ⟨i, lt, reached⟩ := (h.met x).mp (List.contains_iff_mem.mp seen)
              simp only [Bool.false_eq_true, false_iff]
              intro found
              obtain ⟨n, -, -, known⟩ := found
              rw [h.missed.of_revisit lt (reached.trans here.symm) n] at known
              cases known
          · have next : t.baseStep x = t.ancestor? id (m + 1) := by
              rw [ancestor?_succ, here, Option.bind_some]
            cases known : t.is (some x) k with
            | true =>
                simp only [Bool.true_or, true_iff]
                exact ⟨m, by omega, by omega, by rw [here, known]⟩
            | false =>
                rw [Bool.false_or, next, ih (h.step here known)]
                constructor
                · intro found
                  obtain ⟨n, le, lt, reached⟩ := found
                  exact ⟨n, by omega, by omega, reached⟩
                · intro found
                  obtain ⟨n, le, lt, reached⟩ := found
                  refine ⟨n, ?_, by omega, reached⟩
                  by_cases first : n = m
                  · rw [first, here, known] at reached
                    cases reached
                  · omega

end

/-- A type is a subtype of a known type if and only if one of the first 64 types of its chain is in
the table and is the known type. -/
theorem isSubtypeOf_iff_ancestor (t : SymbolTable) (id : Option Nat) (k : KnownType) :
    t.isSubtypeOf id k = true ↔
      ∃ n, n < 64 ∧ ∃ x s, t.ancestor? id n = some x ∧ t.symbol? x = some s ∧
        t.is (some x) k = true := by
  have search : t.isSubtypeOf id k = true ↔ ∃ n, 0 ≤ n ∧ n < 0 + maxDepth ∧
      t.is (t.ancestor? id n) k = true :=
    climbing_start.climb_iff
  rw [search, Nat.zero_add, maxDepth]
  constructor
  · intro found
    obtain ⟨n, -, lt, known⟩ := found
    cases reached : t.ancestor? id n with
    | none =>
        rw [reached, is_none] at known
        cases known
    | some x =>
        rw [reached] at known
        obtain ⟨s, held⟩ := symbol_of_is known
        exact ⟨n, lt, x, s, reached, held, known⟩
  · intro found
    obtain ⟨n, lt, x, s, reached, -, known⟩ := found
    exact ⟨n, Nat.zero_le n, lt, by rw [reached, known]⟩

example :
    let orders := (({} : SymbolTable).addType "Order" .classType).2.addType "Orders" .classType
    let cyclic := (orders.2.setBase 0 1).setBase 1 0
    cyclic.isSubtypeOf (some 0) (.named "Orders") = true ∧
      cyclic.isSubtypeOf (some 0) (.named "Invoice") = false := by decide +kernel

end Antipattern.SymbolTable
