import Antipattern.Proofs.LineRoles

/-!
Open blocks by the depth of their lines. A block is open as long as the depth of nesting stays above
that of the line which opens it, and a line lies in an alternative if a block is open there whose
first branch has ended. The scan, which keeps a stack, takes out just these lines and the
directives, also where directives do not match.
-/

namespace Antipattern.CSharp

open Text

/-- What a directive adds to the depth of nesting. -/
def Conditional.deepens : Conditional → Int
  | opens => 1
  | alternates => 0
  | closes => -1

/-- The depth of nesting before a line; `d` gives the directives on the lines. -/
def depth (d : Nat → Option Conditional) : Nat → Int
  | 0 => 0
  | k + 1 => depth d k + ((d k).map Conditional.deepens).getD 0

/-- Line `i` opens a block that is still open before line `k`. -/
structure OpenAt (d : Nat → Option Conditional) (i k : Nat) : Prop where
  opens : d i = some .opens
  before : i < k
  deeper : ∀ m, i < m → m ≤ k → depth d i < depth d m

structure Innermost (d : Nat → Option Conditional) (i k : Nat) : Prop where
  isOpen : OpenAt d i k
  last : ∀ m, OpenAt d m k → m ≤ i

/-- Line `j` ends a branch of the block that line `i` opens. -/
def EndsBranch (d : Nat → Option Conditional) (i j : Nat) : Prop :=
  d j = some .alternates ∧ Innermost d i j

/-- Line `k` lies in a branch that is not the first of its block. -/
def InAlternative (d : Nat → Option Conditional) (k : Nat) : Prop :=
  ∃ i j, j < k ∧ EndsBranch d i j ∧ OpenAt d i k

section

variable {d : Nat → Option Conditional} {i k m n : Nat}

theorem depth_of_plain (read : d k = none) : depth d (k + 1) = depth d k := by
  rw [depth, read]
  exact Int.add_zero _

theorem depth_of_directive {c : Conditional} (read : d k = some c) :
    depth d (k + 1) = depth d k + c.deepens := by
  rw [depth, read]
  rfl

theorem OpenAt.restrict (h : OpenAt d i k) (lt : i < m) (le : m ≤ k) : OpenAt d i m :=
  ⟨h.opens, lt, fun n after before => h.deeper n after (Nat.le_trans before le)⟩

theorem OpenAt.trans (inner : OpenAt d i k) (outer : OpenAt d m i) : OpenAt d m k := by
  have lt := outer.before
  refine ⟨outer.opens, Nat.lt_trans lt inner.before, ?_⟩
  intro n after before
  by_cases le : n ≤ i
  · exact outer.deeper n after le
  · have deeper := inner.deeper n (by omega) before
    have around := outer.deeper i lt (Nat.le_refl i)
    omega

theorem OpenAt.of_succ (h : OpenAt d i (k + 1)) (read : d k ≠ some .opens) : OpenAt d i k := by
  have other : i ≠ k := fun same => read (same ▸ h.opens)
  have lt := h.before
  exact h.restrict (by omega) (Nat.le_succ k)

theorem OpenAt.succ (h : OpenAt d i k) (deep : depth d i < depth d (k + 1)) :
    OpenAt d i (k + 1) := by
  refine ⟨h.opens, Nat.lt_succ_of_lt h.before, ?_⟩
  intro m after before
  by_cases le : m ≤ k
  · exact h.deeper m after le
  · rw [show m = k + 1 by omega]
    exact deep

/-- A line that does not lead out of a block leaves open what is open. -/
theorem OpenAt.succ_iff (read : d k ≠ some .opens) (deep : depth d k ≤ depth d (k + 1)) :
    OpenAt d i (k + 1) ↔ OpenAt d i k := by
  constructor
  · intro h
    exact h.of_succ read
  · intro h
    have deeper := h.deeper k h.before (Nat.le_refl k)
    exact h.succ (by omega)

theorem openAt_of_opens (read : d k = some .opens) : OpenAt d k (k + 1) := by
  refine ⟨read, Nat.lt_succ_self k, ?_⟩
  intro m after before
  have deep := depth_of_directive read
  simp only [Conditional.deepens] at deep
  rw [show m = k + 1 by omega]
  omega

theorem Innermost.congr (h : Innermost d i k) (same : ∀ {m}, OpenAt d m n ↔ OpenAt d m k) :
    Innermost d i n :=
  ⟨same.mpr h.isOpen, fun m around => h.last m (same.mp around)⟩

theorem Innermost.openAt_iff (h : Innermost d i k) : OpenAt d m k ↔ m = i ∨ OpenAt d m i := by
  constructor
  · intro around
    have le := h.last m around
    by_cases same : m = i
    · exact .inl same
    · exact .inr (around.restrict (by omega) (Nat.le_of_lt h.isOpen.before))
  · intro around
    cases around with
    | inl same => exact same ▸ h.isOpen
    | inr outer => exact h.isOpen.trans outer

/-- As long as a block is open, only its own directives and those further in end a branch. -/
theorem OpenAt.lt_of_endsBranch (h : OpenAt d i k) {j : Nat} (outer : m < i)
    (ends : EndsBranch d m j) (le : j ≤ k) : j < i := by
  apply Nat.lt_of_not_le
  intro after
  by_cases same : j = i
  · have read := h.opens
    rw [← same, ends.1] at read
    cases read
  · have later := ends.2.last i (h.restrict (by omega) le)
    omega

/-- The line that closes the innermost block leaves open what was open before the block. -/
theorem Innermost.openAt_of_closes (h : Innermost d i k) (read : d k = some .closes)
    (level : depth d k = depth d i + 1) : OpenAt d m (k + 1) ↔ OpenAt d m i := by
  have back := depth_of_directive read
  simp only [Conditional.deepens] at back
  have lt := h.isOpen.before
  constructor
  · intro around
    have deeper := around.deeper (k + 1) around.before (Nat.le_refl _)
    have le := h.last m (around.of_succ (by rw [read]; exact nofun))
    have outer : m ≠ i := by
      intro same
      rw [same] at deeper
      omega
    exact around.restrict (by omega) (by omega)
  · intro outer
    have deeper := outer.deeper i outer.before (Nat.le_refl i)
    exact (h.isOpen.trans outer).succ (by omega)

/-- The stack that the scan holds before line `k`: the open blocks from the innermost out, each
with whether it is still in its first branch. -/
inductive Stacked (d : Nat → Option Conditional) : Nat → List Bool → Prop
  | outside {k : Nat} (closed : ∀ i, ¬ OpenAt d i k) : Stacked d k []
  | inside {i k : Nat} {first : Bool} {around : List Bool} (innermost : Innermost d i k)
      (level : depth d k = depth d i + 1)
      (flag : first = false ↔ ∃ j, j < k ∧ EndsBranch d i j)
      (outer : Stacked d i around) : Stacked d k (first :: around)

theorem stacked_start : Stacked d 0 [] := by
  apply Stacked.outside
  intro i h
  exact absurd h.before (Nat.not_lt_zero i)

theorem Stacked.plain {blocks : List Bool} (h : Stacked d k blocks) (read : d k = none) :
    Stacked d (k + 1) blocks := by
  have level := depth_of_plain read
  have same {i : Nat} : OpenAt d i (k + 1) ↔ OpenAt d i k :=
    OpenAt.succ_iff (by rw [read]; exact nofun) (by omega)
  cases h with
  | outside closed => exact .outside fun i around => closed i (same.mp around)
  | inside innermost deeper flag outer =>
      refine .inside (innermost.congr same) (level.trans deeper) (flag.trans ?_) outer
      apply exists_congr
      intro j
      rw [and_congr_left_iff]
      intro ends
      have other : j ≠ k := by
        intro eq
        have alternates := ends.1
        rw [eq, read] at alternates
        cases alternates
      omega

theorem Stacked.opens {blocks : List Bool} (h : Stacked d k blocks) (read : d k = some .opens) :
    Stacked d (k + 1) (true :: blocks) := by
  refine .inside ⟨openAt_of_opens read, ?_⟩ (depth_of_directive read) ?_ h
  · intro m around
    exact Nat.le_of_lt_succ around.before
  · simp only [Bool.true_eq_false, false_iff]
    intro found
    obtain ⟨j, lt, ends⟩ := found
    have behind := ends.2.isOpen.before
    omega

theorem Stacked.alternates {blocks : List Bool} (h : Stacked d k blocks)
    (read : d k = some .alternates) : Stacked d (k + 1) (Conditional.alternates.apply blocks) := by
  have level : depth d (k + 1) = depth d k := (depth_of_directive read).trans (Int.add_zero _)
  have same {i : Nat} : OpenAt d i (k + 1) ↔ OpenAt d i k :=
    OpenAt.succ_iff (by rw [read]; exact nofun) (by omega)
  cases h with
  | outside closed => exact .outside fun i around => closed i (same.mp around)
  | inside innermost deeper flag outer =>
      refine .inside (innermost.congr same) (level.trans deeper) ?_ outer
      exact iff_of_true rfl ⟨k, Nat.lt_succ_self k, read, innermost⟩

theorem Stacked.closes {blocks : List Bool} (h : Stacked d k blocks)
    (read : d k = some .closes) : Stacked d (k + 1) blocks.tail := by
  cases h with
  | outside closed =>
      apply Stacked.outside
      intro i around
      exact closed i (around.of_succ (by rw [read]; exact nofun))
  | @inside i _ first around innermost level flag outer =>
      have same {m : Nat} := @Innermost.openAt_of_closes d i k m innermost read level
      have back := depth_of_directive read
      simp only [Conditional.deepens] at back
      -- what lay around the block lies around the next line
      cases outer with
      | outside closed => exact .outside fun m h => closed m (same.mp h)
      | inside next deeper flag outer =>
          refine .inside (next.congr same) (by omega) (flag.trans ?_) outer
          apply exists_congr
          intro j
          rw [and_congr_left_iff]
          intro ends
          have lt := innermost.isOpen.before
          constructor
          · intro before
            omega
          · intro before
            exact innermost.isOpen.lt_of_endsBranch next.isOpen.before ends (by omega)

theorem Stacked.directive {blocks : List Bool} {c : Conditional} (h : Stacked d k blocks)
    (read : d k = some c) : Stacked d (k + 1) (c.apply blocks) := by
  cases c with
  | opens => exact h.opens read
  | alternates => exact h.alternates read
  | closes => exact h.closes read

theorem Innermost.inAlternative_iff (h : Innermost d i k) :
    InAlternative d k ↔ (∃ j, j < k ∧ EndsBranch d i j) ∨ InAlternative d i := by
  constructor
  · intro found
    obtain ⟨m, j, before, ends, around⟩ := found
    cases h.openAt_iff.mp around with
    | inl same => exact .inl ⟨j, before, same ▸ ends⟩
    | inr outer =>
        exact .inr ⟨m, j, h.isOpen.lt_of_endsBranch outer.before ends (Nat.le_of_lt before), ends,
          outer⟩
  · intro found
    cases found with
    | inl own =>
        obtain ⟨j, before, ends⟩ := own
        exact ⟨i, j, before, ends, h.isOpen⟩
    | inr outer =>
        obtain ⟨m, j, before, ends, around⟩ := outer
        exact ⟨m, j, Nat.lt_trans before h.isOpen.before, ends, h.isOpen.trans around⟩

/-- The stack shows whether a line lies in an alternative. -/
theorem Stacked.inAlternative_iff {blocks : List Bool} (h : Stacked d k blocks) :
    InAlternative d k ↔ blocks.all id = false := by
  induction h with
  | outside closed =>
      simp only [List.all_nil, Bool.true_eq_false, iff_false]
      intro found
      obtain ⟨i, j, -, -, around⟩ := found
      exact closed i around
  | inside innermost level flag outer ih =>
      rw [innermost.inAlternative_iff, ← flag, ih, List.all_cons, Bool.and_eq_false_iff]
      rfl

end

/-- Conditional compilation with these directives takes the line out. -/
def LineTaken (d : Nat → Option Conditional) (k : Nat) : Prop :=
  (d k).isSome = true ∨ InAlternative d k

/-- From a line on, the scan gives roles as the directives demand. -/
theorem Stacked.role_scanLines {d : Nat → Option Conditional} {n : Nat} {blocks : List Bool}
    {ls : List (List Char)} (h : Stacked d n blocks)
    (reads : ∀ k, d (n + k) = ls[k]?.bind Conditional.ofLine?) {k : Nat} {role : LineRole}
    (here : roleAt? (scanLines blocks ls) k = some role) :
    role ≠ .code ↔ LineTaken d (n + k) := by
  induction ls generalizing n blocks k with
  | nil => cases here
  | cons l ls ih =>
      have own : d n = Conditional.ofLine? l := reads 0
      have later (k : Nat) : d (n + 1 + k) = ls[k]?.bind Conditional.ofLine? := by
        rw [Nat.add_assoc, Nat.add_comm 1 k, reads, List.getElem?_cons_succ]
      cases read : Conditional.ofLine? l with
      | none =>
          rw [scanLines_of_plain read] at here
          rw [read] at own
          cases k with
          | zero =>
              cases here
              rw [Nat.add_zero, LineTaken, own, h.inAlternative_iff]
              cases blocks.all id <;> simp
          | succ k =>
              rw [show n + (k + 1) = n + 1 + k by omega]
              exact ih (h.plain own) later here
      | some c =>
          rw [scanLines_of_directive read] at here
          rw [read] at own
          cases k with
          | zero =>
              cases here
              rw [Nat.add_zero, LineTaken, own]
              simp
          | succ k =>
              rw [show n + (k + 1) = n + 1 + k by omega]
              exact ih (h.directive own) later here

section

variable {d d' : Nat → Option Conditional} {k : Nat}

theorem depth_congr (agree : ∀ m, m < k → d m = d' m) : depth d k = depth d' k := by
  induction k with
  | zero => rfl
  | succ k ih =>
      rw [depth, depth, ih fun m lt => agree m (Nat.lt_succ_of_lt lt), agree k (Nat.lt_succ_self k)]

theorem OpenAt.congr {i : Nat} (agree : ∀ m, m < k → d m = d' m) :
    OpenAt d i k → OpenAt d' i k := by
  intro h
  have depths {m : Nat} (le : m ≤ k) : depth d m = depth d' m :=
    depth_congr fun n lt => agree n (Nat.lt_of_lt_of_le lt le)
  refine ⟨agree i h.before ▸ h.opens, h.before, ?_⟩
  intro m after before
  rw [← depths before, ← depths (Nat.le_of_lt h.before)]
  exact h.deeper m after before

theorem InAlternative.congr (agree : ∀ m, m < k → d m = d' m) :
    InAlternative d k → InAlternative d' k := by
  intro h
  obtain ⟨i, j, lt, ⟨read, innermost⟩, around⟩ := h
  have before : ∀ m, m < j → d m = d' m := fun m earlier => agree m (Nat.lt_trans earlier lt)
  refine ⟨i, j, lt, ⟨agree j lt ▸ read, innermost.isOpen.congr before, ?_⟩, around.congr agree⟩
  intro m open'
  exact innermost.last m (open'.congr fun n earlier => (before n earlier).symm)

/-- Directives behind a line do not bear on it. -/
theorem LineTaken.congr (agree : ∀ m, m ≤ k → d m = d' m) : LineTaken d k → LineTaken d' k := by
  intro h
  cases h with
  | inl directive => exact .inl (agree k (Nat.le_refl k) ▸ directive)
  | inr inside => exact .inr (inside.congr fun m lt => agree m (Nat.le_of_lt lt))

end

end Antipattern.CSharp
