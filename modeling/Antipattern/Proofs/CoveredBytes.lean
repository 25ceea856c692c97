import Antipattern.Proofs.DirectiveLines

/-!
The bytes that conditional compilation covers. Joining ranges that touch keeps the bytes and leaves
ranges apart from one another; so the ranges that start at or before a byte come first, and the last
of them decides whether a stretch from that byte on is covered.
-/

namespace Antipattern.CSharp

open Text

/-- The ranges that start at or before the byte are the first `i`. -/
structure SplitsAt (covered : List (Nat × Nat)) (start i : Nat) : Prop where
  le : i ≤ covered.length
  front : ∀ (j : Nat) r, covered[j]? = some r → (r.1 ≤ start ↔ j < i)

section

variable {covered : List (Nat × Nat)} {start i : Nat}

theorem SplitsAt.takeWhile_eq (h : SplitsAt covered start i) :
    covered.takeWhile (fun r => r.1 ≤ start) = covered.take i := by
  induction covered generalizing i with
  | nil => rw [List.take_nil, List.takeWhile_nil]
  | cons r rest ih =>
      have own := h.front 0 r rfl
      cases i with
      | zero =>
          have behind : ¬ r.1 ≤ start := fun reached => Nat.not_lt_zero 0 (own.mp reached)
          rw [List.takeWhile_cons_of_neg (by simpa using behind), List.take_zero]
      | succ i =>
          have reached : r.1 ≤ start := own.mpr (Nat.succ_pos i)
          rw [List.takeWhile_cons_of_pos (by simpa using reached), List.take_succ_cons]
          congr 1
          apply ih
          refine ⟨Nat.le_of_succ_le_succ h.le, ?_⟩
          intro j s found
          exact (h.front (j + 1) s found).trans Nat.succ_lt_succ_iff

/-- Sorted ranges are split by every byte. -/
theorem exists_splitsAt (sorted : covered.Pairwise fun r s => r.1 ≤ s.1) (start : Nat) :
    ∃ i, SplitsAt covered start i := by
  induction covered with
  | nil => exact ⟨0, Nat.le_refl 0, fun j r found => nomatch found⟩
  | cons r rest ih =>
      obtain ⟨first, sorted⟩ := List.pairwise_cons.mp sorted
      by_cases reached : r.1 ≤ start
      · obtain ⟨i, split⟩ := ih sorted
        refine ⟨i + 1, Nat.succ_le_succ split.le, ?_⟩
        intro j s found
        cases j with
        | zero =>
            obtain rfl := Option.some.inj found
            exact iff_of_true reached (Nat.succ_pos i)
        | succ j => exact (split.front j s found).trans Nat.succ_lt_succ_iff.symm
      · refine ⟨0, Nat.zero_le _, ?_⟩
        intro j s found
        refine iff_of_false ?_ (Nat.not_lt_zero j)
        rcases List.mem_cons.mp (List.mem_of_getElem? found) with rfl | later
        · exact reached
        · exact fun le => reached (Nat.le_trans (first s later) le)

/-- Wherever the search splits the ranges, the range before the split decides. -/
theorem SplitsAt.covers_iff (h : SplitsAt covered start i) (stop : Nat) :
    covers covered start stop = true ↔
      0 < i ∧ ∃ r, covered[i - 1]? = some r ∧ stop ≤ r.2 := by
  rw [covers, h.takeWhile_eq, List.getLast?_take]
  cases i with
  | zero => simp
  | succ i =>
      rw [if_neg (Nat.succ_ne_zero i), Nat.add_sub_cancel,
        List.getElem?_eq_getElem (Nat.lt_of_succ_le h.le)]
      simp

end

theorem coveredRanges_apart (source : List Char) :
    (coveredRanges (cutRanges source)).Pairwise fun r s => r.2 < s.1 :=
  joinTouching_apart (cutRanges_ordered source) (cutRanges_proper source)

theorem coveredRanges_within {source : List Char} {r : Nat × Nat}
    (h : r ∈ coveredRanges (cutRanges source)) : r.1 < r.2 ∧ r.2 ≤ byteLength source := by
  have joined := joins_joinTouching ((cutRanges source).map CutRange.bounds)
  refine ⟨joined.proper (cutRanges_proper source) r h, ?_⟩
  obtain ⟨-, _, listed, stop⟩ := joined.ends_of_mem h
  obtain ⟨cut, mem, rfl⟩ := List.mem_map.mp listed
  obtain ⟨before, behind, split, bytes⟩ := (within_of_mem_cutRanges mem).stop
  have whole := congrArg byteLength split
  rw [byteLength_append] at whole
  have stop : cut.stop = r.2 := stop
  omega

/-- Joining keeps the bytes. -/
theorem byte_of_coveredRanges {source : List Char} {b : Nat} :
    (∃ r ∈ coveredRanges (cutRanges source), r.1 ≤ b ∧ b < r.2) ↔
      ∃ r ∈ cutRanges source, r.start ≤ b ∧ b < r.stop := by
  have joined := joins_joinTouching ((cutRanges source).map CutRange.bounds)
  constructor
  · intro found
    obtain ⟨j, hj, inside⟩ := found
    obtain ⟨_, listed, inside⟩ := joined.exists_at hj inside
    obtain ⟨r, hr, rfl⟩ := List.mem_map.mp listed
    exact ⟨r, hr, inside⟩
  · intro found
    obtain ⟨r, hr, inside⟩ := found
    obtain ⟨j, hj, around⟩ := joined.exists_around (cutRanges_proper source)
      (List.mem_map_of_mem (f := CutRange.bounds) hr)
    simp only [CutRange.bounds] at around
    exact ⟨j, hj, by omega, by omega⟩

/-- A byte lies in a cut if and only if its line holds a directive or is disabled. -/
theorem byte_of_cutRanges_iff {source : List Char} {b : Nat} :
    (∃ r ∈ cutRanges source, r.start ≤ b ∧ b < r.stop) ↔
      TakenOut source (directiveAt source) b := by
  have single (P : Nat → Prop) : (∀ c, b ≤ c → c < b + 1 → P c) ↔ P b := by
    constructor
    · intro all
      exact all b (Nat.le_refl b) (Nat.lt_succ_self b)
    · intro own c le lt
      rwa [Nat.le_antisymm (Nat.le_of_lt_succ lt) le]
  have bytes := covers_iff_bytes source (Nat.lt_succ_self b)
  have lines := covers_iff_lines source (Nat.lt_succ_self b)
  rw [single] at bytes lines
  rw [takenOut_iff_role, ← bytes, lines]

/-- The covered ranges of a text are sorted and apart, cover the bytes on directive lines and on
disabled lines and no others, and a stretch is covered if and only if all its bytes are. -/
theorem covers_iff_every_byte (source : List Char) :
    (∀ b, (∃ r ∈ cutRanges source, r.start ≤ b ∧ b < r.stop) ↔
      TakenOut source (directiveAt source) b) ∧
    let covered := coveredRanges (cutRanges source)
    (∀ r ∈ covered, r.1 < r.2 ∧ r.2 ≤ byteLength source) ∧
    covered.Pairwise (fun r s => r.2 < s.1) ∧
    (∀ b, (∃ r ∈ covered, r.1 ≤ b ∧ b < r.2) ↔
      ∃ r ∈ cutRanges source, r.start ≤ b ∧ b < r.stop) ∧
    (∀ start, (∃ i, SplitsAt covered start i) ∧
      ∀ i, SplitsAt covered start i → ∀ stop, covers covered start stop = true ↔
        0 < i ∧ ∃ r, covered[i - 1]? = some r ∧ stop ≤ r.2) ∧
    ∀ start stop, start < stop → stop ≤ byteLength source →
      (covers covered start stop = true ↔
        ∀ b, start ≤ b → b < stop → ∃ r ∈ cutRanges source, r.start ≤ b ∧ b < r.stop) := by
  refine ⟨fun b => byte_of_cutRanges_iff, ?_⟩
  intro covered
  have apart : covered.Pairwise fun r s => r.2 < s.1 := coveredRanges_apart source
  have sorted : covered.Pairwise fun r s => r.1 ≤ s.1 := by
    refine apart.imp_of_mem ?_
    intro r s hr _ lt
    exact Nat.le_of_lt (Nat.lt_trans (coveredRanges_within hr).1 lt)
  exact ⟨fun r => coveredRanges_within, apart, fun b => byte_of_coveredRanges,
    fun start => ⟨exists_splitsAt sorted start, fun i split => split.covers_iff⟩,
    fun start stop lt _ => covers_iff_bytes source lt⟩

end Antipattern.CSharp
