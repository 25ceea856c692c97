import Antipattern.Proofs.LineRoles

/-!
Conditional compilation of well-nested text. Where the lines of a text are arranged in blocks, each
with its branches and with further blocks in them, the scan cuts the text as the arrangement says: a
line is disabled if one of the branches around it is not the first of its block, whichever branches
lie between the two.
-/

namespace Antipattern.CSharp

open Text

/-- A line that reads as this conditional directive, or as none. -/
structure LineReading (reading : Option Conditional) where
  text : List Char
  reads : Conditional.ofLine? text = reading

mutual
/-- Plain lines and blocks one after another. -/
inductive Arrangement where
  | done
  | plain (line : LineReading none) (rest : Arrangement)
  | block (opening : LineReading (some .opens)) (first : Arrangement) (others : Branches)
      (closing : LineReading (some .closes)) (rest : Arrangement)

/-- The branches of a block behind the first, each with the line that starts it. -/
inductive Branches where
  | done
  | branch (line : LineReading (some .alternates)) (body : Arrangement) (rest : Branches)
end

mutual
/-- The lines of an arrangement, each with its role. `around` are the branches that hold them, the
innermost first, each by its number in its block. -/
def Arrangement.marked (around : List Nat) : Arrangement → List MarkedLine
  | .done => []
  | .plain line rest =>
      ⟨line.text, if around.all (· == 0) then .code else .disabled⟩ :: rest.marked around
  | .block opening first others closing rest =>
      ⟨opening.text, .directive⟩ :: (first.marked (0 :: around) ++ (others.marked around 1 ++
        ⟨closing.text, .directive⟩ :: rest.marked around))

def Branches.marked (around : List Nat) (number : Nat) : Branches → List MarkedLine
  | .done => []
  | .branch line body rest =>
      ⟨line.text, .directive⟩ ::
        (body.marked (number :: around) ++ rest.marked around (number + 1))
end

/-- The lines as they stand in the text. -/
def Arrangement.lines (a : Arrangement) : List (List Char) :=
  (a.marked []).map (·.text)

/-- What the scan keeps of the branches around a line: which of them come first in their block. -/
def firstBranches (around : List Nat) : List Bool :=
  around.map (· == 0)

theorem all_firstBranches (around : List Nat) :
    (firstBranches around).all id = around.all (· == 0) := by
  rw [firstBranches, List.all_map]
  rfl

mutual
/-- Through an arrangement, the scan gives each line its role and leaves the open blocks as they
were before it. -/
theorem scanLines_arrangement (around : List Nat) (behind : List (List Char)) :
    (a : Arrangement) →
      scanLines (firstBranches around) ((a.marked around).map (·.text) ++ behind) =
        a.marked around ++ scanLines (firstBranches around) behind
  | .done => by simp only [Arrangement.marked, List.map_nil, List.nil_append]
  | .plain line rest => by
      rw [Arrangement.marked, List.map_cons, List.cons_append, scanLines_of_plain line.reads,
        all_firstBranches, scanLines_arrangement around behind rest, List.cons_append]
  | .block opening first others closing rest => by
      have inside : Conditional.opens.apply (firstBranches around) = firstBranches (0 :: around) :=
        rfl
      simp only [Arrangement.marked, List.map_cons, List.map_append, List.cons_append,
        List.append_assoc]
      rw [scanLines_of_directive opening.reads, inside, scanLines_arrangement (0 :: around) _ first]
      congr 2
      rw [← scanLines_arrangement around behind rest]
      exact scanLines_branches around _ closing others 0 true

/-- Through the further branches of a block and the line that closes it, whatever the branch
before them was. -/
theorem scanLines_branches (around : List Nat) (behind : List (List Char))
    (closing : LineReading (some .closes)) :
    (bs : Branches) → (number : Nat) → (first : Bool) →
      scanLines (first :: firstBranches around)
          ((bs.marked around (number + 1)).map (·.text) ++ closing.text :: behind) =
        bs.marked around (number + 1) ++
          ⟨closing.text, .directive⟩ :: scanLines (firstBranches around) behind
  | .done, number, first => by
      simp only [Branches.marked, List.map_nil, List.nil_append]
      -- the block on top of the stack goes, in whichever branch it is
      rw [scanLines_of_directive closing.reads]
      rfl
  | .branch line body rest, number, first => by
      have inside : Conditional.alternates.apply (first :: firstBranches around) =
          firstBranches ((number + 1) :: around) := by simp [Conditional.apply, firstBranches]
      simp only [Branches.marked, List.map_cons, List.map_append, List.cons_append,
        List.append_assoc]
      rw [scanLines_of_directive line.reads, inside,
        scanLines_arrangement ((number + 1) :: around) _ body]
      congr 2
      exact scanLines_branches around behind closing rest (number + 1) false
end

theorem scanLines_lines (a : Arrangement) : scanLines [] a.lines = a.marked [] := by
  have scan := scanLines_arrangement [] [] a
  rw [List.append_nil] at scan
  exact scan.trans (List.append_nil _)

/-- The cuts of a text whose lines are arranged in blocks come in source order: one for each
directive line and one for each maximal run of plain lines that have a branch around them which is
not the first of its block. A plain line with first branches around it is in no cut. -/
theorem cutRanges_of_arrangement (a : Arrangement) (source : List Char)
    (arranged : linesKept source = a.lines) :
    (cutRanges source).Pairwise (fun r s => r.start < r.stop ∧ r.stop ≤ s.start) ∧
      (∀ r, r ∈ cutRanges source ↔
        ∃ i j kind, IsCut (a.marked []) i j kind ∧ r = stretch 0 1 (a.marked []) i j kind) ∧
      ∀ k, roleAt? (a.marked []) k = some .code → ∀ r ∈ cutRanges source,
        r.stop ≤ lineStart a.lines k ∨ lineStart a.lines (k + 1) ≤ r.start := by
  have cuts {r : CutRange} := @mem_cutRanges_iff source (a.marked [])
    (by rw [arranged, scanLines_lines]) r
  refine ⟨?_, fun r => cuts, ?_⟩
  · refine (List.pairwise_map.mp (cutRanges_ordered source)).imp_of_mem ?_
    intro r s hr _ order
    exact ⟨(within_of_mem_cutRanges hr).proper, order⟩
  · intro k code r hr
    obtain ⟨i, j, kind, cut, rfl⟩ := cuts.mp hr
    have apart : j ≤ k ∨ k + 1 ≤ i := by
      cases cut with
      | directive role =>
          have other : k ≠ i := by
            intro same
            rw [same, role] at code
            cases code
          omega
      | disabled run =>
          by_cases inside : i ≤ k ∧ k < j
          · rw [run.inside k inside.1 inside.2] at code
            cases code
          · omega
    simp only [stretch, Nat.zero_add]
    cases apart with
    | inl before => exact .inl (lineStart_mono a.lines before)
    | inr behind => exact .inr (lineStart_mono a.lines behind)

/-- A block in the first branch of another, and a block in its second. -/
def nestedBlocks : Arrangement :=
  .block ⟨"#if A\n".toList, by decide⟩
    (.plain ⟨"a\n".toList, by decide⟩
      (.block ⟨" # if B\r\n".toList, by decide⟩
        (.plain ⟨"b\n".toList, by decide⟩ .done)
        (.branch ⟨"#elif C\n".toList, by decide⟩ (.plain ⟨"c\n".toList, by decide⟩ .done) .done)
        ⟨"#endif\n".toList, by decide⟩ .done))
    (.branch ⟨"#else\n".toList, by decide⟩
      (.plain ⟨"d\n".toList, by decide⟩
        (.plain ⟨"\n".toList, by decide⟩
          (.block ⟨"#if D\n".toList, by decide⟩ (.plain ⟨"e\n".toList, by decide⟩ .done) .done
            ⟨"#endif\n".toList, by decide⟩ .done)))
      .done)
    ⟨"#endif\n".toList, by decide⟩
    (.plain ⟨"f".toList, by decide⟩ .done)

theorem cutRanges_of_nestedBlocks :
    let source := nestedBlocks.lines.flatten
    linesKept source = nestedBlocks.lines ∧
      (cutRanges source).Pairwise (fun r s => r.start < r.stop ∧ r.stop ≤ s.start) ∧
      MaximalRun (nestedBlocks.marked []) 8 10 ∧
      stretch 0 1 (nestedBlocks.marked []) 8 10 .disabledText ∈ cutRanges source := by
  intro source
  have arranged : linesKept source = nestedBlocks.lines := by decide +kernel
  have run : MaximalRun (nestedBlocks.marked []) 8 10 := by
    refine ⟨by decide, ?_, ?_, by decide +kernel⟩
    · intro k le lt
      have inside : k = 8 ∨ k = 9 := by omega
      cases inside with
      | inl eight => rw [eight]; decide +kernel
      | inr nine => rw [nine]; decide +kernel
    · intro k eq
      rw [Nat.succ.inj eq]
      decide +kernel
  obtain ⟨ordered, cuts, -⟩ := cutRanges_of_arrangement nestedBlocks source arranged
  exact ⟨arranged, ordered, run, (cuts _).mpr ⟨8, 10, .disabledText, .disabled run, rfl⟩⟩

end Antipattern.CSharp
