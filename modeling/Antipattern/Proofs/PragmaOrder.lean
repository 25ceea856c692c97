import Antipattern.CSharp.File
import Antipattern.Proofs.CutRanges

/-!
The pragmas of a file come in the order of their lines. Pieces of trivia report the line on which
they start, the pieces are sorted by their starts, and the strands keep that order.
-/

namespace Antipattern

theorem Pragma.line_of_parse? {line : Nat} {text : List Char} {p : Pragma}
    (h : Pragma.parse? line text = some p) : p.line = line := by
  simp only [Pragma.parse?, Option.bind_eq_bind, Option.bind_eq_some_iff] at h
  obtain ⟨_, _, _, _, _, _, _, _, found⟩ := h
  exact (congrArg Pragma.line (Option.some.inj found)).symm

namespace CSharp

open Text

/-- The line on which a byte of the source stands; the first line is line 1. -/
def lineAt (source : List Char) (byte : Nat) : Nat :=
  1 + (splitBytes byte source).1.count '\n'

theorem lineAt_byteLength (done rest : List Char) :
    lineAt (done ++ rest) (byteLength done) = 1 + done.count '\n' := by
  rw [lineAt, splitBytes_byteLength]

theorem lineAt_mono (source : List Char) {m n : Nat} (h : m ≤ n) :
    lineAt source m ≤ lineAt source n := by
  unfold lineAt
  apply Nat.add_le_add_left
  induction source generalizing m n with
  | nil => exact Nat.le_refl _
  | cons c cs ih =>
      by_cases inside : c.utf8Size ≤ m
      · have rest := ih (Nat.sub_le_sub_right h c.utf8Size)
        simp only [splitBytes, inside, Nat.le_trans inside h, ite_true, List.count_cons]
        omega
      · simp only [splitBytes, inside, ite_false, List.count_nil, Nat.zero_le]

/-- All lines but the last end in the only line feed that they hold. -/
theorem linesKept_cons {cs l : List Char} {ls : List (List Char)} (h : linesKept cs = l :: ls) :
    ∃ rest, cs = l ++ rest ∧ ls = linesKept rest ∧ (rest ≠ [] → l.count '\n' = 1) := by
  induction cs generalizing l ls with
  | nil => cases h
  | cons c cs ih =>
      simp only [linesKept] at h
      split at h
      · next feed =>
          cases h
          exact ⟨cs, rfl, rfl, fun _ => by simp [feed]⟩
      · next other =>
          split at h
          · next none =>
              cases h
              cases cs with
              | nil => exact ⟨[], rfl, rfl, fun h => absurd rfl h⟩
              | cons d ds =>
                  simp only [linesKept] at none
                  split at none
                  · cases none
                  · split at none <;> cases none
          · next first others lines =>
              cases h
              obtain ⟨rest, rfl, rfl, feeds⟩ := ih lines
              refine ⟨rest, rfl, rfl, fun more => ?_⟩
              rw [List.count_cons_of_ne other]
              exact feeds more

theorem line_of_mem_ofLines (done cs : List Char) {blocks : List Bool} {r : CutRange}
    (h : r ∈ CutRange.ofLines (byteLength done) (1 + done.count '\n') blocks (linesKept cs)) :
    r.line = lineAt (done ++ cs) r.start := by
  generalize hls : linesKept cs = ls at h
  induction ls generalizing done cs blocks with
  | nil => cases h
  | cons l ls ih =>
      obtain ⟨rest, rfl, rfl, feeds⟩ := linesKept_cons hls
      cases CutRange.mem_ofLines_cons h with
      | inl first => rw [first.1, first.2.2, lineAt_byteLength]
      | inr later =>
          obtain ⟨blocks, h⟩ := later
          cases rest with
          | nil => cases h
          | cons c rest =>
              have lines : 1 + done.count '\n' + 1 = 1 + (done ++ l).count '\n' := by
                rw [List.count_append, feeds (List.cons_ne_nil c rest), Nat.add_assoc]
              rw [lines, ← byteLength_append] at h
              rw [← List.append_assoc]
              exact ih (done ++ l) (c :: rest) rfl h

/-- A joined run starts with one of its lines. -/
theorem first_of_mem_joinDisabled {rs : List CutRange} {r : CutRange}
    (h : r ∈ CutRange.joinDisabled rs) : ∃ a ∈ rs, a.start = r.start ∧ a.line = r.line := by
  induction rs generalizing r with
  | nil => cases h
  | cons first rest ih =>
      have later (h : r ∈ CutRange.joinDisabled rest) :
          ∃ a ∈ first :: rest, a.start = r.start ∧ a.line = r.line := by
        obtain ⟨a, ha, same⟩ := ih h
        exact ⟨a, List.mem_cons_of_mem first ha, same⟩
      simp only [CutRange.joinDisabled] at h
      split at h
      · obtain rfl := List.mem_singleton.mp h
        exact ⟨r, List.mem_cons_self, rfl, rfl⟩
      · next next others joined =>
          rw [joined] at later
          split at h
          · rcases List.mem_cons.mp h with rfl | h
            · exact ⟨first, List.mem_cons_self, rfl, rfl⟩
            · exact later (List.mem_cons_of_mem next h)
          · rcases List.mem_cons.mp h with rfl | h
            · exact ⟨r, List.mem_cons_self, rfl, rfl⟩
            · exact later h

theorem line_of_mem_cutRanges {source : List Char} {r : CutRange} (h : r ∈ cutRanges source) :
    r.line = lineAt source r.start := by
  obtain ⟨a, ha, start, line⟩ := first_of_mem_joinDisabled h
  rw [← line, ← start]
  exact line_of_mem_ofLines [] source ha

def Piece.line? (p : Piece) : Option Nat :=
  match p.content with
  | .token => none
  | .trivia line _ => some line

def Strand.line? : Strand → Option Nat
  | .token _ | .gap _ => none
  | .island line _ => some line

theorem strands_lines (pos : Nat) (source : List Char) (ps : List Piece) :
    ((strands pos source ps).filterMap Strand.line?).Sublist (ps.filterMap Piece.line?) := by
  have gaps (gap : List Char) : ((gapTrivia gap).map Strand.gap).filterMap Strand.line? = [] := by
    simp [List.filterMap_map, Function.comp_def, Strand.line?]
  induction ps generalizing pos source with
  | nil =>
      rw [strands, gaps]
      exact List.nil_sublist _
  | cons p ps ih =>
      rw [strands]
      split
      · exact (ih pos source).trans ((List.sublist_cons_self p ps).filterMap Piece.line?)
      · rw [List.filterMap_append, gaps, List.nil_append]
        cases content : p.content with
        | token =>
            have own : p.line? = none := by simp [Piece.line?, content]
            rw [List.filterMap_cons_none own]
            exact ih _ _
        | trivia line kind =>
            have own : p.line? = some line := by simp [Piece.line?, content]
            rw [List.filterMap_cons_some own]
            exact (ih _ _).cons_cons line

theorem pragma_lines (ss : List Strand) :
    ((ss.filterMap Strand.pragma?).map (·.line)).Sublist (ss.filterMap Strand.line?) := by
  induction ss with
  | nil => exact List.nil_sublist _
  | cons s ss ih =>
      cases s with
      | token start | gap t => exact ih
      | island line t =>
          have own : (Strand.island line t).line? = some line := rfl
          rw [List.filterMap_cons_some own]
          cases found : (Strand.island line t).pragma? with
          | none =>
              rw [List.filterMap_cons_none found]
              exact ih.cons line
          | some p =>
              rw [List.filterMap_cons_some found, List.map_cons]
              simp only [Strand.pragma?] at found
              split at found
              · rw [Pragma.line_of_parse? found]
                exact ih.cons_cons line
              · cases found

/-- The comments and directives of the file report the line on which they start. -/
def ConcreteFile.ReportsLines (file : ConcreteFile) (source : List Char) : Prop :=
  ∀ i ∈ file.islands, i.span.startLine = lineAt source i.span.startByte

instance (file : ConcreteFile) (source : List Char) : Decidable (file.ReportsLines source) :=
  inferInstanceAs (Decidable (∀ i ∈ file.islands, _))

theorem line_of_mem_ofFile {file : ConcreteFile} {source : List Char}
    (reports : file.ReportsLines source) {drop : Span → Bool} {p : Piece}
    (h : p ∈ Piece.ofFile file drop (cutRanges source)) {line : Nat}
    (hl : p.line? = some line) : line = lineAt source p.start := by
  simp only [Piece.ofFile, List.mem_mergeSort, List.mem_append, List.mem_map, or_assoc] at h
  rcases h with ⟨_, _, rfl⟩ | ⟨i, hi, rfl⟩ | ⟨r, hr, rfl⟩
  · cases hl
  · cases hl
    exact reports i (List.mem_filter.mp hi).1
  · cases hl
    exact line_of_mem_cutRanges hr

theorem ofFile_sorted (file : ConcreteFile) (drop : Span → Bool) (cuts : List CutRange) :
    (Piece.ofFile file drop cuts).Pairwise fun p q => p.start ≤ q.start := by
  have sorted := List.pairwise_mergeSort Piece.start_le_trans Piece.start_le_total
  exact (sorted _).imp of_decide_eq_true

/-- Pieces in source order that report their lines leave pragmas in the order of their lines. -/
theorem ofPieces_pragmas_ordered {source : List Char} {ps : List Piece}
    (sorted : ps.Pairwise fun p q => p.start ≤ q.start)
    (reported : ∀ p ∈ ps, ∀ line, p.line? = some line → line = lineAt source p.start) :
    (Layout.ofPieces source ps).pragmas.Pairwise fun p q => p.line ≤ q.line := by
  have lines : (ps.filterMap Piece.line?).Pairwise (· ≤ ·) := by
    rw [List.pairwise_filterMap]
    refine sorted.imp_of_mem fun {p q} hp hq le line hl line' hl' => ?_
    rw [reported p hp line hl, reported q hq line' hl']
    exact lineAt_mono source le
  have kept := (pragma_lines (strands 0 source ps)).trans (strands_lines 0 source ps)
  exact List.pairwise_map.mp (lines.sublist kept)

theorem pragmas_ordered {file : ConcreteFile} {source : List Char}
    (reports : file.ReportsLines source) (path : String) :
    (file.syntaxTree path source).pragmas.Pairwise fun p q => p.line ≤ q.line := by
  apply ofPieces_pragmas_ordered (ofFile_sorted _ _ _)
  intro p hp line hl
  exact line_of_mem_ofFile reports hp hl

theorem place_over (p : Place) (cs : List Char) :
    (p.over cs).byte = p.byte + byteLength cs ∧ (p.over cs).line = p.line + cs.count '\n' := by
  induction cs generalizing p with
  | nil => exact ⟨rfl, rfl⟩
  | cons c cs ih =>
      obtain ⟨byte, line⟩ := ih (p.step c)
      rw [Place.over, List.foldl_cons, ← Place.over, byte, line, byteLength_cons, List.count_cons]
      by_cases feed : c = '\n' <;> simp [Place.step, feed] <;> omega

theorem over_append (done cs : List Char) :
    Place.over {} (done ++ cs) = (Place.over {} done).over cs :=
  List.foldl_append

/-- From where it starts, the scan gives every lexeme the line of its first byte. -/
theorem line_of_mem_lexemesFrom {p : Place} {blanks done rest : List Char}
    (here : p = Place.over {} done) {l : Lexeme} (h : l ∈ lexemesFrom p blanks rest) :
    l.span.startLine = lineAt (done ++ rest) l.span.startByte := by
  fun_induction lexemesFrom p blanks rest generalizing done with
  | case1 => cases h
  | case2 p blanks c cs spacing ih =>
      rw [List.append_cons]
      apply ih _ h
      rw [over_append, here]
      rfl
  | case3 p blanks c cs spacing kind length lexeme text stop =>
      rename_i ih
      rcases List.mem_cons.mp h with rfl | h
      · obtain ⟨byte, line⟩ := place_over {} done
        have start : p.byte = byteLength done := by rw [here, byte, Nat.zero_add]
        rw [Place.through, start, lineAt_byteLength, here, line]
      · have whole : done ++ c :: cs = (done ++ text) ++ cs.drop (length - 1) := by
          simp [text, List.take_append_drop]
        rw [whole]
        apply ih _ h
        rw [over_append, ← here]

/-- A file that is read from its source reports the lines of its comments and directives. -/
theorem reportsLines_read (source : List Char) :
    (ConcreteFile.read source).ReportsLines source := by
  intro i hi
  obtain ⟨l, hl, island⟩ := List.mem_filterMap.mp hi
  have line : l.span.startLine = lineAt source l.span.startByte :=
    @line_of_mem_lexemesFrom {} [] [] source rfl l hl
  unfold Lexeme.island? at island
  split at island
  · cases island
    exact line
  · cases island
    exact line
  · cases island

end CSharp

open CSharp

/-- The tree was built over a source by a reader that reports lines as they are. -/
def SyntaxTree.FromSource (t : SyntaxTree) : Prop :=
  ∃ (file : ConcreteFile) (source : List Char),
    file.ReportsLines source ∧ t = file.syntaxTree t.path source

theorem SyntaxTree.FromSource.pragmas_ordered {t : SyntaxTree} (h : t.FromSource) :
    t.pragmas.Pairwise fun p q => p.line ≤ q.line := by
  obtain ⟨file, source, reports, built⟩ := h
  rw [built]
  exact CSharp.pragmas_ordered reports t.path

/-- Every file that is read has a tree that was built so. -/
theorem fromSource_parseFile (path source : String) : (parseFile path source).tree.FromSource :=
  ⟨ConcreteFile.read source.toList, source.toList, reportsLines_read _, rfl⟩

end Antipattern
