import Antipattern.Proofs.LineBreaks
import Antipattern.Proofs.LineRoles
import Antipattern.Proofs.PragmaOrder
import Antipattern.Proofs.TrailingTrivia

/-!
The line count of a tree. What no token, comment, directive or disabled text takes is a gap, and the
end-of-line trivia of a tree is the line breaks in its gaps. A node counts those from the trivia of
its first token to that of its last.
-/

namespace Antipattern.CSharp

open Text

/-- The bytes of the line break that starts at a byte. -/
def breakLength (source : List Char) (n : Nat) : Nat :=
  if charAt? source n = some '\r' then
    if charAt? source (n + 1) = some '\n' then 2 else 1
  else if charAt? source n = some '\n' then 1
  else 0

/-- Where trivia that stops at a byte ends: a documentation comment and a directive own the line break
behind them, unless they hold one already. -/
def reachOf (source : List Char) (kind : TriviaKind) (stop : Nat) : Nat :=
  if (kind = .documentationComment ∨ kind = .directive) ∧ charAt? source (stop - 1) ≠ some '\n' then
    stop + breakLength source stop
  else stop

/-- No line break is cut in two at this byte: a line starts here, or the text ends. -/
def LineEdge (source : List Char) (n : Nat) : Prop :=
  n = 0 ∨ charAt? source (n - 1) = some '\n' ∨ n = byteLength source

def StartsPlain (source : List Char) (n : Nat) : Prop :=
  charAt? source n ≠ some '\n' ∧ charAt? source n ≠ some '\r'

section

variable {source done text behind : List Char} {kind : TriviaKind} {stop e : Nat}

theorem le_reachOf (source : List Char) (kind : TriviaKind) (stop : Nat) :
    stop ≤ reachOf source kind stop := by
  unfold reachOf
  split
  · exact Nat.le_add_right _ _
  · exact Nat.le_refl _

theorem breakLength_zero (behind : List Char) :
    breakLength behind 0 = byteLength (takeLineBreak behind).1 := by
  fun_cases takeLineBreak behind with
  | case1 cs => rfl
  | case2 cs => rfl
  | case3 cs noPair =>
      cases cs with
      | nil => rfl
      | cons d ds =>
          have other : d ≠ '\n' := fun same => noPair ds (same ▸ rfl)
          have second : charAt? ('\r' :: d :: ds) 1 = some d := rfl
          have first : charAt? ('\r' :: d :: ds) 0 = some '\r' := rfl
          rw [breakLength, if_pos first, second, if_neg (mt Option.some.inj other)]
          rfl
  | case4 behind noPair noFeed noReturn =>
      cases behind with
      | nil => rfl
      | cons c cs =>
          have first : charAt? (c :: cs) 0 = some c := rfl
          rw [breakLength, first, if_neg, if_neg]
          · rfl
          · exact fun same => noFeed cs (Option.some.inj same ▸ rfl)
          · exact fun same => noReturn cs (Option.some.inj same ▸ rfl)

theorem breakLength_eq (cut : source = done ++ behind) :
    breakLength source (byteLength done) = byteLength (takeLineBreak behind).1 := by
  have first := charAt?_append done behind 0
  have second := charAt?_append done behind 1
  rw [Nat.add_zero, ← cut] at first
  rw [← cut] at second
  rw [breakLength, first, second]
  exact breakLength_zero behind

/-- The line break that trivia owns by the bytes of the source is the one that it takes. -/
theorem reachOf_eq (cut : source = done ++ text ++ behind) (full : text ≠ []) :
    reachOf source kind (byteLength (done ++ text)) =
      byteLength (done ++ text ++ (ownedBreak kind text behind).1) := by
  have last : charAt? source (byteLength (done ++ text) - 1) = some '\n' ↔
      text.getLast? = some '\n' := by
    rw [charAt?_before cut (by simp [full]) rfl, List.getLast?_append,
      List.getLast?_eq_some_getLast full, Option.some_or]
  have owns : ownsLineBreak kind text = true ↔
      (kind = .documentationComment ∨ kind = .directive) ∧
        charAt? source (byteLength (done ++ text) - 1) ≠ some '\n' := by
    rw [Ne, last]
    simp [ownsLineBreak]
  unfold reachOf ownedBreak
  by_cases own : ownsLineBreak kind text = true
  · rw [if_pos (owns.mp own), if_pos own, byteLength_append _ (takeLineBreak behind).1,
      breakLength_eq cut]
  · rw [if_neg (mt owns.mpr own), if_neg own, List.append_nil]

theorem reachOf_le_of_edge (edge : LineEdge source e) (full : 0 < stop) (le : stop ≤ e) :
    reachOf source kind stop ≤ e := by
  unfold reachOf
  split
  · next owns =>
      have apart {c : Char} (here : charAt? source stop = some c) : stop ≠ e := by
        rintro rfl
        rcases edge with zero | feed | ends
        · omega
        · exact owns.2 feed
        · rw [ends, charAt?_end] at here
          cases here
      unfold breakLength
      split
      · next first =>
          have := apart first
          split
          · next second =>
              have : stop + 1 ≠ e := by
                rintro rfl
                rcases edge with zero | feed | ends
                · omega
                · rw [Nat.add_sub_cancel, first] at feed
                  cases feed
                · rw [ends, charAt?_end] at second
                  cases second
              omega
          · omega
      · split
        · next first =>
            have := apart first
            omega
        · omega
  · exact le

theorem reachOf_le_of_plain (plain : StartsPlain source e) (le : stop ≤ e) :
    reachOf source kind stop ≤ e := by
  unfold reachOf
  split
  · unfold breakLength
    split
    · next first =>
        have : stop ≠ e := by
          rintro rfl
          exact plain.2 first
        split
        · next second =>
            have : stop + 1 ≠ e := by
              rintro rfl
              exact plain.1 second
            omega
        · omega
    · split
      · next first =>
          have : stop ≠ e := by
            rintro rfl
            exact plain.1 first
          omega
      · omega
  · exact le

end

theorem getLast?_linesKept {cs l : List Char} {ls : List (List Char)}
    (h : linesKept cs = l :: ls) (more : ls ≠ []) : l.getLast? = some '\n' := by
  induction cs generalizing l ls with
  | nil => cases h
  | cons c cs ih =>
      simp only [linesKept] at h
      split at h
      · next feed =>
          cases h
          rw [feed]
          rfl
      · split at h
        · cases h
          exact absurd rfl more
        · next first others lines =>
            cases h
            rw [List.getLast?_cons, ih lines more]
            rfl

theorem edges_of_mem_ofLines (done cs : List Char) (before : LineEdge (done ++ cs) (byteLength done))
    {line : Nat} {blocks : List Bool} {r : CutRange}
    (h : r ∈ CutRange.ofLines (byteLength done) line blocks (linesKept cs)) :
    LineEdge (done ++ cs) r.start ∧ LineEdge (done ++ cs) r.stop := by
  generalize hls : linesKept cs = ls at h
  induction ls generalizing done cs line blocks with
  | nil => cases h
  | cons l ls ih =>
      obtain ⟨rest, rfl, rfl, -⟩ := linesKept_cons hls
      have full : l ≠ [] := linesKept_ne_nil (hls ▸ List.mem_cons_self)
      have behind : LineEdge (done ++ (l ++ rest)) (byteLength (done ++ l)) := by
        rw [← List.append_assoc]
        cases lines : linesKept rest with
        | nil =>
            have none := linesKept_flatten rest
            rw [lines] at none
            rw [← none, List.flatten_nil, List.append_nil]
            exact .inr (.inr rfl)
        | cons m ms =>
            refine .inr (.inl ((charAt?_before rfl (by simp [full]) rfl).mpr ?_))
            rw [List.getLast?_append, getLast?_linesKept hls (by simp [lines]), Option.some_or]
      cases CutRange.mem_ofLines_cons h with
      | inl first =>
          rw [first.1, first.2.1, ← byteLength_append]
          exact ⟨before, behind⟩
      | inr later =>
          obtain ⟨blocks, h⟩ := later
          rw [← byteLength_append] at h
          rw [← List.append_assoc] at behind ⊢
          exact ih (done ++ l) rest behind rfl h

theorem edges_of_mem_cutRanges {source : List Char} {r : CutRange} (h : r ∈ cutRanges source) :
    LineEdge source r.start ∧ LineEdge source r.stop := by
  have lines : ∀ b ∈ (CutRange.ofLines 0 1 [] (linesKept source)).map CutRange.bounds,
      LineEdge source b.1 ∧ LineEdge source b.2 := by
    intro b hb
    obtain ⟨a, ha, rfl⟩ := List.mem_map.mp hb
    exact edges_of_mem_ofLines [] source (.inl rfl) ha
  have joined := joins_joinDisabled (CutRange.ofLines 0 1 [] (linesKept source))
  obtain ⟨⟨a, ha, start⟩, b, hb, stop⟩ :=
    joined.ends_of_mem (List.mem_map_of_mem (f := CutRange.bounds) h)
  have starts := (lines a ha).1
  have stops := (lines b hb).2
  rw [start] at starts
  rw [stop] at stops
  exact ⟨starts, stops⟩

namespace Piece

/-- Where a piece ends, with the line break that it may own. -/
def reach (source : List Char) (p : Piece) : Nat :=
  match p.content with
  | .token => p.stop
  | .trivia _ kind => reachOf source kind p.stop

/-- A piece ends before the next one starts, or takes all of it. -/
def Clear (source : List Char) (p q : Piece) : Prop :=
  p.start ≤ q.start ∧ (p.reach source ≤ q.start ∨ q.reach source ≤ p.reach source)

/-- Two pieces are apart, or the first holds the second. -/
def Beside (source : List Char) (p q : Piece) : Prop :=
  p.stop ≤ q.start ∨ q.stop ≤ p.start ∨ p.start ≤ q.start ∧ q.reach source ≤ p.stop

/-- A piece that is not empty and is no line break. -/
structure Solid (p : Piece) : Prop where
  full : p.start < p.stop
  noBreak : ∀ line, p.content ≠ .trivia line .endOfLine

theorem stop_le_reach (source : List Char) (p : Piece) : p.stop ≤ p.reach source := by
  unfold reach
  split
  · exact Nat.le_refl _
  · exact le_reachOf _ _ _

section

variable {source done rest gap text behind held left : List Char} {texts : Nat → List Char}
  {p : Piece} {s : Strand}

theorem Met.reach_eq (h : p.Met done rest gap text behind s held left) (full : p.start < p.stop)
    (cut : source = done ++ rest) : p.reach source = byteLength (done ++ gap ++ held) := by
  have some_text : text ≠ [] := by
    rintro rfl
    have start := h.start
    rw [← List.append_nil (done ++ gap), h.stop] at start
    omega
  have cut : source = done ++ gap ++ text ++ behind := by
    rw [cut, h.split, List.append_assoc _ text, List.append_assoc]
  cases h.becomes with
  | token content => rw [reach, content, ← h.stop]
  | trivia content =>
      rw [reach, content, ← h.stop, ← List.append_assoc]
      exact reachOf_eq cut some_text

theorem Met.countP_eq (h : p.Met done rest gap text behind s held left) (solid : p.Solid) :
    [s].countP Strand.isLineBreak = 0 := by
  cases h.becomes with
  | token => rfl
  | @trivia line kind content =>
      have other : kind ≠ .endOfLine := fun same => solid.noBreak line (same ▸ content)
      simp [Strand.isLineBreak, Trivia.isEndOfLine, other]

end
end Piece

/-- The pieces that are left at a cut of the text. Those that start before the cut end before it, and
what is taken behind it the others take. The cut does not follow on a gap. -/
structure Pending (source : List Char) (taken : Nat → Bool) (ps : List Piece) (done : List Char) :
    Prop where
  clear : ps.Pairwise (Piece.Clear source)
  ahead : ∀ p ∈ ps, byteLength done ≤ p.start ∨ p.reach source ≤ byteLength done
  takes : ∀ b, byteLength done ≤ b →
    (taken b = true ↔ ∃ p ∈ ps, p.start ≤ b ∧ b < p.reach source)
  edge : done ≠ [] → taken (byteLength done - 1) = true

namespace Pending

variable {source done done' gap : List Char} {taken : Nat → Bool} {p : Piece} {ps : List Piece}

/-- What comes before all pieces is a gap. -/
theorem isGap (h : Pending source taken ps done)
    (before : ∀ p ∈ ps, byteLength (done ++ gap) ≤ p.start) : IsGap taken done gap where
  free b le lt := by
    rw [Bool.eq_false_iff, Ne, h.takes b le]
    rintro ⟨p, hp, inside⟩
    have := before p hp
    omega
  fresh _ last := h.edge fun none => by simp [none] at last

/-- Behind the first piece the others are left. -/
theorem tail (h : Pending source taken (p :: ps) done) (le : byteLength done ≤ byteLength done')
    (behind : p.reach source ≤ byteLength done')
    (ahead : ∀ q ∈ ps, byteLength done' ≤ q.start ∨ q.reach source ≤ byteLength done')
    (edge : done' ≠ [] → taken (byteLength done' - 1) = true) : Pending source taken ps done' where
  clear := (List.pairwise_cons.mp h.clear).2
  ahead := ahead
  takes b le' := by
    have own : ¬ (p.start ≤ b ∧ b < p.reach source) := by omega
    rw [h.takes b (Nat.le_trans le le')]
    simp only [List.mem_cons, exists_eq_or_imp, own, false_or]
  edge := edge

end Pending

/-- The strands of a text from a cut on are as many line breaks as the pieces leave there. -/
theorem weighs_strands {source : List Char} {texts : Nat → List Char} {taken : Nat → Bool}
    {ps : List Piece} (placed : ∀ p ∈ ps, p.Placed texts source) (solid : ∀ p ∈ ps, p.Solid)
    {done rest : List Char} (h : Pending source taken ps done) (cut : source = done ++ rest) :
    Strand.Along texts (Strand.Weighs source texts taken) (byteLength done)
      (strands (byteLength done) rest ps) := by
  induction ps generalizing done rest with
  | nil =>
      have free : IsGap taken done rest := h.isGap fun p none => nomatch none
      exact along_gapTrivia texts free (by rw [cut, List.append_nil])
  | cons p ps ih =>
      obtain ⟨own, placed⟩ := List.forall_mem_cons.mp placed
      obtain ⟨ownSolid, solid⟩ := List.forall_mem_cons.mp solid
      obtain ⟨before, -⟩ := List.pairwise_cons.mp h.clear
      obtain ⟨ownAhead, ahead⟩ := List.forall_mem_cons.mp h.ahead
      by_cases passed : p.start < byteLength done
      · rw [strands_of_passed passed]
        exact ih placed solid (h.tail (Nat.le_refl _) (by omega) ahead h.edge) cut
      · obtain ⟨gap, text, behind, s, held, left, met, found⟩ :=
          strands_of_ahead own cut (Nat.not_lt.mp passed) ps
        have start := met.start
        have reach := met.reach_eq ownSolid.full cut
        have stop := p.stop_le_reach source
        have full := ownSolid.full
        have free : IsGap taken done gap := h.isGap <| List.forall_mem_cons.mpr
          ⟨Nat.le_of_eq start, fun q hq => start ▸ (before q hq).1⟩
        have takesAll : ∀ b, byteLength (done ++ gap) ≤ b → b < byteLength (done ++ gap ++ held) →
            taken b = true := by
          intro b le lt
          rw [h.takes b (by omega)]
          exact ⟨p, List.mem_cons_self, by omega, by omega⟩
        have left : Pending source taken ps (done ++ gap ++ held) :=
          h.tail (by omega) (Nat.le_of_eq reach) (fun q hq => reach ▸ (before q hq).2)
            fun _ => takesAll _ (by omega) (by omega)
        rw [found, Strand.along_append, Strand.extent_gaps, triviaText_gapTrivia, Strand.Along,
          Strand.Weighs, met.text_eq own cut, met.countP_eq ownSolid, ← byteLength_append,
          ← byteLength_append]
        exact ⟨along_gapTrivia texts free (cut.trans (congrArg (done ++ ·) met.split)),
          breaksIn_taken takesAll, ih placed solid left (met.cut cut)⟩

theorem countP_gaps (ts : List Trivia) :
    (ts.map Strand.gap).countP Strand.isLineBreak = ts.countP Trivia.isEndOfLine := by
  rw [List.countP_map]
  rfl

theorem countP_strands (ts : List TokenTrivia) :
    (ts.flatMap TokenTrivia.strands).countP Strand.isLineBreak =
      (ts.flatMap fun t => t.leading ++ t.trailing).countP Trivia.isEndOfLine := by
  induction ts with
  | nil => rfl
  | cons t ts ih =>
      rw [List.flatMap_cons, List.flatMap_cons, List.countP_append, List.countP_append, ih,
        TokenTrivia.strands, List.countP_append, List.countP_append, List.countP_cons_of_neg,
        countP_gaps, countP_gaps]
      exact Bool.false_ne_true

theorem flatMap_ownTrivia_tokens {leaves : List (String × Span)} {ts : List TokenTrivia}
    (h : Shares leaves ts) :
    (List.zipWith tokenOf leaves ts).flatMap SyntaxNode.ownTrivia =
      ts.flatMap fun t => t.leading ++ t.trailing := by
  induction leaves generalizing ts with
  | nil =>
      obtain rfl := List.map_eq_nil_iff.mp h
      rfl
  | cons x leaves ih =>
      obtain ⟨t, ts, rfl, -, rest⟩ := List.map_eq_cons_iff.mp h
      rw [List.zipWith_cons_cons, List.flatMap_cons, List.flatMap_cons, ih rest]
      rfl

namespace ConcreteFile

/-- A file over its source whose comments and directives are not empty, end with the line breaks that
they own before the next one starts, and do not straddle the edge of a directive line or of a
disabled run. -/
structure Arranged (file : ConcreteFile) (source : List Char) : Prop extends file.Over source where
  kinds : ∀ i ∈ file.islands, i.kind ≠ .endOfLine
  full : ∀ i ∈ file.islands, i.span.startByte < i.span.endByte
  disjoint : file.islands.Pairwise fun i j =>
    reachOf source i.kind i.span.endByte ≤ j.span.startByte
  uncut : ∀ i ∈ file.islands, ∀ r ∈ cutRanges source,
    ¬ PartlyOverlap (i.span.startByte, i.span.endByte) (r.start, r.stop)

/-- The byte belongs to a token, a comment, a directive or disabled text. -/
def taken (file : ConcreteFile) (source : List Char) (b : Nat) : Bool :=
  file.root.tokens.any (fun x => x.2.startByte ≤ b && b < x.2.endByte) ||
    file.islands.any (fun i =>
      i.span.startByte ≤ b && b < reachOf source i.kind i.span.endByte) ||
    (cutRanges source).any fun r => r.start ≤ b && b < r.stop

/-- The line breaks in the gaps of a stretch of the source. -/
def gapBreaks (file : ConcreteFile) (source : List Char) (start stop : Nat) : Nat :=
  breaksIn source (file.taken source) start stop

theorem taken_eq_true (file : ConcreteFile) (source : List Char) (b : Nat) :
    file.taken source b = true ↔
      (∃ x ∈ file.root.tokens, x.2.startByte ≤ b ∧ b < x.2.endByte) ∨
        (∃ i ∈ file.islands, i.span.startByte ≤ b ∧ b < reachOf source i.kind i.span.endByte) ∨
          ∃ r ∈ cutRanges source, r.start ≤ b ∧ b < r.stop := by
  simp only [taken, Bool.or_eq_true, List.any_eq_true, Bool.and_eq_true, decide_eq_true_eq,
    or_assoc]

theorem reach_ofCut {source : List Char} {r : CutRange} (h : r ∈ cutRanges source) :
    (Piece.ofCut r).reach source = r.stop := by
  have full : 0 < r.stop := Nat.zero_lt_of_lt (within_of_mem_cutRanges h).proper
  exact Nat.le_antisymm
    (reachOf_le_of_edge (edges_of_mem_cutRanges h).2 full (Nat.le_refl _)) (le_reachOf _ _ _)

theorem exists_piece_of_cut (file : ConcreteFile) {source : List Char} {b : Nat}
    (found : ∃ r ∈ cutRanges source, r.start ≤ b ∧ b < r.stop) :
    ∃ p ∈ file.pieces source, p.start ≤ b ∧ b < p.reach source := by
  obtain ⟨r, hr, inside⟩ := found
  refine ⟨.ofCut r, List.mem_append_right _ (List.mem_map_of_mem hr), ?_⟩
  rw [reach_ofCut hr]
  exact inside

/-- A stretch that stays and straddles no cut is apart from it or holds it. -/
theorem apart_of_cut {source : List Char} {r : CutRange} (hr : r ∈ cutRanges source) {span : Span}
    (full : span.startByte < span.endByte) (stays : dropped source span = false)
    (whole : ¬ PartlyOverlap (span.startByte, span.endByte) (r.start, r.stop)) :
    span.endByte ≤ r.start ∨ r.stop ≤ span.startByte ∨
      span.startByte ≤ r.start ∧ r.stop ≤ span.endByte := by
  by_cases inside : r.start ≤ span.startByte ∧ span.endByte ≤ r.stop
  · have := covers_of_mem_cutRanges hr full inside
    rw [dropped, this] at stays
    cases stays
  · simp only [PartlyOverlap] at whole
    omega

/-- A byte of what conditional compilation takes out lies in a cut. -/
theorem cut_of_dropped {source : List Char} {span : Span} (full : span.startByte < span.endByte)
    (out : dropped source span = true) {b : Nat} (le : span.startByte ≤ b) (lt : b < span.endByte) :
    ∃ r ∈ cutRanges source, r.start ≤ b ∧ b < r.stop :=
  (covers_iff_bytes source full).mp out b le lt

theorem mem_sorted_pieces {file : ConcreteFile} {source : List Char} {p : Piece} :
    p ∈ (file.pieces source).mergeSort (fun p q => p.start ≤ q.start) ↔ p ∈ file.pieces source :=
  (List.mergeSort_perm _ _).mem_iff

namespace Arranged

variable {file : ConcreteFile} {source : List Char} (h : file.Arranged source)
include h

/-- What conditional compilation takes out of an island stands in a cut, and so does the line break
that the island owns. -/
theorem exists_piece_of_island {i : Island} (hi : i ∈ file.islands) {b : Nat}
    (le : i.span.startByte ≤ b) (lt : b < reachOf source i.kind i.span.endByte) :
    ∃ p ∈ file.pieces source, p.start ≤ b ∧ b < p.reach source := by
  have full := h.full i hi
  cases out : dropped source i.span with
  | true =>
      by_cases inner : b < i.span.endByte
      · exact exists_piece_of_cut file (cut_of_dropped full out le inner)
      · -- the cut of its last byte ends at the edge of a line
        obtain ⟨r, hr, around⟩ :=
          cut_of_dropped full out (b := i.span.endByte - 1) (by omega) (by omega)
        have reach : reachOf source i.kind i.span.endByte ≤ r.stop :=
          reachOf_le_of_edge (edges_of_mem_cutRanges hr).2 (by omega) (by omega)
        exact exists_piece_of_cut file ⟨r, hr, by omega, by omega⟩
  | false =>
      have kept : i ∈ file.islands.filter fun i => !dropped source i.span :=
        List.mem_filter.mpr ⟨hi, by simp [out]⟩
      exact ⟨.ofIsland i, List.mem_append_left _ (List.mem_append_right _
        (List.mem_map_of_mem kept)), le, lt⟩

/-- A piece takes the byte if and only if something in the file does, in a cut or not. -/
theorem taken_iff (b : Nat) :
    file.taken source b = true ↔
      ∃ p ∈ file.pieces source, p.start ≤ b ∧ b < p.reach source := by
  rw [taken_eq_true]
  constructor
  · rintro (⟨x, hx, inside⟩ | ⟨i, hi, le, lt⟩ | found)
    · cases out : dropped source x.2 with
      | true => exact exists_piece_of_cut file (cut_of_dropped (by omega) out inside.1 inside.2)
      | false =>
          have kept : x ∈ file.keptTokens source := List.mem_filter.mpr ⟨hx, by simp [out]⟩
          exact ⟨.ofSpan x.2, List.mem_append_left _ (List.mem_append_left _
            (List.mem_map.mpr ⟨x, kept, rfl⟩)), inside⟩
    · exact h.exists_piece_of_island hi le lt
    · exact exists_piece_of_cut file found
  · rintro ⟨p, hp, inside⟩
    rcases Over.eq_of_mem_pieces hp with ⟨x, hx, rfl⟩ | ⟨i, hi, rfl⟩ | ⟨r, hr, rfl⟩
    · exact .inl ⟨x, (Over.full_of_kept hx).1, inside⟩
    · exact .inr (.inl ⟨i, hi, inside⟩)
    · rw [reach_ofCut hr] at inside
      exact .inr (.inr ⟨r, hr, inside⟩)

theorem solid_of_mem {p : Piece} (hp : p ∈ file.pieces source) : p.Solid := by
  rcases Over.eq_of_mem_pieces hp with ⟨x, hx, rfl⟩ | ⟨i, hi, rfl⟩ | ⟨r, hr, rfl⟩
  · exact ⟨(Over.full_of_kept hx).2.1, fun line same => nomatch same⟩
  · refine ⟨h.full i hi, fun line same => h.kinds i hi ?_⟩
    injection same
  · refine ⟨(within_of_mem_cutRanges hr).proper, fun line same => ?_⟩
    obtain ⟨i, j, kind, cut, rfl⟩ := (mem_cutRanges_iff rfl).mp hr
    cases cut <;> cases same

theorem plain_of_token {x : String × Span} (hx : x ∈ file.root.tokens)
    (full : x.2.startByte < x.2.endByte) : StartsPlain source x.2.startByte := by
  obtain ⟨before, behind, cut, start, stop⟩ := h.texts x hx
  have noBreak := h.breaks x hx
  cases text : x.1.toList with
  | nil =>
      rw [text, byteLength_nil] at stop
      omega
  | cons c cs =>
      rw [text] at noBreak cut
      simp only [startsWithBreak, Bool.or_eq_false_iff, decide_eq_false_iff_not] at noBreak
      rw [StartsPlain, ← start, charAt?_start cut]
      simpa using noBreak

/-- Islands may be listed in any order as far as the line breaks that they own are concerned. -/
theorem reachOf_island_le {i j : Island} (hi : i ∈ file.islands) (hj : j ∈ file.islands)
    (le : i.span.endByte ≤ j.span.startByte) :
    reachOf source i.kind i.span.endByte ≤ j.span.startByte := by
  refine List.Pairwise.forall_of_forall_of_flip
    (R := fun i j : Island => i.span.endByte ≤ j.span.startByte →
      reachOf source i.kind i.span.endByte ≤ j.span.startByte) ?_ ?_ ?_ hi hj le
  · intro i hi le
    have full := h.full i hi
    omega
  · refine h.disjoint.imp ?_
    intro i j reach _
    exact reach
  · -- one listed behind another starts after it
    refine h.disjoint.imp_of_mem ?_
    intro i j hi hj reach le
    have own := le_reachOf source i.kind i.span.endByte
    have full := h.full i hi
    have full' := h.full j hj
    omega

/-- The line break that a piece owns ends before a piece behind it starts. -/
theorem reach_le {p q : Piece} (hp : p ∈ file.pieces source) (hq : q ∈ file.pieces source)
    (le : p.stop ≤ q.start) : p.reach source ≤ q.start := by
  rcases Over.eq_of_mem_pieces hp with ⟨x, -, rfl⟩ | ⟨i, hi, rfl⟩ | ⟨r, hr, rfl⟩
  · exact le
  · rcases Over.eq_of_mem_pieces hq with ⟨x, hx, rfl⟩ | ⟨j, hj, rfl⟩ | ⟨r, hr, rfl⟩
    · obtain ⟨token, proper, -⟩ := Over.full_of_kept hx
      exact reachOf_le_of_plain (h.plain_of_token token proper) le
    · exact h.reachOf_island_le hi hj le
    · exact reachOf_le_of_edge (edges_of_mem_cutRanges hr).1 (Nat.zero_lt_of_lt (h.full i hi)) le
  · rw [reach_ofCut hr]
    exact le

/-- Tokens and islands are apart and hold the cuts that they meet. -/
theorem pieces_beside : (file.pieces source).Pairwise (Piece.Beside source) := by
  rw [pieces, List.pairwise_append, List.pairwise_append]
  refine ⟨⟨?_, ?_, ?_⟩, ?_, ?_⟩
  · rw [List.pairwise_map]
    exact h.kept_ordered.imp fun {x y} le => .inl le
  · rw [List.pairwise_map]
    exact (h.disjoint.filter _).imp fun {i j} le => .inl (Nat.le_trans (le_reachOf _ _ _) le)
  · intro p hp q hq
    obtain ⟨x, hx, rfl⟩ := List.mem_map.mp hp
    obtain ⟨i, hi, rfl⟩ := List.mem_map.mp hq
    have apart := h.apart x (Over.full_of_kept hx).1 i (List.mem_filter.mp hi).1
    exact apart.imp_right .inl
  · have ordered := cutRanges_ordered source
    rw [List.pairwise_map] at ordered ⊢
    exact ordered.imp fun {r s} le => .inl le
  · intro p hp q hq
    obtain ⟨r, hr, rfl⟩ := List.mem_map.mp hq
    rw [Piece.Beside, reach_ofCut hr]
    rcases List.mem_append.mp hp with hp | hp
    · obtain ⟨x, hx, rfl⟩ := List.mem_map.mp hp
      obtain ⟨token, full, stays⟩ := Over.full_of_kept hx
      exact apart_of_cut hr full stays (h.cuts x token r hr)
    · obtain ⟨i, hi, rfl⟩ := List.mem_map.mp hp
      obtain ⟨island, stays⟩ := List.mem_filter.mp hi
      exact apart_of_cut hr (h.full i island) (by simpa using stays) (h.uncut i island r hr)

theorem clear_of_beside {p q : Piece} (hp : p ∈ file.pieces source) (hq : q ∈ file.pieces source)
    (le : p.start ≤ q.start) (beside : Piece.Beside source p q) : Piece.Clear source p q := by
  have full := (h.solid_of_mem hq).full
  have stop := p.stop_le_reach source
  rcases beside with before | behind | inside
  · exact ⟨le, .inl (h.reach_le hp hq before)⟩
  · omega
  · exact ⟨le, .inr (by omega)⟩

/-- Sorted by their starts, no piece reaches into another one. -/
theorem sorted_clear :
    ((file.pieces source).mergeSort fun p q => p.start ≤ q.start).Pairwise
      (Piece.Clear source) := by
  refine (pairwise_mergeSort_stable Piece.start_le_trans Piece.start_le_total
    h.pieces_beside).imp_of_mem ?_
  intro p q hp hq ⟨le, tie⟩
  rw [mem_sorted_pieces] at hp hq
  refine h.clear_of_beside hp hq (of_decide_eq_true le) ?_
  by_cases lt : p.start < q.start
  · -- where one piece starts first, their order before sorting does not matter
    refine List.Pairwise.forall_of_forall_of_flip
      (R := fun p q : Piece => p.start < q.start → p.Beside source q)
      (fun p _ lt => absurd lt (Nat.lt_irrefl _)) ?_ ?_ hp hq lt
    · refine h.pieces_beside.imp ?_
      intro p q beside _
      exact beside
    · refine h.pieces_beside.imp ?_
      intro p q beside lt
      unfold Piece.Beside at beside ⊢
      omega
  · exact tie (by simpa using lt)

/-- The strands of the layout are as many line breaks as stand in the gaps. -/
theorem weighs_layout {texts : Nat → List Char}
    (placed : ∀ p ∈ (file.pieces source).mergeSort fun p q => p.start ≤ q.start,
      p.Placed texts source) :
    Strand.Along texts (Strand.Weighs source texts (file.taken source)) 0
      (file.layout source).strands := by
  have solid : ∀ p ∈ (file.pieces source).mergeSort fun p q => p.start ≤ q.start, p.Solid :=
    fun p hp => h.solid_of_mem (mem_sorted_pieces.mp hp)
  have start : Pending source (file.taken source)
      ((file.pieces source).mergeSort fun p q => p.start ≤ q.start) [] :=
    { clear := h.sorted_clear
      ahead := fun p _ => .inl (Nat.zero_le _)
      takes := fun b _ => by simp only [h.taken_iff, mem_sorted_pieces]
      edge := fun full => absurd rfl full }
  rw [h.layout_eq]
  refine along_ofPieces (fun pos s weighs => weighs.asGap) ?_
  exact weighs_strands placed solid start (List.nil_append source).symm

/-- The trivia of tokens that follow one another is as many line breaks as stand in the gaps of their
stretch. -/
theorem stretch_breaks {path : String} {before tokens after : List SyntaxNode}
    (split : (file.syntaxTree path source).root.tokens = before ++ (tokens ++ after)) :
    (tokens.flatMap SyntaxNode.ownTrivia).countP Trivia.isEndOfLine =
      file.gapBreaks source (byteLength (before.flatMap SyntaxNode.fullText))
        (byteLength ((before ++ tokens).flatMap SyntaxNode.fullText)) := by
  obtain ⟨texts, named, placed⟩ := h.exists_placed
  rw [h.tokens_eq] at split
  obtain ⟨xs, _, us, _, leaves, shares, first, rest, rfl, found⟩ := h.shares.of_append split
  obtain ⟨ys, zs, ws, vs, rfl, rfl, own, -, rfl, -⟩ := rest.of_append found.symm
  rw [leaves, List.forall_mem_append, List.forall_mem_append] at named
  have counted := Strand.breaksIn_of_along
    (Layout.along_stretch (h.weighs_layout placed) us ws vs shares)
  rw [extent_strands, countP_strands] at counted
  rw [List.flatMap_append, byteLength_append, flatMap_fullText first named.1,
    flatMap_fullText own named.2.1, flatMap_ownTrivia_tokens own, ← counted]
  rfl

end Arranged

theorem ownTrivia_root {file : ConcreteFile} {source : List Char} (h : file.Over source)
    (path : String) :
    (file.syntaxTree path source).root.ownTrivia = (file.layout source).endOfFile := by
  have bare := h.bare_bareRoot _ (SyntaxNode.mem_preorder_self _)
    (by simpa [SyntaxNode.isToken] using h.kind_bareRoot)
  rw [root_eq]
  rw [SyntaxNode.ownTrivia, List.append_eq_nil_iff] at bare
  rw [SyntaxNode.ownTrivia, bare.1, List.nil_append]

theorem descendantTrivia_root {file : ConcreteFile} {source : List Char} (h : file.Over source)
    (path : String) :
    let root := (file.syntaxTree path source).root
    root.descendantTrivia =
      (file.layout source).endOfFile ++ root.tokens.flatMap SyntaxNode.ownTrivia := by
  intro root
  have bare : ∀ m ∈ root.children.flatMap SyntaxNode.preorder, m.isToken = false →
      m.ownTrivia = [] := by
    intro m hm
    obtain ⟨c, hc, hm⟩ := List.mem_flatMap.mp hm
    exact h.bare_children path c hc m hm
  have tokens : (root.children.flatMap SyntaxNode.preorder).filter SyntaxNode.isToken =
      root.tokens := by
    rw [SyntaxNode.tokens_eq, SyntaxNode.preorder_eq, List.filter_cons_of_neg]
    simpa [SyntaxNode.isToken, root, root_eq] using h.kind_bareRoot
  rw [SyntaxNode.descendantTrivia, SyntaxNode.descendants_eq, SyntaxNode.preorder_eq,
    List.flatMap_cons, SyntaxNode.flatMap_ownTrivia bare, tokens, ← ownTrivia_root h path]

/-- The line count of a file is the number of line breaks in its gaps. -/
theorem Arranged.endOfLineCount_root {file : ConcreteFile} {source : List Char}
    (h : file.Arranged source) (path : String) :
    (file.syntaxTree path source).endOfLineCount =
      file.gapBreaks source 0 (byteLength source) := by
  obtain ⟨texts, -, placed⟩ := h.exists_placed
  have counted := Strand.breaksIn_of_along (h.weighs_layout placed)
  have text := (ofPieces_spec texts placed h.sorted_pieces.1).1
  rw [← h.layout_eq] at text
  rw [Layout.strands, Strand.extent_append, extent_strands, Strand.extent_gaps, ← byteLength_append,
    text, Nat.zero_add, List.countP_append, countP_strands, countP_gaps] at counted
  rw [SyntaxTree.endOfLineCount, SyntaxNode.endOfLineCount, descendantTrivia_root h.toOver,
    List.countP_append, h.tokens_eq, flatMap_ownTrivia_tokens h.shares, Nat.add_comm]
  exact counted.symm

/-- The line count of a node is the number of line breaks in the gaps from the trivia of its first
token to that of its last. -/
theorem Arranged.endOfLineCount_node {file : ConcreteFile} {source : List Char}
    (h : file.Arranged source) {path : String} {child n first last : SyntaxNode}
    (below : child ∈ (file.syntaxTree path source).root.children) (hn : n ∈ child.descendants)
    (isFirst : n.tokens.head? = some first) (isLast : n.tokens.getLast? = some last) :
    ∃ start stop, StandsAt source start first.span.startByte (triviaText first.leading) ∧
      StandsAt source last.span.endByte stop (triviaText last.trailing) ∧
      n.endOfLineCount = file.gapBreaks source start stop := by
  obtain ⟨bare, before, after, split⟩ := h.tokens_of_mem below hn
  have counted := h.stretch_breaks split
  rw [← bare.descendantTrivia] at counted
  refine ⟨_, _, ?_, ?_, counted⟩
  · obtain ⟨others, tokens⟩ := List.head?_eq_some_iff.mp isFirst
    rw [tokens] at split
    exact h.standsAt_leading split
  · obtain ⟨others, tokens⟩ := List.getLast?_eq_some_iff.mp isLast
    rw [tokens, List.append_assoc, ← List.append_assoc] at split
    rw [tokens, ← List.append_assoc]
    exact h.standsAt_trailing split

end ConcreteFile

/-- End-of-line trivia is the line breaks in the gaps of the source: for the tree those of the whole
source, for a node with tokens those from the trivia before its first token to the trivia behind its
last. -/
theorem endOfLineCount_syntaxTree (file : ConcreteFile) (path : String) (source : List Char)
    (h : file.Arranged source) :
    let tree := file.syntaxTree path source
    tree.endOfLineCount = file.gapBreaks source 0 (byteLength source) ∧
      ∀ child ∈ tree.root.children, ∀ n ∈ child.descendants, ∀ first last,
        n.tokens.head? = some first → n.tokens.getLast? = some last →
          ∃ start stop, StandsAt source start first.span.startByte (triviaText first.leading) ∧
            StandsAt source last.span.endByte stop (triviaText last.trailing) ∧
            n.endOfLineCount = file.gapBreaks source start stop :=
  ⟨h.endOfLineCount_root path,
    fun _ below _ hn _ _ first last => h.endOfLineCount_node below hn first last⟩

theorem endOfLineCount_spacedBranches :
    ConcreteFile.spacedBranches.Arranged spacedBranchesText ∧
      (ConcreteFile.spacedBranches.syntaxTree "A.cs" spacedBranchesText).endOfLineCount = 3 := by
  have file : ConcreteFile.spacedBranches.Arranged spacedBranchesText :=
    { over_spacedBranches with
      kinds := by decide
      full := by decide
      disjoint := by decide
      uncut := by decide +kernel }
  refine ⟨file, (endOfLineCount_syntaxTree _ _ _ file).1.trans ?_⟩
  decide +kernel

end Antipattern.CSharp
