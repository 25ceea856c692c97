import Antipattern.CSharp.Layout
import Antipattern.Proofs.CutRanges

/-!
The layout of a file loses no text. Strands cut the source into gaps, tokens and islands that follow
one another; segments and shares only regroup the trivia. A token is passed over by no piece that
stands before it, so the tokens of the layout are those of the pieces.
-/

namespace Antipattern

/-- The texts of trivia, one after the other. -/
def triviaText (ts : List Trivia) : List Char :=
  ts.flatMap fun t => t.text.toList

@[simp] theorem triviaText_nil : triviaText [] = [] := rfl

@[simp] theorem triviaText_cons (t : Trivia) (ts : List Trivia) :
    triviaText (t :: ts) = t.text.toList ++ triviaText ts := rfl

@[simp] theorem triviaText_append (xs ys : List Trivia) :
    triviaText (xs ++ ys) = triviaText xs ++ triviaText ys := List.flatMap_append

namespace CSharp

open Text

/-- The text stands in the source from byte `start` up to byte `stop`. -/
def StandsAt (source : List Char) (start stop : Nat) (text : List Char) : Prop :=
  ∃ before behind, source = before ++ (text ++ behind) ∧
    byteLength before = start ∧ start + byteLength text = stop

def startsWithBreak : List Char → Bool
  | c :: _ => c = '\n' || c = '\r'
  | [] => false

theorem takeLineBreak_append (cs : List Char) :
    (takeLineBreak cs).1 ++ (takeLineBreak cs).2 = cs := by
  unfold takeLineBreak
  split <;> rfl

/-- A line break ends before the next token starts. -/
theorem takeLineBreak_le (gap : List Char) {text : List Char} (behind : List Char)
    (full : text ≠ []) (first : startsWithBreak text = false) :
    byteLength (takeLineBreak (gap ++ (text ++ behind))).1 ≤ byteLength gap := by
  cases text with
  | nil => exact absurd rfl full
  | cons c text =>
      simp only [startsWithBreak, Bool.or_eq_false_iff, decide_eq_false_iff_not] at first
      unfold takeLineBreak
      split
      · next split =>
          match gap, split with
          | [], split => simp_all
          | [_], split => simp_all
          | _ :: _ :: _, split => simp_all
      · next split =>
          match gap, split with
          | [], split => simp_all
          | _ :: _, split => simp_all
      · next split =>
          match gap, split with
          | [], split => simp_all
          | _ :: _, split => simp_all
      · exact Nat.zero_le _

theorem triviaText_gapTrivia (gap : List Char) : triviaText (gapTrivia gap) = gap := by
  have blank (c : Char) (runs : List (TriviaKind × List Char)) :
      (consBlank c runs).flatMap (·.2) = c :: runs.flatMap (·.2) := by
    unfold consBlank
    split <;> simp
  have runs : (gapRuns gap).flatMap (·.2) = gap := by
    fun_induction gapRuns gap with
    | case1 => rfl
    | case2 cs ih => simp [ih]
    | case3 c cs _ h ih => simp [ih]
    | case4 c cs _ h ih => rw [blank, ih]
  simpa [triviaText, gapTrivia, List.flatMap_map] using runs

theorem StandsAt.split {source done rest text : List Char} {start stop : Nat}
    (h : StandsAt source start stop text) (cut : source = done ++ rest)
    (le : byteLength done ≤ start) :
    ∃ gap behind, rest = gap ++ (text ++ behind) ∧ byteLength (done ++ gap) = start := by
  obtain ⟨before, behind, found, rfl, -⟩ := h
  obtain ⟨gap, here, rfl, bytes⟩ := Boundary.split ⟨before, _, found, rfl⟩ cut le
  rw [cut, ← List.append_assoc] at found
  exact ⟨gap, behind, by rw [(append_inj_of_byteLength found bytes).2], bytes⟩

theorem StandsAt.eq {source done text behind found : List Char} {start stop : Nat}
    (h : StandsAt source start stop found) (cut : source = done ++ (text ++ behind))
    (atStart : byteLength done = start) (atStop : byteLength (done ++ text) = stop) :
    found = text := by
  obtain ⟨before, after, split, rfl, rfl⟩ := h
  rw [byteLength_append, atStart] at atStop
  have rest := (append_inj_of_byteLength (cut.symm.trans split) atStart).2
  exact (append_inj_of_byteLength rest (Nat.add_left_cancel atStop)).1.symm

def Strand.token? : Strand → Option Nat
  | token start => some start
  | gap _ | island _ _ => none

/-- The text of a strand, where `texts` gives the texts of the tokens by their starts. -/
def Strand.text (texts : Nat → List Char) : Strand → List Char
  | token start => texts start
  | gap t | island _ t => t.text.toList

theorem flatMap_text_gaps (texts : Nat → List Char) (gap : List Char) :
    ((gapTrivia gap).map Strand.gap).flatMap (Strand.text texts) = gap := by
  rw [List.flatMap_map]
  exact triviaText_gapTrivia gap

theorem filterMap_token?_gaps (gap : List Char) :
    ((gapTrivia gap).map Strand.gap).filterMap Strand.token? = [] := by
  simp [List.filterMap_map, Function.comp_def, Strand.token?]

section Pieces

variable {source : List Char} (texts : Nat → List Char)

/-- A piece is a stretch of the source, and the text of a token starts with no line break. -/
structure Piece.Placed (source : List Char) (p : Piece) : Prop where
  start : Boundary source p.start
  stop : Boundary source p.stop
  le : p.start ≤ p.stop
  token : p.content = .token → StandsAt source p.start p.stop (texts p.start) ∧
    texts p.start ≠ [] ∧ startsWithBreak (texts p.start) = false

/-- No piece that comes first reaches into a token. -/
def Piece.Before (p q : Piece) : Prop :=
  q.content = .token → p.stop ≤ q.start

/-- The line break that trivia may own, and the text behind it. -/
def ownedBreak (kind : TriviaKind) (text behind : List Char) : List Char × List Char :=
  if ownsLineBreak kind text then takeLineBreak behind else ([], behind)

theorem ownedBreak_append (kind : TriviaKind) (text behind : List Char) :
    (ownedBreak kind text behind).1 ++ (ownedBreak kind text behind).2 = behind := by
  unfold ownedBreak
  split
  · exact takeLineBreak_append behind
  · rfl

/-- A token that stands behind trivia also stands behind the line break that the trivia owns. -/
theorem ownedBreak_le {p : Piece} (placed : p.Placed texts source) (token : p.content = .token)
    {done behind : List Char} (cut : source = done ++ behind) (le : byteLength done ≤ p.start)
    (kind : TriviaKind) (text : List Char) :
    byteLength (done ++ (ownedBreak kind text behind).1) ≤ p.start := by
  unfold ownedBreak
  split
  · obtain ⟨stands, full, first⟩ := placed.token token
    obtain ⟨gap, after, rfl, bytes⟩ := stands.split cut le
    have within := takeLineBreak_le gap after full first
    rw [byteLength_append] at bytes ⊢
    omega
  · simpa using le

theorem strands_spec {ps : List Piece} (placed : ∀ p ∈ ps, p.Placed texts source)
    (ordered : ps.Pairwise Piece.Before) {done rest : List Char} (cut : source = done ++ rest)
    (free : ∀ p ∈ ps, p.content = .token → byteLength done ≤ p.start) :
    (strands (byteLength done) rest ps).flatMap (Strand.text texts) = rest ∧
      (strands (byteLength done) rest ps).filterMap Strand.token? =
        (ps.filter (·.content = .token)).map (·.start) := by
  induction ps generalizing done rest with
  | nil => exact ⟨flatMap_text_gaps texts rest, filterMap_token?_gaps rest⟩
  | cons p ps ih =>
      obtain ⟨own, placed⟩ := List.forall_mem_cons.mp placed
      obtain ⟨before, ordered⟩ := List.pairwise_cons.mp ordered
      obtain ⟨ownFree, free⟩ := List.forall_mem_cons.mp free
      rw [strands]
      by_cases passed : p.start < byteLength done
      · have island : p.content ≠ .token := fun h => Nat.not_le_of_lt passed (ownFree h)
        rw [if_pos passed, List.filter_cons_of_neg (by simpa using island)]
        exact ih placed ordered cut free
      · obtain ⟨gap, here, rfl, atStart⟩ := own.start.split cut (by omega)
        rw [← List.append_assoc] at cut
        obtain ⟨text, behind, rfl, atStop⟩ := own.stop.split cut (by rw [atStart]; exact own.le)
        have gapBytes : p.start - byteLength done = byteLength gap := by
          rw [← atStart, byteLength_append]
          omega
        have textBytes : p.stop - p.start = byteLength text := by
          rw [← atStop, ← atStart, byteLength_append (done ++ gap)]
          omega
        have cutBehind : source = done ++ gap ++ text ++ behind := by
          rw [cut, List.append_assoc _ text]
        have later : ∀ q ∈ ps, q.content = .token → byteLength (done ++ gap ++ text) ≤ q.start :=
          fun q hq token => atStop ▸ before q hq token
        rw [if_neg passed, gapBytes, splitBytes_byteLength]
        simp only [textBytes, splitBytes_byteLength, List.flatMap_append, List.filterMap_append,
          flatMap_text_gaps, filterMap_token?_gaps, List.nil_append]
        cases content : p.content with
        | token =>
            obtain ⟨texted, filtered⟩ := ih placed ordered cutBehind later
            rw [atStop] at texted filtered
            obtain rfl := (own.token content).1.eq cut atStart atStop
            rw [List.filter_cons_of_pos (by simpa using content)]
            simp [Strand.text, Strand.token?, texted, filtered]
        | trivia line kind =>
            have free q (hq : q ∈ ps) (token : q.content = .token) :=
              ownedBreak_le texts (placed q hq) token cutBehind (later q hq token) kind text
            have whole := ownedBreak_append kind text behind
            rw [← whole, ← List.append_assoc] at cutBehind
            obtain ⟨texted, filtered⟩ := ih placed ordered cutBehind free
            rw [byteLength_append, atStop] at texted filtered
            rw [List.filter_cons_of_neg (by simp [content])]
            simp only [ownedBreak] at whole texted filtered
            refine ⟨?_, (List.filterMap_cons_none rfl).trans filtered⟩
            simp [Strand.text, texted, whole]

end Pieces

/-- The text of a token with its trivia. -/
def TokenTrivia.text (texts : Nat → List Char) (t : TokenTrivia) : List Char :=
  triviaText t.leading ++ texts t.start ++ triviaText t.trailing

theorem segments_spec (texts : Nat → List Char) (ss : List Strand) :
    triviaText (Strand.segments ss).1 ++
        (Strand.segments ss).2.flatMap (fun x => texts x.1 ++ triviaText x.2) =
      ss.flatMap (Strand.text texts) ∧
    (Strand.segments ss).2.map (·.1) = ss.filterMap Strand.token? := by
  induction ss with
  | nil => exact ⟨rfl, rfl⟩
  | cons s ss ih =>
      obtain ⟨texted, starts⟩ := ih
      cases s with
      | token start => simp [Strand.segments, Strand.text, Strand.token?, ← texted, starts]
      | gap t | island _ t =>
          refine ⟨?_, starts.trans (List.filterMap_cons_none rfl).symm⟩
          simp [Strand.segments, Strand.text, ← texted]

theorem splitTrailing_append (ts : List Trivia) :
    (splitTrailing ts).1 ++ (splitTrailing ts).2 = ts := by
  induction ts with
  | nil => rfl
  | cons t ts ih =>
      simp only [splitTrailing]
      split
      · rfl
      · split
        · rfl
        · simp [ih]

theorem shareOut_spec (texts : Nat → List Char) (leading : List Trivia)
    (xs : List (Nat × List Trivia)) :
    (shareOut leading xs).1.flatMap (TokenTrivia.text texts) ++
        triviaText (shareOut leading xs).2 =
      triviaText leading ++ xs.flatMap (fun x => texts x.1 ++ triviaText x.2) ∧
    (shareOut leading xs).1.map (·.start) = xs.map (·.1) := by
  induction xs generalizing leading with
  | nil => simp [shareOut]
  | cons x xs ih =>
      obtain ⟨start, behind⟩ := x
      obtain ⟨texted, starts⟩ := ih (splitTrailing behind).2
      have whole : triviaText (splitTrailing behind).1 ++ triviaText (splitTrailing behind).2 =
          triviaText behind := by
        rw [← triviaText_append, splitTrailing_append]
      simp only [shareOut, List.flatMap_cons, TokenTrivia.text, List.append_assoc, texted,
        List.map_cons, starts, and_true]
      rw [← whole, List.append_assoc]

theorem ofPieces_spec (texts : Nat → List Char) {source : List Char} {ps : List Piece}
    (placed : ∀ p ∈ ps, p.Placed texts source) (ordered : ps.Pairwise Piece.Before) :
    let layout := Layout.ofPieces source ps
    layout.tokens.flatMap (TokenTrivia.text texts) ++ triviaText layout.endOfFile = source ∧
      layout.tokens.map (·.start) = (ps.filter (·.content = .token)).map (·.start) := by
  have cut : source = [] ++ source := rfl
  obtain ⟨strandText, strandTokens⟩ := strands_spec texts placed ordered cut
    fun p _ _ => Nat.zero_le p.start
  obtain ⟨segmentText, segmentTokens⟩ := segments_spec texts (strands 0 source ps)
  obtain ⟨shareText, shareTokens⟩ := shareOut_spec texts
    (Strand.segments (strands 0 source ps)).1 (Strand.segments (strands 0 source ps)).2
  exact ⟨shareText.trans (segmentText.trans strandText),
    shareTokens.trans (segmentTokens.trans strandTokens)⟩

end CSharp
end Antipattern
