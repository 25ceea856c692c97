import Antipattern.Proofs.TriviaLayout

/-!
Where the strands of a file stand. A piece that is met stands behind a gap and is followed by what
is left of the text; so the strands follow one another, and each token stands at the byte that it is
known by. Sharing the trivia out among the tokens changes neither the strands nor their order.
-/

namespace Antipattern.CSharp

open Text

/-- What a piece with a text and something behind it is in the layout: its strand, the text of the
strand and what is left. -/
inductive Piece.Becomes (p : Piece) (text behind : List Char) :
    Strand → List Char → List Char → Prop
  | token (content : p.content = .token) : Becomes p text behind (.token p.start) text behind
  | trivia {line : Nat} {kind : TriviaKind} (content : p.content = .trivia line kind) :
      Becomes p text behind
        (.island line ⟨kind, String.ofList (text ++ (ownedBreak kind text behind).1)⟩)
        (text ++ (ownedBreak kind text behind).1) (ownedBreak kind text behind).2

/-- The text from a cut on with the next piece in it. -/
structure Piece.Met (p : Piece) (done rest gap text behind : List Char) (s : Strand)
    (held left : List Char) : Prop where
  split : rest = gap ++ (text ++ behind)
  start : byteLength (done ++ gap) = p.start
  stop : byteLength (done ++ gap ++ text) = p.stop
  becomes : p.Becomes text behind s held left

section

variable {source done rest gap text behind held left : List Char} {texts : Nat → List Char}
  {p : Piece} {s : Strand}

theorem Piece.Becomes.append (h : p.Becomes text behind s held left) :
    held ++ left = text ++ behind := by
  cases h with
  | token => rfl
  | @trivia line kind =>
      rw [List.append_assoc, ownedBreak_append]

theorem Piece.Met.cut (h : p.Met done rest gap text behind s held left)
    (cut : source = done ++ rest) : source = done ++ gap ++ held ++ left := by
  rw [cut, h.split, List.append_assoc _ held, h.becomes.append, List.append_assoc]

/-- The strand of a piece holds the text at its place. -/
theorem Piece.Met.text_eq (h : p.Met done rest gap text behind s held left)
    (placed : p.Placed texts source) (cut : source = done ++ rest) : s.text texts = held := by
  cases h.becomes with
  | token content =>
      rw [h.split, ← List.append_assoc] at cut
      exact (placed.token content).1.eq cut h.start h.stop
  | trivia => exact String.toList_ofList

theorem strands_of_passed (h : p.start < byteLength done) (rest : List Char) (ps : List Piece) :
    strands (byteLength done) rest (p :: ps) = strands (byteLength done) rest ps := by
  rw [strands, if_pos h]

/-- A piece that is not passed over gives the strands of the gap before it and its own strand. -/
theorem strands_of_ahead (placed : p.Placed texts source) (cut : source = done ++ rest)
    (ahead : byteLength done ≤ p.start) (ps : List Piece) :
    ∃ gap text behind s held left, p.Met done rest gap text behind s held left ∧
      strands (byteLength done) rest (p :: ps) = (gapTrivia gap).map Strand.gap ++
        s :: strands (byteLength (done ++ gap ++ held)) left ps := by
  obtain ⟨gap, here, rfl, start⟩ := placed.start.split cut ahead
  rw [← List.append_assoc] at cut
  obtain ⟨text, behind, rfl, stop⟩ := placed.stop.split cut (by rw [start]; exact placed.le)
  have gapBytes : p.start - byteLength done = byteLength gap := by
    rw [← start, byteLength_append]
    omega
  have textBytes : p.stop - p.start = byteLength text := by
    rw [← stop, ← start, byteLength_append (done ++ gap)]
    omega
  rw [strands, if_neg (Nat.not_lt.mpr ahead), gapBytes, splitBytes_byteLength]
  simp only [textBytes, splitBytes_byteLength]
  cases content : p.content with
  | token =>
      refine ⟨gap, text, behind, _, _, _, ⟨rfl, start, stop, .token content⟩, ?_⟩
      rw [stop]
  | trivia line kind =>
      refine ⟨gap, text, behind, _, _, _, ⟨rfl, start, stop, .trivia content⟩, ?_⟩
      rw [← List.append_assoc, byteLength_append (done ++ gap ++ text), stop]
      rfl

end

namespace Strand

/-- A property of strands and the bytes that they start at, for strands from byte `pos` on. -/
def Along (texts : Nat → List Char) (P : Nat → Strand → Prop) : Nat → List Strand → Prop
  | _, [] => True
  | pos, s :: ss => P pos s ∧ Along texts P (pos + byteLength (s.text texts)) ss

/-- The bytes that strands take together. -/
def extent (texts : Nat → List Char) (ss : List Strand) : Nat :=
  byteLength (ss.flatMap (text texts))

section

variable {texts : Nat → List Char} {P : Nat → Strand → Prop} {pos : Nat} {ss ss' : List Strand}

@[simp] theorem extent_nil : extent texts [] = 0 := rfl

@[simp] theorem extent_cons (s : Strand) :
    extent texts (s :: ss) = byteLength (s.text texts) + extent texts ss :=
  byteLength_append _ _

@[simp] theorem extent_append : extent texts (ss ++ ss') = extent texts ss + extent texts ss' := by
  rw [extent, List.flatMap_append, byteLength_append]
  rfl

theorem extent_gaps (ts : List Trivia) :
    extent texts (ts.map Strand.gap) = byteLength (triviaText ts) := by
  rw [extent, List.flatMap_map]
  rfl

theorem along_append :
    Along texts P pos (ss ++ ss') ↔
      Along texts P pos ss ∧ Along texts P (pos + extent texts ss) ss' := by
  induction ss generalizing pos with
  | nil => simp [Along]
  | cons s ss ih => simp only [List.cons_append, Along, ih, extent_cons, and_assoc, Nat.add_assoc]

theorem along_gaps {ts : List Trivia} (each : ∀ t ∈ ts, ∀ pos, P pos (.gap t)) :
    Along texts P pos (ts.map Strand.gap) := by
  induction ts generalizing pos with
  | nil => trivial
  | cons t ts ih =>
      rw [List.forall_mem_cons] at each
      exact ⟨each.1 pos, ih each.2⟩

end

/-- A token stands at the byte that it is known by. -/
def AtPlace (pos : Nat) (s : Strand) : Prop :=
  ∀ start, s.token? = some start → start = pos

end Strand

theorem atPlace_strands {source : List Char} {texts : Nat → List Char} {ps : List Piece}
    (placed : ∀ p ∈ ps, p.Placed texts source) {done rest : List Char}
    (cut : source = done ++ rest) :
    Strand.Along texts Strand.AtPlace (byteLength done) (strands (byteLength done) rest ps) := by
  have gaps (ts : List Trivia) (pos : Nat) :
      Strand.Along texts Strand.AtPlace pos (ts.map Strand.gap) :=
    Strand.along_gaps fun t _ pos start same => nomatch same
  induction ps generalizing done rest with
  | nil => exact gaps _ _
  | cons p ps ih =>
      obtain ⟨own, placed⟩ := List.forall_mem_cons.mp placed
      by_cases passed : p.start < byteLength done
      · rw [strands_of_passed passed]
        exact ih placed cut
      · obtain ⟨gap, text, behind, s, held, left, met, found⟩ :=
          strands_of_ahead own cut (Nat.not_lt.mp passed) ps
        have holds := met.text_eq own cut
        have rest := ih placed (met.cut cut)
        have start := met.start
        rw [byteLength_append] at start
        rw [found, Strand.along_append, Strand.extent_gaps, triviaText_gapTrivia]
        refine ⟨gaps _ _, ?_, ?_⟩
        · intro known token
          cases met.becomes with
          | token => rw [start, ← Option.some.inj token]
          | trivia => cases token
        · rw [holds, ← byteLength_append, ← byteLength_append]
          exact rest

/-- An island as if it stood in a gap. -/
def Strand.asGap : Strand → Strand
  | island _ t => gap t
  | s => s

@[simp] theorem Strand.text_asGap (texts : Nat → List Char) (s : Strand) :
    s.asGap.text texts = s.text texts := by
  cases s <;> rfl

theorem Strand.along_map_asGap {texts : Nat → List Char} {P : Nat → Strand → Prop} {pos : Nat}
    {ss : List Strand} (same : ∀ pos s, P pos s → P pos s.asGap) (h : Along texts P pos ss) :
    Along texts P pos (ss.map asGap) := by
  induction ss generalizing pos with
  | nil => trivial
  | cons s ss ih =>
      refine ⟨same pos s h.1, ?_⟩
      rw [text_asGap]
      exact ih h.2

/-- A token between its trivia. -/
def TokenTrivia.strands (t : TokenTrivia) : List Strand :=
  t.leading.map .gap ++ .token t.start :: t.trailing.map .gap

/-- The strands of a layout in the order of the file. -/
def Layout.strands (layout : Layout) : List Strand :=
  layout.tokens.flatMap TokenTrivia.strands ++ layout.endOfFile.map .gap

theorem map_asGap_segments (ss : List Strand) :
    (Strand.segments ss).1.map .gap ++
        (Strand.segments ss).2.flatMap (fun x => .token x.1 :: x.2.map .gap) =
      ss.map Strand.asGap := by
  induction ss with
  | nil => rfl
  | cons s ss ih =>
      rw [List.map_cons, ← ih]
      cases s <;> rfl

theorem strands_shareOut (leading : List Trivia) (xs : List (Nat × List Trivia)) :
    (shareOut leading xs).1.flatMap TokenTrivia.strands ++ (shareOut leading xs).2.map .gap =
      leading.map .gap ++ xs.flatMap fun x => .token x.1 :: x.2.map .gap := by
  induction xs generalizing leading with
  | nil => simp [shareOut]
  | cons x xs ih =>
      obtain ⟨start, behind⟩ := x
      have whole := congrArg (List.map Strand.gap) (splitTrailing_append behind)
      rw [List.map_append] at whole
      simp only [shareOut, List.flatMap_cons, TokenTrivia.strands, List.append_assoc,
        List.cons_append, ih, ← whole]

theorem strands_ofPieces (source : List Char) (ps : List Piece) :
    (Layout.ofPieces source ps).strands = (strands 0 source ps).map Strand.asGap :=
  (strands_shareOut _ _).trans (map_asGap_segments _)

/-- What holds along the strands of the pieces holds along those of the layout. -/
theorem along_ofPieces {texts : Nat → List Char} {P : Nat → Strand → Prop} {source : List Char}
    {ps : List Piece} (same : ∀ pos s, P pos s → P pos s.asGap)
    (h : Strand.Along texts P 0 (strands 0 source ps)) :
    Strand.Along texts P 0 (Layout.ofPieces source ps).strands := by
  rw [strands_ofPieces]
  exact Strand.along_map_asGap same h

theorem extent_strands (texts : Nat → List Char) (ts : List TokenTrivia) :
    Strand.extent texts (ts.flatMap TokenTrivia.strands) =
      byteLength (ts.flatMap (TokenTrivia.text texts)) := by
  induction ts with
  | nil => rfl
  | cons t ts ih =>
      rw [List.flatMap_cons, List.flatMap_cons, Strand.extent_append, ih, TokenTrivia.strands,
        TokenTrivia.text, Strand.extent_append, Strand.extent_cons, Strand.extent_gaps,
        Strand.extent_gaps]
      simp only [byteLength_append, Strand.text, Nat.add_assoc]

/-- What holds along the strands of a layout holds along those of a stretch of its tokens. -/
theorem Layout.along_stretch {texts : Nat → List Char} {P : Nat → Strand → Prop} {layout : Layout}
    (h : Strand.Along texts P 0 layout.strands) (us ws vs : List TokenTrivia)
    (split : layout.tokens = us ++ (ws ++ vs)) :
    Strand.Along texts P (byteLength (us.flatMap (TokenTrivia.text texts)))
      (ws.flatMap TokenTrivia.strands) := by
  rw [Layout.strands, split, List.flatMap_append, List.flatMap_append, List.append_assoc,
    List.append_assoc, Strand.along_append, Strand.along_append, extent_strands, Nat.zero_add] at h
  exact h.2.1

end Antipattern.CSharp
