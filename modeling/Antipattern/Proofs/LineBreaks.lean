import Antipattern.Proofs.StrandPlaces

/-!
Line breaks by the bytes that they start at. Some bytes of a text are taken by something else; a line
break counts where it is not taken, and a carriage return with the line feed behind it counts once.
The trivia of a gap between taken bytes is as many line breaks as stand there.
-/

namespace Antipattern

namespace Text

/-- The character that starts at a byte. -/
def charAt? : List Char → Nat → Option Char
  | [], _ => none
  | c :: cs, n =>
      if n = 0 then some c
      else if n < c.utf8Size then none
      else charAt? cs (n - c.utf8Size)

section

variable {source done rest : List Char} {c : Char}

theorem charAt?_append (before rest : List Char) (n : Nat) :
    charAt? (before ++ rest) (byteLength before + n) = charAt? rest n := by
  induction before with
  | nil => simp
  | cons c before ih =>
      have size := Char.utf8Size_pos c
      have skipped : c.utf8Size + byteLength before + n - c.utf8Size = byteLength before + n := by
        omega
      rw [List.cons_append, byteLength_cons, charAt?, if_neg (by omega), if_neg (by omega), skipped,
        ih]

/-- The bytes of one character. -/
theorem charAt?_of_cut (cut : source = done ++ c :: rest) {k : Nat} (inside : k < c.utf8Size) :
    charAt? source (byteLength done + k) = if k = 0 then some c else none := by
  rw [cut, charAt?_append, charAt?, if_pos inside]

theorem charAt?_start (cut : source = done ++ c :: rest) :
    charAt? source (byteLength done) = some c :=
  charAt?_of_cut cut (Char.utf8Size_pos c)

theorem charAt?_end (source : List Char) : charAt? source (byteLength source) = none := by
  have h := charAt?_append source [] 0
  rwa [List.append_nil] at h

theorem cut_of_charAt? {n : Nat} (h : charAt? source n = some c) :
    ∃ done rest, source = done ++ c :: rest ∧ byteLength done = n := by
  induction source generalizing n with
  | nil => cases h
  | cons x source ih =>
      rw [charAt?] at h
      split at h
      · next zero =>
          obtain rfl := Option.some.inj h
          exact ⟨[], source, rfl, zero.symm⟩
      · split at h
        · cases h
        · obtain ⟨done, rest, rfl, bytes⟩ := ih h
          exact ⟨x :: done, rest, rfl, by rw [byteLength_cons, bytes]; omega⟩

/-- What stands in the byte before a cut. -/
theorem charAt?_before (cut : source = done ++ rest) (full : done ≠ []) (one : c.utf8Size = 1) :
    charAt? source (byteLength done - 1) = some c ↔ done.getLast? = some c := by
  have some_byte : byteLength done ≠ 0 := mt byteLength_eq_zero full
  constructor
  · intro h
    obtain ⟨before, behind, found, bytes⟩ := cut_of_charAt? h
    rw [List.append_cons] at found
    obtain ⟨rfl, -⟩ := append_inj_of_byteLength (cut.symm.trans found)
      (by simp only [byteLength_append, byteLength_cons, byteLength_nil, one]; omega)
    exact List.getLast?_concat
  · intro last
    obtain ⟨before, rfl⟩ := List.getLast?_eq_some_iff.mp last
    rw [byteLength_append, byteLength_cons, byteLength_nil, one]
    exact charAt?_start (by rw [cut, List.append_assoc]; rfl)

end
end Text

namespace CSharp

open Text

/-- A line break that is not taken starts at the byte: a carriage return, or a line feed that does
not stand behind such a return. -/
def breakAt (source : List Char) (taken : Nat → Bool) (b : Nat) : Bool :=
  !taken b && (charAt? source b == some '\r' ||
    (charAt? source b == some '\n' &&
      !(0 < b && !taken (b - 1) && charAt? source (b - 1) == some '\r')))

def breaksIn (source : List Char) (taken : Nat → Bool) (start stop : Nat) : Nat :=
  (List.range' start (stop - start)).countP (breakAt source taken)

section

variable {source : List Char} {taken : Nat → Bool}

theorem breaksIn_append {a b c : Nat} (le : a ≤ b) (le' : b ≤ c) :
    breaksIn source taken a b + breaksIn source taken b c = breaksIn source taken a c := by
  have whole : c - a = (b - a) + (c - b) := by omega
  have next : a + (b - a) = b := by omega
  rw [breaksIn, breaksIn, breaksIn, whole, ← List.range'_append_1, List.countP_append, next]

theorem breaksIn_eq_zero {start stop : Nat}
    (none : ∀ b, start ≤ b → b < stop → breakAt source taken b = false) :
    breaksIn source taken start stop = 0 := by
  rw [breaksIn, List.countP_eq_zero]
  intro b hb
  rw [List.mem_range'_1] at hb
  rw [none b hb.1 (by omega)]
  exact Bool.false_ne_true

theorem breaksIn_taken {start stop : Nat} (all : ∀ b, start ≤ b → b < stop → taken b = true) :
    breaksIn source taken start stop = 0 :=
  breaksIn_eq_zero fun b le lt => by rw [breakAt, all b le lt]; rfl

theorem breaksIn_one (b : Nat) :
    breaksIn source taken b (b + 1) = if breakAt source taken b then 1 else 0 := by
  rw [breaksIn, Nat.add_sub_cancel_left, List.range'_one, List.countP_singleton]

end

/-- Nothing is taken in the stretch behind `done`, and no line break that is not taken reaches into
it. -/
structure IsGap (taken : Nat → Bool) (done gap : List Char) : Prop where
  free : ∀ b, byteLength done ≤ b → b < byteLength (done ++ gap) → taken b = false
  fresh : gap.head? = some '\n' → done.getLast? = some '\r' → taken (byteLength done - 1) = true

section

variable {source done gap rest : List Char} {taken : Nat → Bool} {c : Char}

theorem IsGap.tail (front : List Char) (h : IsGap taken done (front ++ gap)) (full : front ≠ [])
    (whole : front.getLast? = some '\r' → gap.head? ≠ some '\n') :
    IsGap taken (done ++ front) gap where
  free b le lt := by
    rw [byteLength_append] at le
    rw [List.append_assoc] at lt
    exact h.free b (by omega) lt
  fresh first last := by
    rw [List.getLast?_append, List.getLast?_eq_some_getLast full, Option.some_or,
      ← List.getLast?_eq_some_getLast full] at last
    exact absurd first (whole last)

theorem breakAt_eq (h : IsGap taken done (c :: gap)) (cut : source = done ++ c :: (gap ++ rest)) :
    breakAt source taken (byteLength done) = (c == '\r' || c == '\n') := by
  have own : taken (byteLength done) = false := h.free _ (Nat.le_refl _) (by
    have := Char.utf8Size_pos c
    simp only [byteLength_append, byteLength_cons]
    omega)
  have here : charAt? source (byteLength done) = some c := charAt?_start cut
  rw [breakAt, own, here]
  by_cases feed : c = '\n'
  · have alone : (decide (0 < byteLength done) && !taken (byteLength done - 1) &&
        charAt? source (byteLength done - 1) == some '\r') = false := by
      rw [Bool.eq_false_iff]
      intro all
      simp only [Bool.and_eq_true, decide_eq_true_eq, Bool.not_eq_true', beq_iff_eq] at all
      have full : done ≠ [] := by
        rintro rfl
        exact absurd all.1.1 (Nat.lt_irrefl 0)
      have := h.fresh (congrArg some feed) ((charAt?_before cut full rfl).mp all.2)
      rw [all.1.2] at this
      cases this
    simp [alone, feed]
  · have noFeed : (c == '\n') = false := beq_eq_false_iff_ne.mpr feed
    simp [noFeed]

/-- No line break starts inside a character that is none. -/
theorem breaksIn_blank (h : IsGap taken done (c :: gap)) (cut : source = done ++ c :: (gap ++ rest))
    (blank : ¬ (c = '\n' || c = '\r') = true) :
    breaksIn source taken (byteLength done) (byteLength done + c.utf8Size) = 0 := by
  refine breaksIn_eq_zero fun b le lt => ?_
  by_cases first : b = byteLength done
  · rw [first, breakAt_eq h cut]
    simpa [and_comm] using blank
  · have inside := charAt?_of_cut cut (k := b - byteLength done) (by omega)
    rw [Nat.add_sub_cancel' le, if_neg (by omega)] at inside
    simp [breakAt, inside]

theorem breaksIn_single (h : IsGap taken done (c :: gap)) (cut : source = done ++ c :: (gap ++ rest))
    (ends : (c = '\n' || c = '\r') = true) :
    breaksIn source taken (byteLength done) (byteLength done + c.utf8Size) = 1 := by
  have one : c.utf8Size = 1 := by
    simp only [Bool.or_eq_true, decide_eq_true_eq] at ends
    rcases ends with rfl | rfl <;> rfl
  rw [one, breaksIn_one, breakAt_eq h cut, if_pos]
  simpa [or_comm] using ends

/-- The line feed behind a carriage return counts with it. -/
theorem breaksIn_pair (h : IsGap taken done ('\r' :: '\n' :: gap))
    (cut : source = done ++ '\r' :: '\n' :: (gap ++ rest)) :
    breaksIn source taken (byteLength done) (byteLength done + 2) = 1 := by
  have first : breaksIn source taken (byteLength done) (byteLength done + 1) = 1 :=
    breaksIn_single h cut rfl
  have own : taken (byteLength done) = false := h.free _ (Nat.le_refl _) (by
    rw [byteLength_append]
    exact Nat.lt_add_of_pos_right (Nat.add_pos_left (by decide) _))
  have second : breakAt source taken (byteLength done + 1) = false := by
    have feed : charAt? source (byteLength done + 1) = some '\n' := by
      have behind : byteLength done + 1 = byteLength (done ++ ['\r']) := by
        rw [byteLength_append]
        rfl
      rw [behind]
      exact charAt?_start (by rw [cut, ← List.append_cons])
    rw [breakAt, feed, Nat.add_sub_cancel, own, charAt?_start cut]
    simp
  rw [← breaksIn_append (Nat.le_add_right _ 1) (Nat.add_le_add_left (by decide) _), first,
    breaksIn_one (byteLength done + 1), second]
  rfl

end

namespace Strand

def isLineBreak : Strand → Bool
  | token _ => false
  | gap t | island _ t => t.isEndOfLine

section

variable {source : List Char} {texts : Nat → List Char} {taken : Nat → Bool}

/-- The strand is a line break if and only if one that is not taken stands at its place. -/
def Weighs (source : List Char) (texts : Nat → List Char) (taken : Nat → Bool) (pos : Nat)
    (s : Strand) : Prop :=
  breaksIn source taken pos (pos + byteLength (s.text texts)) = [s].countP isLineBreak

theorem Weighs.asGap {pos : Nat} {s : Strand} (h : Weighs source texts taken pos s) :
    Weighs source texts taken pos s.asGap := by
  cases s <;> exact h

theorem breaksIn_of_along {pos : Nat} {ss : List Strand}
    (h : Along texts (Weighs source texts taken) pos ss) :
    breaksIn source taken pos (pos + extent texts ss) = ss.countP isLineBreak := by
  induction ss generalizing pos with
  | nil => exact breaksIn_eq_zero fun b le lt => absurd le (Nat.not_le_of_lt lt)
  | cons s ss ih =>
      rw [extent_cons, ← Nat.add_assoc, ← breaksIn_append (Nat.le_add_right _ _)
        (Nat.le_add_right _ _), ih h.2, h.1, ← List.countP_append, List.singleton_append]

end
end Strand

/-- A blank before runs that weigh what they are. -/
theorem along_consBlank {source : List Char} {texts : Nat → List Char} {taken : Nat → Bool}
    {pos : Nat} {c : Char} {runs : List (TriviaKind × List Char)}
    (blank : breaksIn source taken pos (pos + c.utf8Size) = 0)
    (h : Strand.Along texts (Strand.Weighs source texts taken) (pos + c.utf8Size)
      (runs.map fun run => .gap ⟨run.1, String.ofList run.2⟩)) :
    Strand.Along texts (Strand.Weighs source texts taken) pos
      ((consBlank c runs).map fun run => .gap ⟨run.1, String.ofList run.2⟩) := by
  have own : Strand.Weighs source texts taken pos (.gap ⟨.whitespace, String.ofList [c]⟩) := by
    simpa [Strand.Weighs, Strand.text, Strand.isLineBreak, Trivia.isEndOfLine] using blank
  unfold consBlank
  split
  · next run rest =>
      obtain ⟨first, others⟩ := h
      simp only [Strand.Weighs, Strand.text, String.toList_ofList] at first others
      refine ⟨?_, ?_⟩
      · simp only [Strand.Weighs, Strand.text, String.toList_ofList, byteLength_cons]
        rw [← Nat.add_assoc, ← breaksIn_append (Nat.le_add_right _ _) (Nat.le_add_right _ _), blank,
          first]
        rfl
      · simp only [Strand.text, String.toList_ofList, byteLength_cons, ← Nat.add_assoc]
        exact others
  · refine ⟨own, ?_⟩
    simpa [Strand.text] using h

/-- The trivia of a gap is as many line breaks as stand there. -/
theorem along_gapTrivia {source done gap rest : List Char} (texts : Nat → List Char)
    {taken : Nat → Bool} (h : IsGap taken done gap) (cut : source = done ++ (gap ++ rest)) :
    Strand.Along texts (Strand.Weighs source texts taken) (byteLength done)
      ((gapTrivia gap).map .gap) := by
  rw [gapTrivia, List.map_map]
  show Strand.Along texts _ _ ((gapRuns gap).map fun run => .gap ⟨run.1, String.ofList run.2⟩)
  fun_induction gapRuns gap generalizing done with
  | case1 => trivial
  | case2 cs ih =>
      have behind : IsGap taken (done ++ ['\r', '\n']) cs :=
        IsGap.tail ['\r', '\n'] h (by simp) (by simp)
      have next := ih behind (by rw [cut, List.append_assoc]; rfl)
      rw [byteLength_append] at next
      exact ⟨breaksIn_pair h cut, next⟩
  | case3 c cs single ends ih =>
      have behind : IsGap taken (done ++ [c]) cs := by
        refine IsGap.tail [c] h (by simp) fun last first => ?_
        obtain ⟨cs', rfl⟩ := List.head?_eq_some_iff.mp first
        exact single cs' (Option.some.inj last) rfl
      have next := ih behind (by rw [cut, List.append_assoc]; rfl)
      rw [byteLength_append] at next
      simp only [List.map_cons, Strand.Along, Strand.Weighs, Strand.text, String.toList_ofList]
      exact ⟨breaksIn_single h cut ends, next⟩
  | case4 c cs single blank ih =>
      have behind : IsGap taken (done ++ [c]) cs := by
        refine IsGap.tail [c] h (by simp) fun last => ?_
        obtain rfl : c = '\r' := Option.some.inj last
        exact absurd rfl blank
      have next := ih behind (by rw [cut, List.append_assoc]; rfl)
      rw [byteLength_append] at next
      exact along_consBlank (breaksIn_blank h cut blank) next

end CSharp
end Antipattern
