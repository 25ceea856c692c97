import Antipattern.CSharp.Conditional

/-!
Where conditional compilation cuts a text. The ranges are whole lines in source order and do not
overlap; so a stretch of text is covered if and only if one of the joined ranges holds all of it.
-/

namespace Antipattern

namespace Text

theorem byteLength_eq_zero {cs : List Char} (h : byteLength cs = 0) : cs = [] := by
  cases cs with
  | nil => rfl
  | cons c cs =>
      have := Char.utf8Size_pos c
      simp only [byteLength_cons] at h
      omega

/-- Two cuts of one text after equally many bytes are the same cut. -/
theorem append_inj_of_byteLength {xs ys zs ws : List Char} (same : xs ++ ys = zs ++ ws)
    (bytes : byteLength xs = byteLength zs) : xs = zs ∧ ys = ws := by
  induction xs generalizing zs with
  | nil =>
      obtain rfl := byteLength_eq_zero bytes.symm
      exact ⟨rfl, same⟩
  | cons x xs ih =>
      cases zs with
      | nil => cases byteLength_eq_zero bytes
      | cons z zs =>
          simp only [List.cons_append, List.cons.injEq] at same
          obtain ⟨rfl, same⟩ := same
          simp only [byteLength_cons, Nat.add_left_cancel_iff] at bytes
          obtain ⟨rfl, rfl⟩ := ih same bytes
          exact ⟨rfl, rfl⟩

/-- Byte `n` of the text starts a character, or ends the text. -/
def Boundary (source : List Char) (n : Nat) : Prop :=
  ∃ before behind, source = before ++ behind ∧ byteLength before = n

/-- From a cut of the text on, a boundary is found in the rest. -/
theorem Boundary.split {source done rest : List Char} {n : Nat} (h : Boundary source n)
    (cut : source = done ++ rest) (le : byteLength done ≤ n) :
    ∃ gap behind, rest = gap ++ behind ∧ byteLength (done ++ gap) = n := by
  obtain ⟨before, behind, rfl, rfl⟩ := h
  rcases List.append_eq_append_iff.mp cut with ⟨beyond, rfl, rfl⟩ | ⟨gap, rfl, rfl⟩
  · rw [byteLength_append] at le
    obtain rfl : beyond = [] := byteLength_eq_zero (by omega)
    exact ⟨[], rest, rfl, by simp⟩
  · exact ⟨gap, behind, rfl, rfl⟩

theorem linesKept_ne_nil {cs line : List Char} (h : line ∈ linesKept cs) : line ≠ [] := by
  induction cs generalizing line with
  | nil => cases h
  | cons c cs ih =>
      simp only [linesKept] at h
      split at h
      · rcases List.mem_cons.mp h with rfl | h
        · exact List.cons_ne_nil _ _
        · exact ih h
      · split at h
        · obtain rfl := List.mem_singleton.mp h
          exact List.cons_ne_nil _ _
        · next l ls hl =>
            rcases List.mem_cons.mp h with rfl | h
            · exact List.cons_ne_nil _ _
            · exact ih (hl ▸ List.mem_cons_of_mem l h)

end Text

namespace CSharp

open Text

namespace CutRange

/-- The range is a stretch of the source that is not empty. -/
structure Within (source : List Char) (r : CutRange) : Prop where
  start : Boundary source r.start
  stop : Boundary source r.stop
  proper : r.start < r.stop

def Before (r s : CutRange) : Prop :=
  r.stop ≤ s.start

/-- A range is cut at the first line or at a later one. -/
theorem mem_ofLines_cons {offset line : Nat} {blocks : List Bool} {l : List Char}
    {ls : List (List Char)} {r : CutRange} (h : r ∈ ofLines offset line blocks (l :: ls)) :
    (r.start = offset ∧ r.stop = offset + byteLength l ∧ r.line = line) ∨
      ∃ blocks, r ∈ ofLines (offset + byteLength l) (line + 1) blocks ls := by
  simp only [ofLines] at h
  split at h
  · cases h with
    | head => exact .inl ⟨rfl, rfl, rfl⟩
    | tail _ h => exact .inr ⟨_, h⟩
  · split at h
    · exact .inr ⟨_, h⟩
    · cases h with
      | head => exact .inl ⟨rfl, rfl, rfl⟩
      | tail _ h => exact .inr ⟨_, h⟩

theorem start_le_of_mem_ofLines {offset line : Nat} {blocks : List Bool} {ls : List (List Char)}
    {r : CutRange} (h : r ∈ ofLines offset line blocks ls) : offset ≤ r.start := by
  induction ls generalizing offset line blocks with
  | nil => cases h
  | cons l ls ih =>
      cases mem_ofLines_cons h with
      | inl first => exact Nat.le_of_eq first.1.symm
      | inr later =>
          obtain ⟨blocks, h⟩ := later
          exact Nat.le_trans (Nat.le_add_right _ _) (ih h)

theorem ofLines_ordered (offset line : Nat) (blocks : List Bool) (ls : List (List Char)) :
    (ofLines offset line blocks ls).Pairwise Before := by
  induction ls generalizing offset line blocks with
  | nil => exact .nil
  | cons l ls ih =>
      simp only [ofLines]
      split
      · exact List.pairwise_cons.mpr ⟨fun r hr => start_le_of_mem_ofLines hr, ih _ _ _⟩
      · split
        · exact ih _ _ _
        · exact List.pairwise_cons.mpr ⟨fun r hr => start_le_of_mem_ofLines hr, ih _ _ _⟩

theorem within_of_mem_ofLines (done : List Char) {line : Nat} {blocks : List Bool}
    {ls : List (List Char)} (full : ∀ l ∈ ls, l ≠ []) {r : CutRange}
    (h : r ∈ ofLines (byteLength done) line blocks ls) : r.Within (done ++ ls.flatten) := by
  induction ls generalizing done line blocks with
  | nil => cases h
  | cons l ls ih =>
      have split : done ++ (l :: ls).flatten = (done ++ l) ++ ls.flatten := by simp
      cases mem_ofLines_cons h with
      | inl first =>
          obtain ⟨start, stop, -⟩ := first
          have proper := mt byteLength_eq_zero (full l List.mem_cons_self)
          rw [← byteLength_append] at stop
          refine ⟨⟨done, _, rfl, start.symm⟩, ⟨done ++ l, _, split, stop.symm⟩, ?_⟩
          rw [start, stop, byteLength_append]
          omega
      | inr later =>
          obtain ⟨blocks, h⟩ := later
          rw [← byteLength_append] at h
          rw [split]
          exact ih (done ++ l) (fun m hm => full m (List.mem_cons_of_mem l hm)) h

end CutRange

/-- A list of ranges and what it becomes when some neighbours that touch are joined. -/
inductive Joins : List (Nat × Nat) → List (Nat × Nat) → Prop where
  | nil : Joins [] []
  | keep {r : Nat × Nat} {rs js : List (Nat × Nat)} : Joins rs js → Joins (r :: rs) (r :: js)
  | join {r next : Nat × Nat} {rs js : List (Nat × Nat)} :
      Joins rs (next :: js) → r.2 = next.1 → Joins (r :: rs) ((r.1, next.2) :: js)

namespace Joins

variable {rs js : List (Nat × Nat)}

/-- A joined range starts where one of the ranges starts and ends where one ends. -/
theorem ends_of_mem (h : Joins rs js) {j : Nat × Nat} (hj : j ∈ js) :
    (∃ a ∈ rs, a.1 = j.1) ∧ ∃ b ∈ rs, b.2 = j.2 := by
  induction h generalizing j with
  | nil => cases hj
  | @keep r rs js _ ih =>
      rcases List.mem_cons.mp hj with rfl | hj
      · exact ⟨⟨j, List.mem_cons_self, rfl⟩, j, List.mem_cons_self, rfl⟩
      · exact (ih hj).imp (fun ⟨a, ha, e⟩ => ⟨a, List.mem_cons_of_mem r ha, e⟩)
          fun ⟨b, hb, e⟩ => ⟨b, List.mem_cons_of_mem r hb, e⟩
  | @join r next rs js _ _ ih =>
      rcases List.mem_cons.mp hj with rfl | hj
      · obtain ⟨-, b, hb, e⟩ := ih List.mem_cons_self
        exact ⟨⟨r, List.mem_cons_self, rfl⟩, b, List.mem_cons_of_mem r hb, e⟩
      · exact (ih (List.mem_cons_of_mem next hj)).imp
          (fun ⟨a, ha, e⟩ => ⟨a, List.mem_cons_of_mem r ha, e⟩)
          fun ⟨b, hb, e⟩ => ⟨b, List.mem_cons_of_mem r hb, e⟩

theorem proper (h : Joins rs js) (hrs : ∀ r ∈ rs, r.1 < r.2) : ∀ j ∈ js, j.1 < j.2 := by
  induction h with
  | nil => exact hrs
  | @keep r rs js _ ih =>
      rw [List.forall_mem_cons] at hrs ⊢
      exact ⟨hrs.1, ih hrs.2⟩
  | @join r next rs js _ touch ih =>
      rw [List.forall_mem_cons] at hrs ⊢
      have rest := List.forall_mem_cons.mp (ih hrs.2)
      have first := hrs.1
      have second := rest.1
      exact ⟨by simp only; omega, rest.2⟩

theorem ordered (h : Joins rs js) (hrs : rs.Pairwise fun a b => a.2 ≤ b.1) :
    js.Pairwise fun a b => a.2 ≤ b.1 := by
  induction h with
  | nil => exact .nil
  | keep joined ih =>
      rw [List.pairwise_cons] at hrs ⊢
      refine ⟨fun j hj => ?_, ih hrs.2⟩
      obtain ⟨⟨a, ha, start⟩, -⟩ := joined.ends_of_mem hj
      exact start ▸ hrs.1 a ha
  | join _ _ ih =>
      have sorted := List.pairwise_cons.mp (ih (List.pairwise_cons.mp hrs).2)
      exact List.pairwise_cons.mpr sorted

/-- Every range lies in a joined one. -/
theorem exists_around (h : Joins rs js) (hrs : ∀ r ∈ rs, r.1 < r.2) {r : Nat × Nat}
    (hr : r ∈ rs) : ∃ j ∈ js, j.1 ≤ r.1 ∧ r.2 ≤ j.2 := by
  induction h with
  | nil => cases hr
  | @keep s rs js _ ih =>
      rcases List.mem_cons.mp hr with rfl | hr
      · exact ⟨r, List.mem_cons_self, Nat.le_refl _, Nat.le_refl _⟩
      · obtain ⟨j, hj, around⟩ := ih (List.forall_mem_cons.mp hrs).2 hr
        exact ⟨j, List.mem_cons_of_mem s hj, around⟩
  | @join s next rs js joined touch ih =>
      obtain ⟨first, later⟩ := List.forall_mem_cons.mp hrs
      have second := joined.proper later next List.mem_cons_self
      rcases List.mem_cons.mp hr with rfl | hr
      · exact ⟨(r.1, next.2), List.mem_cons_self, Nat.le_refl _, by simp only; omega⟩
      · obtain ⟨j, hj, around⟩ := ih later hr
        rcases List.mem_cons.mp hj with rfl | hj
        · exact ⟨(s.1, j.2), List.mem_cons_self, by simp only; omega, around.2⟩
        · exact ⟨j, List.mem_cons_of_mem _ hj, around⟩

/-- Every byte of a joined range lies in one of the ranges. -/
theorem exists_at (h : Joins rs js) {j : Nat × Nat} (hj : j ∈ js) {b : Nat}
    (inside : j.1 ≤ b ∧ b < j.2) : ∃ r ∈ rs, r.1 ≤ b ∧ b < r.2 := by
  have later {r : Nat × Nat} {rs : List (Nat × Nat)} (found : ∃ s ∈ rs, s.1 ≤ b ∧ b < s.2) :
      ∃ s ∈ r :: rs, s.1 ≤ b ∧ b < s.2 := by
    obtain ⟨s, hs, at_⟩ := found
    exact ⟨s, List.mem_cons_of_mem r hs, at_⟩
  induction h generalizing j with
  | nil => cases hj
  | @keep r rs js _ ih =>
      cases hj with
      | head => exact ⟨r, List.mem_cons_self, inside⟩
      | tail _ hj => exact later (ih hj inside)
  | @join r next rs js _ touch ih =>
      cases hj with
      | head =>
          by_cases own : b < r.2
          · exact ⟨r, List.mem_cons_self, inside.1, own⟩
          · exact later (ih List.mem_cons_self ⟨by omega, inside.2⟩)
      | tail _ hj => exact later (ih (List.mem_cons_of_mem next hj) inside)

end Joins

def CutRange.bounds (r : CutRange) : Nat × Nat :=
  (r.start, r.stop)

theorem joins_joinTouching (rs : List (Nat × Nat)) : Joins rs (CutRange.joinTouching rs) := by
  induction rs with
  | nil => exact .nil
  | cons r rest ih =>
      simp only [CutRange.joinTouching]
      split
      · next none =>
          rw [none] at ih
          exact .keep ih
      · next next others joined =>
          rw [joined] at ih
          split
          · next touch => exact .join ih touch
          · exact .keep ih

/-- Where all ranges that touch are joined, the joined ones are apart. -/
theorem joinTouching_apart {rs : List (Nat × Nat)} (ordered : rs.Pairwise fun a b => a.2 ≤ b.1)
    (proper : ∀ r ∈ rs, r.1 < r.2) :
    (CutRange.joinTouching rs).Pairwise fun a b => a.2 < b.1 := by
  induction rs with
  | nil => exact .nil
  | cons r rest ih =>
      obtain ⟨before, ordered⟩ := List.pairwise_cons.mp ordered
      obtain ⟨-, proper⟩ := List.forall_mem_cons.mp proper
      have ih := ih ordered proper
      have joins := joins_joinTouching rest
      rw [CutRange.joinTouching]
      cases joined : CutRange.joinTouching rest with
      | nil => exact List.pairwise_singleton _ _
      | cons next others =>
          rw [joined] at ih joins
          obtain ⟨apart, sorted⟩ := List.pairwise_cons.mp ih
          simp only
          split
          · exact List.pairwise_cons.mpr ⟨apart, sorted⟩
          · next touch =>
              obtain ⟨⟨a, ha, start⟩, -⟩ := joins.ends_of_mem List.mem_cons_self
              have le := before a ha
              have own := joins.proper proper next List.mem_cons_self
              refine List.pairwise_cons.mpr ⟨?_, ih⟩
              intro b hb
              cases hb with
              | head => omega
              | tail _ hb =>
                  have := apart b hb
                  omega

theorem joins_joinDisabled (rs : List CutRange) :
    Joins (rs.map CutRange.bounds) ((CutRange.joinDisabled rs).map CutRange.bounds) := by
  induction rs with
  | nil => exact .nil
  | cons r rest ih =>
      simp only [CutRange.joinDisabled]
      split
      · next none =>
          rw [none] at ih
          exact .keep ih
      · next next others joined =>
          rw [joined] at ih
          split
          · next touch => exact .join ih touch.2.2
          · exact .keep ih

theorem cutRanges_ordered (source : List Char) :
    ((cutRanges source).map CutRange.bounds).Pairwise fun a b => a.2 ≤ b.1 := by
  apply (joins_joinDisabled _).ordered
  rw [List.pairwise_map]
  exact CutRange.ofLines_ordered 0 1 [] _

theorem within_of_mem_cutRanges {source : List Char} {r : CutRange} (h : r ∈ cutRanges source) :
    r.Within source := by
  have lines : ∀ b ∈ (CutRange.ofLines 0 1 [] (linesKept source)).map CutRange.bounds,
      Boundary source b.1 ∧ Boundary source b.2 ∧ b.1 < b.2 := by
    intro b hb
    obtain ⟨a, ha, rfl⟩ := List.mem_map.mp hb
    have within := CutRange.within_of_mem_ofLines [] (fun l hl => linesKept_ne_nil hl) ha
    rw [List.nil_append, linesKept_flatten] at within
    exact ⟨within.start, within.stop, within.proper⟩
  have joined := joins_joinDisabled (CutRange.ofLines 0 1 [] (linesKept source))
  have hr : r.bounds ∈ (cutRanges source).map CutRange.bounds := List.mem_map_of_mem h
  obtain ⟨⟨a, ha, start⟩, b, hb, stop⟩ := joined.ends_of_mem hr
  have starts := (lines a ha).1
  have stops := (lines b hb).2.1
  rw [start] at starts
  rw [stop] at stops
  exact ⟨starts, stops, joined.proper (fun b hb => (lines b hb).2.2) r.bounds hr⟩

theorem cutRanges_proper (source : List Char) :
    ∀ b ∈ (cutRanges source).map CutRange.bounds, b.1 < b.2 := by
  intro b hb
  obtain ⟨r, hr, rfl⟩ := List.mem_map.mp hb
  exact (within_of_mem_cutRanges hr).proper

/-- Of ranges in order, the last one that starts at or before a stretch decides for all. -/
theorem covers_iff {covered : List (Nat × Nat)} (ordered : covered.Pairwise fun a b => a.2 ≤ b.1)
    (proper : ∀ r ∈ covered, r.1 < r.2) {start stop : Nat} (h : start < stop) :
    covers covered start stop = true ↔ ∃ r ∈ covered, r.1 ≤ start ∧ stop ≤ r.2 := by
  unfold covers
  induction covered with
  | nil => simp
  | cons r rest ih =>
      obtain ⟨before, ordered⟩ := List.pairwise_cons.mp ordered
      obtain ⟨own, proper⟩ := List.forall_mem_cons.mp proper
      have ih := ih ordered proper
      simp only [List.mem_cons, or_and_right, exists_or, exists_eq_left]
      by_cases reached : r.1 ≤ start
      · rw [List.takeWhile_cons_of_pos (by simpa using reached), List.getLast?_cons]
        cases last : (rest.takeWhile fun r => r.1 ≤ start).getLast? with
        | none =>
            rw [last] at ih
            simp only [Option.getD_none, ← ih, reached, true_and, decide_eq_true_eq,
              Bool.false_eq_true, or_false]
        | some l =>
            rw [last] at ih
            have hl := List.mem_of_getLast? last
            have le_start : l.1 ≤ start := by
              simpa using List.all_eq_true.mp List.all_takeWhile l hl
            have behind := before l ((List.takeWhile_sublist _).subset hl)
            simp only [Option.getD_some, ih]
            exact ⟨.inr, fun found => found.resolve_left fun own => by omega⟩
      · rw [List.takeWhile_cons_of_neg (by simpa using reached)]
        simp only [List.getLast?_nil, Bool.false_eq_true, reached, false_and, false_or, false_iff]
        rintro ⟨s, hs, le_start, -⟩
        have := before s hs
        omega

theorem covers_cutRanges_iff (source : List Char) {start stop : Nat} (h : start < stop) :
    covers (coveredRanges (cutRanges source)) start stop = true ↔
      ∃ j ∈ coveredRanges (cutRanges source), j.1 ≤ start ∧ stop ≤ j.2 := by
  have joined := joins_joinTouching ((cutRanges source).map CutRange.bounds)
  exact covers_iff (joined.ordered (cutRanges_ordered source))
    (joined.proper (cutRanges_proper source)) h

/-- A stretch is covered if and only if each of its bytes lies in a cut. -/
theorem covers_iff_bytes (source : List Char) {start stop : Nat} (h : start < stop) :
    covers (coveredRanges (cutRanges source)) start stop = true ↔
      ∀ b, start ≤ b → b < stop → ∃ r ∈ cutRanges source, r.start ≤ b ∧ b < r.stop := by
  have joined := joins_joinTouching ((cutRanges source).map CutRange.bounds)
  have apart := joinTouching_apart (cutRanges_ordered source) (cutRanges_proper source)
  rw [covers_cutRanges_iff source h]
  constructor
  · intro found b le lt
    obtain ⟨j, hj, around⟩ := found
    obtain ⟨_, listed, inside⟩ := joined.exists_at hj (b := b) ⟨by omega, by omega⟩
    obtain ⟨r, hr, rfl⟩ := List.mem_map.mp listed
    exact ⟨r, hr, inside⟩
  · intro all
    have around (b : Nat) (le : start ≤ b) (lt : b < stop) :
        ∃ j ∈ coveredRanges (cutRanges source), j.1 ≤ b ∧ b < j.2 := by
      obtain ⟨r, hr, inside⟩ := all b le lt
      obtain ⟨j, hj, le_start, stop_le⟩ :=
        joined.exists_around (cutRanges_proper source)
          (List.mem_map_of_mem (f := CutRange.bounds) hr)
      have lower : j.1 ≤ r.start := le_start
      have upper : r.stop ≤ j.2 := stop_le
      exact ⟨j, hj, by omega, by omega⟩
    -- the range around the first byte holds the last one too: no other range starts at its end
    obtain ⟨j, hj, le, lt⟩ := around start (Nat.le_refl _) h
    refine ⟨j, hj, le, Nat.le_of_not_lt fun short => ?_⟩
    obtain ⟨i, hi, starts, ends⟩ := around j.2 (by omega) short
    have order : j.2 < i.1 ∨ i.2 < j.1 ∨ i = j := by
      refine List.Pairwise.forall_of_forall_of_flip (R := fun a b : Nat × Nat =>
        a.2 < b.1 ∨ b.2 < a.1 ∨ b = a) ?_ ?_ ?_ hj hi
      · intro a _
        exact .inr (.inr rfl)
      · exact apart.imp fun lt => .inl lt
      · exact apart.imp fun lt => .inr (.inl lt)
    rcases order with after | before | same
    · omega
    · omega
    · rw [same] at ends
      omega

/-- A stretch inside a cut is covered. -/
theorem covers_of_mem_cutRanges {source : List Char} {r : CutRange} (hr : r ∈ cutRanges source)
    {start stop : Nat} (h : start < stop) (inside : r.start ≤ start ∧ stop ≤ r.stop) :
    covers (coveredRanges (cutRanges source)) start stop = true := by
  rw [covers_iff_bytes source h]
  intro b le lt
  exact ⟨r, hr, by omega, by omega⟩

/-- What lies in a covered stretch is covered. -/
theorem covers_mono {source : List Char} {start stop start' stop' : Nat} (h : start' < stop')
    (inside : start ≤ start' ∧ stop' ≤ stop)
    (covered : covers (coveredRanges (cutRanges source)) start stop = true) :
    covers (coveredRanges (cutRanges source)) start' stop' = true := by
  rw [covers_iff_bytes source (by omega)] at covered
  rw [covers_iff_bytes source h]
  intro b le lt
  exact covered b (by omega) (by omega)

end CSharp
end Antipattern
