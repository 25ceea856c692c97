import Antipattern.Proofs.CutRanges

/-!
What conditional compilation makes of each line of a text. The cuts of the text are one range for
each directive line and one for each maximal run of disabled lines, and a stretch is covered if and
only if each of its bytes stands on such a line.
-/

namespace Antipattern.CSharp

open Text

inductive LineRole where
  /-- The line is compiled. -/
  | code
  | directive
  | disabled
deriving DecidableEq

structure MarkedLine where
  text : List Char
  role : LineRole
deriving DecidableEq

/-- The lines as the scan reads them, from the blocks that are open before the first. -/
def scanLines (blocks : List Bool) : List (List Char) → List MarkedLine
  | [] => []
  | l :: ls =>
      match Conditional.ofLine? l with
      | some d => ⟨l, .directive⟩ :: scanLines (d.apply blocks) ls
      | none => ⟨l, if blocks.all id then .code else .disabled⟩ :: scanLines blocks ls

theorem scanLines_of_directive {l : List Char} {d : Conditional}
    (read : Conditional.ofLine? l = some d) (blocks : List Bool) (ls : List (List Char)) :
    scanLines blocks (l :: ls) = ⟨l, .directive⟩ :: scanLines (d.apply blocks) ls := by
  rw [scanLines, read]

theorem scanLines_of_plain {l : List Char} (read : Conditional.ofLine? l = none)
    (blocks : List Bool) (ls : List (List Char)) :
    scanLines blocks (l :: ls) =
      ⟨l, if blocks.all id then .code else .disabled⟩ :: scanLines blocks ls := by
  rw [scanLines, read]

theorem map_text_scanLines (blocks : List Bool) (ls : List (List Char)) :
    (scanLines blocks ls).map (·.text) = ls := by
  induction ls generalizing blocks with
  | nil => rfl
  | cons l ls ih =>
      cases read : Conditional.ofLine? l with
      | none => rw [scanLines_of_plain read, List.map_cons, ih]
      | some d => rw [scanLines_of_directive read, List.map_cons, ih]

/-- The role of a line by its number; lines count from zero here. -/
def roleAt? (ms : List MarkedLine) (k : Nat) : Option LineRole :=
  (ms[k]?).map (·.role)

@[simp] theorem roleAt?_nil (k : Nat) : roleAt? [] k = none := rfl

@[simp] theorem roleAt?_cons_zero (m : MarkedLine) (ms : List MarkedLine) :
    roleAt? (m :: ms) 0 = some m.role := rfl

@[simp] theorem roleAt?_cons_succ (m : MarkedLine) (ms : List MarkedLine) (k : Nat) :
    roleAt? (m :: ms) (k + 1) = roleAt? ms k := rfl

theorem roleAt?_append (run after : List MarkedLine) (k : Nat) :
    roleAt? (run ++ after) (run.length + k) = roleAt? after k := by
  rw [roleAt?, List.getElem?_append_right (Nat.le_add_right _ _), Nat.add_sub_cancel_left, roleAt?]

theorem roleAt?_of_mem {run after : List MarkedLine} {role : LineRole}
    (all : ∀ m ∈ run, m.role = role) {k : Nat} (lt : k < run.length) :
    roleAt? (run ++ after) k = some role := by
  rw [roleAt?, List.getElem?_append_left lt, List.getElem?_eq_getElem lt, Option.map_some,
    all _ (List.getElem_mem lt)]

/-- The byte at which a line starts; behind the last line, the byte at which the text ends. -/
def lineStart (ls : List (List Char)) (k : Nat) : Nat :=
  byteLength (ls.take k).flatten

@[simp] theorem lineStart_zero (ls : List (List Char)) : lineStart ls 0 = 0 := rfl

@[simp] theorem lineStart_nil (k : Nat) : lineStart [] k = 0 := by
  rw [lineStart, List.take_nil]
  rfl

@[simp] theorem lineStart_cons_succ (l : List Char) (ls : List (List Char)) (k : Nat) :
    lineStart (l :: ls) (k + 1) = byteLength l + lineStart ls k := by
  rw [lineStart, List.take_succ_cons, List.flatten_cons, byteLength_append, lineStart]

theorem lineStart_append (ls more : List (List Char)) (k : Nat) :
    lineStart (ls ++ more) (ls.length + k) = lineStart ls ls.length + lineStart more k := by
  simp only [lineStart, List.take_length_add_append, List.take_length, List.flatten_append,
    byteLength_append]

theorem lineStart_mono (ls : List (List Char)) {j k : Nat} (le : j ≤ k) :
    lineStart ls j ≤ lineStart ls k := by
  induction ls generalizing j k with
  | nil => simp
  | cons l ls ih =>
      cases j with
      | zero => exact Nat.zero_le _
      | succ j =>
          cases k with
          | zero => omega
          | succ k =>
              have rest := ih (Nat.le_of_succ_le_succ le)
              simp only [lineStart_cons_succ]
              omega

def LineRole.cutKind? : LineRole → Option TriviaKind
  | code => none
  | directive => some .directive
  | disabled => some .disabledText

/-- One range for each line that is cut. -/
def cutsOf (offset line : Nat) : List MarkedLine → List CutRange
  | [] => []
  | m :: ms =>
      let rest := cutsOf (offset + byteLength m.text) (line + 1) ms
      match m.role.cutKind? with
      | none => rest
      | some kind => ⟨offset, offset + byteLength m.text, line, kind⟩ :: rest

theorem ofLines_eq_cutsOf (offset line : Nat) (blocks : List Bool) (ls : List (List Char)) :
    CutRange.ofLines offset line blocks ls = cutsOf offset line (scanLines blocks ls) := by
  induction ls generalizing offset line blocks with
  | nil => rfl
  | cons l ls ih =>
      rw [CutRange.ofLines]
      cases read : Conditional.ofLine? l with
      | none =>
          rw [scanLines_of_plain read, ih]
          cases blocks.all id <;> rfl
      | some d =>
          rw [scanLines_of_directive read]
          exact congrArg (List.cons _) (ih _ _ _)

theorem start_le_of_mem_cutsOf {offset line : Nat} {ms : List MarkedLine} {r : CutRange}
    (h : r ∈ cutsOf offset line ms) : offset ≤ r.start := by
  induction ms generalizing offset line with
  | nil => cases h
  | cons m ms ih =>
      have later (h : r ∈ cutsOf (offset + byteLength m.text) (line + 1) ms) : offset ≤ r.start :=
        Nat.le_trans (Nat.le_add_right _ _) (ih h)
      rw [cutsOf] at h
      split at h
      · exact later h
      · cases h with
        | head => exact Nat.le_refl _
        | tail _ h => exact later h

/-- A byte lies in a range if and only if it stands on a line that is cut. -/
theorem byte_of_cutsOf {offset line : Nat} {ms : List MarkedLine} {b : Nat} :
    (∃ r ∈ cutsOf offset line ms, r.start ≤ b ∧ b < r.stop) ↔
      ∃ k role, roleAt? ms k = some role ∧ role ≠ .code ∧
        offset + lineStart (ms.map (·.text)) k ≤ b ∧
        b < offset + lineStart (ms.map (·.text)) (k + 1) := by
  induction ms generalizing offset line with
  | nil => simp [cutsOf]
  | cons m ms ih =>
      have ih := @ih (offset + byteLength m.text) (line + 1)
      -- the first line, or a line behind it
      have lines : (∃ k role, roleAt? (m :: ms) k = some role ∧ role ≠ .code ∧
          offset + lineStart ((m :: ms).map (·.text)) k ≤ b ∧
          b < offset + lineStart ((m :: ms).map (·.text)) (k + 1)) ↔
          (m.role ≠ .code ∧ offset ≤ b ∧ b < offset + byteLength m.text) ∨
            ∃ k role, roleAt? ms k = some role ∧ role ≠ .code ∧
              offset + byteLength m.text + lineStart (ms.map (·.text)) k ≤ b ∧
              b < offset + byteLength m.text + lineStart (ms.map (·.text)) (k + 1) := by
        constructor
        · intro found
          obtain ⟨k, role, here, cut, le, lt⟩ := found
          cases k with
          | zero =>
              cases here
              exact .inl ⟨cut, by simpa using le, by simpa using lt⟩
          | succ k =>
              rw [List.map_cons, lineStart_cons_succ, ← Nat.add_assoc] at le lt
              exact .inr ⟨k, role, here, cut, le, lt⟩
        · intro found
          cases found with
          | inl first => exact ⟨0, m.role, rfl, first.1, by simpa using first.2⟩
          | inr later =>
              obtain ⟨k, role, here, cut, le, lt⟩ := later
              refine ⟨k + 1, role, here, cut, ?_⟩
              rw [List.map_cons, lineStart_cons_succ, lineStart_cons_succ, ← Nat.add_assoc,
                ← Nat.add_assoc]
              exact ⟨le, lt⟩
      rw [lines, ← ih, cutsOf]
      cases role : m.role with
      | code => simp [LineRole.cutKind?]
      | directive => simp [LineRole.cutKind?]
      | disabled => simp [LineRole.cutKind?]

/-- A run of disabled lines that neither the line before it nor the line behind it continues. -/
structure MaximalRun (ms : List MarkedLine) (i j : Nat) : Prop where
  proper : i < j
  inside : ∀ k, i ≤ k → k < j → roleAt? ms k = some .disabled
  before : ∀ k, k + 1 = i → roleAt? ms k ≠ some .disabled
  behind : roleAt? ms j ≠ some .disabled

/-- The lines from `i` to before `j` are cut as one range of this kind: a directive line, or a
maximal run of disabled lines. -/
inductive IsCut (ms : List MarkedLine) : Nat → Nat → TriviaKind → Prop
  | directive {k : Nat} (role : roleAt? ms k = some .directive) : IsCut ms k (k + 1) .directive
  | disabled {i j : Nat} (run : MaximalRun ms i j) : IsCut ms i j .disabledText

/-- The range of the lines from `i` to before `j`; the first line of all has this offset and number. -/
def stretch (offset line : Nat) (ms : List MarkedLine) (i j : Nat) (kind : TriviaKind) :
    CutRange where
  start := offset + lineStart (ms.map (·.text)) i
  stop := offset + lineStart (ms.map (·.text)) j
  line := line + i
  kind := kind

theorem stretch_append (offset line : Nat) (run after : List MarkedLine) (i j : Nat)
    (kind : TriviaKind) :
    stretch offset line (run ++ after) (run.length + i) (run.length + j) kind =
      stretch (offset + lineStart (run.map (·.text)) run.length) (line + run.length) after i j
        kind := by
  have shift (k : Nat) := lineStart_append (run.map (·.text)) (after.map (·.text)) k
  simp only [List.length_map] at shift
  simp only [stretch, List.map_append, shift, Nat.add_assoc]

theorem MaximalRun.cons_iff {m : MarkedLine} {ms : List MarkedLine} (other : m.role ≠ .disabled)
    {i j : Nat} :
    MaximalRun (m :: ms) i j ↔ ∃ i' j', i = i' + 1 ∧ j = j' + 1 ∧ MaximalRun ms i' j' := by
  constructor
  · intro run
    cases i with
    | zero =>
        have first := run.inside 0 (Nat.le_refl 0) run.proper
        exact absurd (Option.some.inj first) other
    | succ i =>
        cases j with
        | zero => exact absurd run.proper (Nat.not_lt_zero _)
        | succ j =>
            refine ⟨i, j, rfl, rfl, Nat.lt_of_succ_lt_succ run.proper, ?_, ?_, run.behind⟩
            · intro k le lt
              exact run.inside (k + 1) (by omega) (by omega)
            · intro k eq
              exact run.before (k + 1) (by omega)
  · intro found
    obtain ⟨i', j', rfl, rfl, run⟩ := found
    refine ⟨Nat.succ_lt_succ run.proper, ?_, ?_, run.behind⟩
    · intro k le lt
      cases k with
      | zero => omega
      | succ k => exact run.inside k (by omega) (by omega)
    · intro k eq
      cases k with
      | zero => exact fun same => other (Option.some.inj same)
      | succ k => exact run.before k (by omega)

/-- The maximal runs of lines that start with one: this run and those behind it. -/
theorem MaximalRun.append_iff {run after : List MarkedLine} (nonempty : run ≠ [])
    (all : ∀ m ∈ run, m.role = .disabled) (ended : roleAt? after 0 ≠ some .disabled) {i j : Nat} :
    MaximalRun (run ++ after) i j ↔
      (i = 0 ∧ j = run.length) ∨
        ∃ i' j', i = run.length + i' ∧ j = run.length + j' ∧ MaximalRun after i' j' := by
  have own {k : Nat} (lt : k < run.length) : roleAt? (run ++ after) k = some .disabled :=
    roleAt?_of_mem all lt
  have next : roleAt? (run ++ after) run.length ≠ some .disabled := by
    have := roleAt?_append run after 0
    rw [Nat.add_zero] at this
    rw [this]
    exact ended
  have length := List.length_pos_iff.mpr nonempty
  constructor
  · intro h
    have stop : run.length ≤ j := by
      apply Nat.le_of_not_lt
      intro lt
      exact h.behind (own lt)
    by_cases first : i = 0
    · refine .inl ⟨first, Nat.le_antisymm ?_ stop⟩
      apply Nat.le_of_not_lt
      intro lt
      exact next (h.inside run.length (by omega) lt)
    · have start : run.length < i := by
        apply Nat.lt_of_not_le
        intro le
        exact h.before (i - 1) (by omega) (own (by omega))
      have proper := h.proper
      refine .inr ⟨i - run.length, j - run.length, by omega, by omega, by omega, ?_, ?_, ?_⟩
      · intro k le lt
        rw [← roleAt?_append run after k]
        exact h.inside _ (by omega) (by omega)
      · intro k eq
        rw [← roleAt?_append run after k]
        exact h.before _ (by omega)
      · rw [← roleAt?_append run after, show run.length + (j - run.length) = j by omega]
        exact h.behind
  · intro found
    cases found with
    | inl first =>
        rw [first.1, first.2]
        exact ⟨length, fun k _ lt => own lt, fun k eq => by omega, next⟩
    | inr later =>
        obtain ⟨i', j', rfl, rfl, h⟩ := later
        have proper := h.proper
        refine ⟨by omega, ?_, ?_, ?_⟩
        · intro k le lt
          rw [show k = run.length + (k - run.length) by omega, roleAt?_append]
          exact h.inside _ (by omega) (by omega)
        · intro k eq
          have positive : i' ≠ 0 := by
            intro zero
            exact ended (h.inside 0 (by omega) (by omega))
          rw [show k = run.length + (i' - 1) by omega, roleAt?_append]
          exact h.before _ (by omega)
        · rw [roleAt?_append]
          exact h.behind

theorem joinDisabled_keep {r : CutRange} {rest : List CutRange}
    (apart : ∀ next others, CutRange.joinDisabled rest = next :: others →
      ¬ (r.kind = .disabledText ∧ next.kind = .disabledText ∧ r.stop = next.start)) :
    CutRange.joinDisabled (r :: rest) = r :: CutRange.joinDisabled rest := by
  rw [CutRange.joinDisabled]
  cases joined : CutRange.joinDisabled rest with
  | nil => rfl
  | cons next others => exact if_neg (apart next others joined)

theorem joinDisabled_merge {r next : CutRange} {rest others : List CutRange}
    (joined : CutRange.joinDisabled rest = next :: others)
    (touch : r.kind = .disabledText ∧ next.kind = .disabledText ∧ r.stop = next.start) :
    CutRange.joinDisabled (r :: rest) = { r with stop := next.stop } :: others := by
  rw [CutRange.joinDisabled, joined]
  exact if_pos touch

theorem cutsOf_of_code {m : MarkedLine} (role : m.role = .code) (ms : List MarkedLine)
    (offset line : Nat) :
    cutsOf offset line (m :: ms) = cutsOf (offset + byteLength m.text) (line + 1) ms := by
  rw [cutsOf, role]
  rfl

theorem cutsOf_of_cut {m : MarkedLine} {kind : TriviaKind} (role : m.role.cutKind? = some kind)
    (ms : List MarkedLine) (offset line : Nat) :
    cutsOf offset line (m :: ms) = ⟨offset, offset + byteLength m.text, line, kind⟩ ::
      cutsOf (offset + byteLength m.text) (line + 1) ms := by
  rw [cutsOf, role]

theorem joinDisabled_of_directive {m : MarkedLine} (role : m.role = .directive)
    (ms : List MarkedLine) (offset line : Nat) :
    CutRange.joinDisabled (cutsOf offset line (m :: ms)) =
      ⟨offset, offset + byteLength m.text, line, .directive⟩ ::
        CutRange.joinDisabled (cutsOf (offset + byteLength m.text) (line + 1) ms) := by
  rw [cutsOf_of_cut (congrArg LineRole.cutKind? role), joinDisabled_keep]
  intro next others _ touch
  cases touch.1

/-- Lines that do not start with a disabled one have no disabled range at their very start. -/
theorem head_joinDisabled {ms : List MarkedLine} (ended : roleAt? ms 0 ≠ some .disabled)
    (full : ∀ m ∈ ms, m.text ≠ []) {offset line : Nat} {next : CutRange} {others : List CutRange}
    (joined : CutRange.joinDisabled (cutsOf offset line ms) = next :: others) :
    ¬ (next.kind = .disabledText ∧ offset = next.start) := by
  cases ms with
  | nil => cases joined
  | cons m ms =>
      cases role : m.role with
      | disabled => exact absurd (congrArg some role) ended
      | directive =>
          rw [joinDisabled_of_directive role] at joined
          cases joined
          intro both
          cases both.1
      | code =>
          rw [cutsOf_of_code role] at joined
          have mem : next.bounds ∈ (CutRange.joinDisabled
              (cutsOf (offset + byteLength m.text) (line + 1) ms)).map CutRange.bounds := by
            rw [joined]
            exact List.mem_cons_self
          obtain ⟨⟨a, listed, start⟩, -⟩ := (joins_joinDisabled _).ends_of_mem mem
          obtain ⟨c, cut, rfl⟩ := List.mem_map.mp listed
          have le := start_le_of_mem_cutsOf cut
          have positive := mt byteLength_eq_zero (full m List.mem_cons_self)
          have same : c.start = next.start := start
          omega

/-- A run of disabled lines becomes one range, whatever stands behind it. -/
theorem joinDisabled_run {m : MarkedLine} {run after : List MarkedLine}
    (all : ∀ x ∈ m :: run, x.role = .disabled) (ended : roleAt? after 0 ≠ some .disabled)
    (full : ∀ x ∈ after, x.text ≠ []) (offset line : Nat) :
    let stop := offset + lineStart ((m :: run).map (·.text)) (run.length + 1)
    CutRange.joinDisabled (cutsOf offset line (m :: run ++ after)) =
      ⟨offset, stop, line, .disabledText⟩ ::
        CutRange.joinDisabled (cutsOf stop (line + (run.length + 1)) after) := by
  induction run generalizing m offset line with
  | nil =>
      have role := congrArg LineRole.cutKind? (all m List.mem_cons_self)
      rw [List.cons_append, List.nil_append, cutsOf_of_cut role, joinDisabled_keep]
      · simp
      · intro next others joined touch
        exact head_joinDisabled ended full joined touch.2
  | cons n run ih =>
      obtain ⟨first, all⟩ := List.forall_mem_cons.mp all
      have rest := ih all (offset + byteLength m.text) (line + 1)
      rw [List.cons_append, cutsOf_of_cut (congrArg LineRole.cutKind? first),
        joinDisabled_merge rest ⟨rfl, rfl, rfl⟩]
      simp only [List.map_cons, lineStart_cons_succ, List.length_cons, Nat.add_assoc,
        Nat.add_left_comm, Nat.add_comm]

theorem IsCut.cons_iff {m : MarkedLine} {ms : List MarkedLine} (other : m.role ≠ .disabled)
    {i j : Nat} {kind : TriviaKind} :
    IsCut (m :: ms) i j kind ↔
      (i = 0 ∧ j = 1 ∧ kind = .directive ∧ m.role = .directive) ∨
        ∃ i' j', i = 1 + i' ∧ j = 1 + j' ∧ IsCut ms i' j' kind := by
  constructor
  · intro cut
    cases cut with
    | directive role =>
        cases i with
        | zero => exact .inl ⟨rfl, rfl, rfl, Option.some.inj role⟩
        | succ k => exact .inr ⟨k, k + 1, by omega, by omega, .directive role⟩
    | disabled run =>
        obtain ⟨i', j', hi, hj, run⟩ := (MaximalRun.cons_iff other).mp run
        exact .inr ⟨i', j', by omega, by omega, .disabled run⟩
  · intro found
    cases found with
    | inl first =>
        obtain ⟨rfl, rfl, rfl, role⟩ := first
        exact .directive (congrArg some role)
    | inr later =>
        obtain ⟨i', j', rfl, rfl, cut⟩ := later
        rw [Nat.add_comm 1, Nat.add_comm 1]
        cases cut with
        | directive role => exact .directive role
        | disabled run => exact .disabled ((MaximalRun.cons_iff other).mpr ⟨_, _, rfl, rfl, run⟩)

theorem IsCut.append_iff {run after : List MarkedLine} (nonempty : run ≠ [])
    (all : ∀ m ∈ run, m.role = .disabled) (ended : roleAt? after 0 ≠ some .disabled)
    {i j : Nat} {kind : TriviaKind} :
    IsCut (run ++ after) i j kind ↔
      (i = 0 ∧ j = run.length ∧ kind = .disabledText ∧ run ≠ []) ∨
        ∃ i' j', i = run.length + i' ∧ j = run.length + j' ∧ IsCut after i' j' kind := by
  constructor
  · intro cut
    cases cut with
    | directive role =>
        by_cases lt : i < run.length
        · rw [roleAt?_of_mem all lt] at role
          cases role
        · have behind : i = run.length + (i - run.length) := by omega
          rw [behind, roleAt?_append] at role
          exact .inr ⟨_, _, behind, by omega, .directive role⟩
    | disabled found =>
        cases (MaximalRun.append_iff nonempty all ended).mp found with
        | inl first => exact .inl ⟨first.1, first.2, rfl, nonempty⟩
        | inr later =>
            obtain ⟨i', j', hi, hj, found⟩ := later
            exact .inr ⟨i', j', hi, hj, .disabled found⟩
  · intro found
    cases found with
    | inl first =>
        obtain ⟨rfl, rfl, rfl, -⟩ := first
        exact .disabled ((MaximalRun.append_iff nonempty all ended).mpr (.inl ⟨rfl, rfl⟩))
    | inr later =>
        obtain ⟨i', j', rfl, rfl, cut⟩ := later
        cases cut with
        | directive role => exact .directive (by rw [roleAt?_append, role])
        | disabled found =>
            exact .disabled ((MaximalRun.append_iff nonempty all ended).mpr
              (.inr ⟨_, _, rfl, rfl, found⟩))

/-- Where the first lines are cut as one range or not at all, and no range goes over their end, the
ranges are this one and those of the lines behind. -/
theorem exists_stretch_append {run after : List MarkedLine} {own : TriviaKind} {cut : Prop}
    (split : ∀ {i j kind}, IsCut (run ++ after) i j kind ↔
      (i = 0 ∧ j = run.length ∧ kind = own ∧ cut) ∨
        ∃ i' j', i = run.length + i' ∧ j = run.length + j' ∧ IsCut after i' j' kind)
    {offset line stop : Nat} (stops : offset + lineStart (run.map (·.text)) run.length = stop)
    {r : CutRange} :
    (∃ i j kind, IsCut (run ++ after) i j kind ∧
        r = stretch offset line (run ++ after) i j kind) ↔
      (cut ∧ r = ⟨offset, stop, line, own⟩) ∨
        ∃ i j kind, IsCut after i j kind ∧
          r = stretch stop (line + run.length) after i j kind := by
  have first : stretch offset line (run ++ after) 0 run.length own =
      ⟨offset, stop, line, own⟩ := by
    have ends := lineStart_append (run.map (·.text)) (after.map (·.text)) 0
    rw [List.length_map, Nat.add_zero, lineStart_zero, Nat.add_zero] at ends
    rw [stretch, List.map_append, ends, stops]
    rfl
  rw [← stops] at first ⊢
  constructor
  · intro found
    obtain ⟨i, j, kind, here, rfl⟩ := found
    cases split.mp here with
    | inl start =>
        obtain ⟨rfl, rfl, rfl, held⟩ := start
        exact .inl ⟨held, first⟩
    | inr later =>
        obtain ⟨i', j', rfl, rfl, behind⟩ := later
        exact .inr ⟨i', j', kind, behind, stretch_append ..⟩
  · intro found
    cases found with
    | inl start =>
        exact ⟨0, run.length, own, split.mpr (.inl ⟨rfl, rfl, rfl, start.1⟩),
          start.2.trans first.symm⟩
    | inr later =>
        obtain ⟨i', j', kind, behind, rfl⟩ := later
        exact ⟨_, _, kind, split.mpr (.inr ⟨i', j', rfl, rfl, behind⟩), (stretch_append ..).symm⟩

theorem exists_run (ms : List MarkedLine) :
    ∃ run after, ms = run ++ after ∧ (∀ m ∈ run, m.role = .disabled) ∧
      roleAt? after 0 ≠ some .disabled := by
  induction ms with
  | nil => exact ⟨[], [], rfl, nofun, nofun⟩
  | cons m ms ih =>
      by_cases disabled : m.role = .disabled
      · obtain ⟨run, after, split, all, ended⟩ := ih
        exact ⟨m :: run, after, congrArg (m :: ·) split, List.forall_mem_cons.mpr ⟨disabled, all⟩,
          ended⟩
      · exact ⟨[], m :: ms, rfl, nofun, fun same => disabled (Option.some.inj same)⟩

/-- The ranges of marked lines are the directive lines and the maximal runs of disabled lines. -/
theorem mem_joinDisabled_iff {ms : List MarkedLine} (full : ∀ m ∈ ms, m.text ≠ [])
    (offset line : Nat) (r : CutRange) :
    r ∈ CutRange.joinDisabled (cutsOf offset line ms) ↔
      ∃ i j kind, IsCut ms i j kind ∧ r = stretch offset line ms i j kind := by
  generalize size : ms.length = n
  induction n using Nat.strongRecOn generalizing ms offset line with
  | ind n ih =>
      cases ms with
      | nil =>
          simp only [cutsOf, CutRange.joinDisabled, List.not_mem_nil, false_iff]
          intro found
          obtain ⟨i, j, kind, cut, -⟩ := found
          cases cut with
          | directive role => cases role
          | disabled run => cases run.inside i (Nat.le_refl i) run.proper
      | cons m ms =>
          by_cases disabled : m.role = .disabled
          · -- the run that starts here is one range, and fewer lines are left behind it
            obtain ⟨run, after, rfl, all, ended⟩ := exists_run ms
            have all : ∀ x ∈ m :: run, x.role = .disabled :=
              List.forall_mem_cons.mpr ⟨disabled, all⟩
            have later : ∀ x ∈ after, x.text ≠ [] := fun x hx =>
              full x (List.mem_cons_of_mem m (List.mem_append_right run hx))
            have fewer : after.length < n := by
              simp only [List.length_cons, List.length_append] at size
              omega
            rw [← List.cons_append, joinDisabled_run all ended later, List.mem_cons,
              ih _ fewer later _ _ rfl,
              exists_stretch_append (IsCut.append_iff (List.cons_ne_nil m run) all ended) rfl]
            simp
          · have later := (List.forall_mem_cons.mp full).2
            have fewer : ms.length < n := by
              rw [← size]
              exact Nat.lt_succ_self _
            have stops : offset + lineStart ([m].map (·.text)) [m].length =
                offset + byteLength m.text := by simp
            have behind := ih _ fewer later (offset + byteLength m.text) (line + 1) rfl
            rw [← List.singleton_append, exists_stretch_append (IsCut.cons_iff disabled) stops,
              List.singleton_append]
            cases role : m.role with
            | disabled => exact absurd role disabled
            | code =>
                rw [cutsOf_of_code role, behind]
                simp
            | directive =>
                rw [joinDisabled_of_directive role, List.mem_cons, behind]
                simp

theorem full_of_mem_scanLines {source : List Char} {m : MarkedLine}
    (h : m ∈ scanLines [] (linesKept source)) : m.text ≠ [] := by
  have listed : m.text ∈ (scanLines [] (linesKept source)).map (·.text) := List.mem_map_of_mem h
  rw [map_text_scanLines] at listed
  exact linesKept_ne_nil listed

theorem mem_cutRanges_iff {source : List Char} {ms : List MarkedLine}
    (read : scanLines [] (linesKept source) = ms) {r : CutRange} :
    r ∈ cutRanges source ↔ ∃ i j kind, IsCut ms i j kind ∧ r = stretch 0 1 ms i j kind := by
  rw [← read, cutRanges, ofLines_eq_cutsOf]
  exact mem_joinDisabled_iff (fun m h => full_of_mem_scanLines h) 0 1 r

/-- A stretch is covered if and only if each of its bytes stands on a directive line or on a
disabled line. -/
theorem covers_iff_lines (source : List Char) {start stop : Nat} (h : start < stop) :
    covers (coveredRanges (cutRanges source)) start stop = true ↔
      ∀ b, start ≤ b → b < stop → ∃ k role,
        roleAt? (scanLines [] (linesKept source)) k = some role ∧ role ≠ .code ∧
          lineStart (linesKept source) k ≤ b ∧ b < lineStart (linesKept source) (k + 1) := by
  have joined := joins_joinDisabled (CutRange.ofLines 0 1 [] (linesKept source))
  have proper : ∀ b ∈ (CutRange.ofLines 0 1 [] (linesKept source)).map CutRange.bounds,
      b.1 < b.2 := by
    intro b hb
    obtain ⟨r, hr, rfl⟩ := List.mem_map.mp hb
    exact (CutRange.within_of_mem_ofLines [] (fun l hl => linesKept_ne_nil hl) hr).proper
  have bytes (b : Nat) : (∃ r ∈ cutRanges source, r.start ≤ b ∧ b < r.stop) ↔
      ∃ r ∈ CutRange.ofLines 0 1 [] (linesKept source), r.start ≤ b ∧ b < r.stop := by
    constructor
    · intro found
      obtain ⟨r, hr, inside⟩ := found
      obtain ⟨_, listed, inside⟩ :=
        joined.exists_at (List.mem_map_of_mem (f := CutRange.bounds) hr) inside
      obtain ⟨a, ha, rfl⟩ := List.mem_map.mp listed
      exact ⟨a, ha, inside⟩
    · intro found
      obtain ⟨a, ha, inside⟩ := found
      obtain ⟨_, listed, around⟩ :=
        joined.exists_around proper (List.mem_map_of_mem (f := CutRange.bounds) ha)
      obtain ⟨r, hr, rfl⟩ := List.mem_map.mp listed
      simp only [CutRange.bounds] at around
      exact ⟨r, hr, by omega, by omega⟩
  rw [covers_iff_bytes source h]
  apply forall_congr'
  intro b
  rw [bytes, ofLines_eq_cutsOf, byte_of_cutsOf, map_text_scanLines]
  simp only [Nat.zero_add]

end Antipattern.CSharp
