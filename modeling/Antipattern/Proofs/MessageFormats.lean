import Antipattern.Rule.Message

/-!
Message formats in one pass. A format that consists of literal text and numbered placeholders is
filled in piece by piece, whatever the arguments hold. The loop that goes from brace to brace reads
nothing but the format and stops after at most one round for each opening brace.
-/

namespace Antipattern.Message

/-- A piece of a format: text without an opening brace, or a position between braces. -/
inductive Segment where
  | literal (text : List Char) (unopened : '\x7b' ∉ text)
  | placeholder (digits : List Char) (written : digits ≠ []) (decimal : ∀ d ∈ digits, d.isDigit)

namespace Segment

def text : Segment → List Char
  | literal text _ => text
  | placeholder digits _ _ => '\x7b' :: digits ++ ['\x7d']

/-- A placeholder stands for the argument it names, and for itself if there is none. -/
def filled (args : List String) : Segment → List Char
  | literal text _ => text
  | placeholder digits written decimal =>
      (args[Nat.ofDigitChars 10 digits 0]?.map String.toList).getD
        (placeholder digits written decimal).text

end Segment

variable {args : List String}

theorem ne_of_isDigit {d c : Char} (digit : d.isDigit) (other : c.isDigit = false) : d ≠ c := by
  rintro rfl
  simp [other] at digit

theorem position?_digits {digits : List Char} (written : digits ≠ [])
    (decimal : ∀ d ∈ digits, d.isDigit) :
    position? digits = some (Nat.ofDigitChars 10 digits 0) := by
  cases digits with
  | nil => exact absurd rfl written
  | cons d ds =>
      have unsigned : d ≠ '+' := ne_of_isDigit (decimal d List.mem_cons_self) (by decide)
      have all : (d :: ds).all Char.isDigit := List.all_eq_true.mpr decimal
      simp [position?, unsigned, all, Nat.ofDigitChars]

theorem argument?_digits {digits : List Char} (written : digits ≠ [])
    (decimal : ∀ d ∈ digits, d.isDigit) (rest : List Char) :
    argument? args (digits ++ '\x7d' :: rest) =
      args[Nat.ofDigitChars 10 digits 0]?.map fun arg => (arg.toList, rest) := by
  have inside : ∀ d ∈ digits, decide (d ≠ '\x7d') = true := fun d hd =>
    decide_eq_true (ne_of_isDigit (decimal d hd) (by decide))
  rw [argument?, List.dropWhile_append_of_pos inside, List.takeWhile_append_of_pos inside]
  simp [position?_digits written decimal]

/-- What follows an argument stands at the end of what was read. -/
theorem argument?_suffix {cs arg rest : List Char} (h : argument? args cs = some (arg, rest)) :
    rest <:+ cs := by
  rw [argument?] at h
  split at h
  · simp at h
  · next c tail behind =>
      obtain ⟨_, -, eq⟩ := Option.map_eq_some_iff.mp h
      obtain ⟨-, rfl⟩ := Prod.mk.inj eq
      have suffix := List.dropWhile_suffix (fun c : Char => decide (c ≠ '\x7d')) (l := cs)
      rw [behind] at suffix
      exact (List.suffix_cons c tail).trans suffix

@[simp] theorem fill_nil : fill args [] = [] := by
  rw [fill]

theorem fill_cons {c : Char} (unopened : c ≠ '\x7b') (cs : List Char) :
    fill args (c :: cs) = c :: fill args cs := by
  rw [fill, if_neg unopened]

theorem fill_open (cs : List Char) :
    fill args ('\x7b' :: cs) =
      ((argument? args cs).map fun found => found.1 ++ fill args found.2).getD
        ('\x7b' :: fill args cs) := by
  rw [fill, if_pos rfl]
  split
  · next arg rest found => rw [found, Option.map_some, Option.getD_some]
  · next none => rw [none, Option.map_none, Option.getD_none]

theorem fill_literal {text : List Char} (unopened : '\x7b' ∉ text) (rest : List Char) :
    fill args (text ++ rest) = text ++ fill args rest := by
  induction text with
  | nil => rfl
  | cons c text ih =>
      rw [List.mem_cons, not_or] at unopened
      rw [List.cons_append, fill_cons (Ne.symm unopened.1), ih unopened.2, List.cons_append]

theorem fill_unopened {text : List Char} (unopened : '\x7b' ∉ text) : fill args text = text := by
  have alone : fill args (text ++ []) = text ++ fill args [] := fill_literal unopened []
  simpa using alone

theorem fill_segment (s : Segment) (rest : List Char) :
    fill args (s.text ++ rest) = s.filled args ++ fill args rest := by
  cases s with
  | literal text unopened => exact fill_literal unopened rest
  | placeholder digits written decimal =>
      have unopened : '\x7b' ∉ digits ++ ['\x7d'] := by
        rw [List.mem_append, not_or]
        exact ⟨fun inside => ne_of_isDigit (decimal _ inside) (by decide) rfl, by decide⟩
      have behind : digits ++ ['\x7d'] ++ rest = digits ++ '\x7d' :: rest := by simp
      rw [Segment.text, List.append_assoc, List.cons_append, ← List.append_assoc, fill_open, behind,
        argument?_digits written decimal, Segment.filled, Segment.text]
      cases args[Nat.ofDigitChars 10 digits 0]? with
      | some arg => simp
      | none =>
          -- the digits and the closing brace are read again, as literal text
          have again : fill args (digits ++ ['\x7d'] ++ rest) =
              digits ++ ['\x7d'] ++ fill args rest := fill_literal unopened rest
          simpa using again

theorem fill_segments (segments : List Segment) :
    fill args (segments.flatMap Segment.text) = segments.flatMap (Segment.filled args) := by
  induction segments with
  | nil => exact fill_nil
  | cons s segments ih =>
      rw [List.flatMap_cons, List.flatMap_cons, fill_segment, ih]

/-- What is written so far and what of the format is left. -/
structure Progress where
  out : List Char
  rest : List Char
deriving DecidableEq

/-- A round goes up to the next opening brace and past it: behind the placeholder if it names an
argument, else behind the brace alone. There is none if no brace is left. -/
def round? (args : List String) (p : Progress) : Option Progress :=
  match p.rest.dropWhile (· ≠ '\x7b') with
  | [] => none
  | brace :: behind =>
      let out := p.out ++ p.rest.takeWhile (· ≠ '\x7b')
      some (((argument? args behind).map fun found => ⟨out ++ found.1, found.2⟩).getD
        ⟨out ++ [brace], behind⟩)

/-- The state after a number of rounds, if there were so many. -/
def rounds? (args : List String) : Nat → Progress → Option Progress
  | 0, p => some p
  | n + 1, p => (round? args p).bind (rounds? args n)

variable {p q : Progress}

theorem passed_of_unopened {cs : List Char} (unopened : '\x7b' ∉ cs) :
    ∀ c ∈ cs, decide (c ≠ '\x7b') = true := by
  intro c hc
  exact decide_eq_true fun opened => unopened (opened ▸ hc)

theorem round?_unopened (unopened : '\x7b' ∉ p.rest) : round? args p = none := by
  have passed : (p.rest ++ []).dropWhile (· ≠ '\x7b') = [] :=
    List.dropWhile_append_of_pos (passed_of_unopened unopened)
  rw [List.append_nil] at passed
  rw [round?, passed]

theorem round?_open {front behind : List Char} (unopened : '\x7b' ∉ front)
    (split : p.rest = front ++ '\x7b' :: behind) :
    round? args p =
      some (((argument? args behind).map fun found => ⟨p.out ++ front ++ found.1, found.2⟩).getD
        ⟨p.out ++ front ++ ['\x7b'], behind⟩) := by
  have passed := passed_of_unopened unopened
  rw [round?, split, List.dropWhile_append_of_pos passed, List.takeWhile_append_of_pos passed]
  simp

theorem round?_eq_none_iff : round? args p = none ↔ '\x7b' ∉ p.rest := by
  refine ⟨fun none opened => ?_, round?_unopened⟩
  obtain ⟨front, behind, split, unopened⟩ := List.eq_append_cons_of_mem opened
  rw [round?_open unopened split] at none
  exact nomatch none

/-- What a round does: the text before the first brace is written, then the argument that the brace
begins to name, or the brace. -/
theorem round?_cases (h : round? args p = some q) :
    ∃ front behind, '\x7b' ∉ front ∧ p.rest = front ++ '\x7b' :: behind ∧
      ((∃ arg, argument? args behind = some (arg, q.rest) ∧ q.out = p.out ++ front ++ arg) ∨
        argument? args behind = none ∧ q.rest = behind ∧ q.out = p.out ++ front ++ ['\x7b']) := by
  have opened : '\x7b' ∈ p.rest := Classical.byContradiction fun unopened => by
    rw [round?_unopened unopened] at h
    exact nomatch h
  obtain ⟨front, behind, split, unopened⟩ := List.eq_append_cons_of_mem opened
  refine ⟨front, behind, unopened, split, ?_⟩
  rw [round?_open unopened split, Option.some.injEq] at h
  subst h
  cases argument? args behind with
  | some found => exact .inl ⟨found.1, rfl, rfl⟩
  | none => exact .inr ⟨rfl, rfl, rfl⟩

/-- A round leaves fewer braces and the same text to come. -/
theorem round?_step (h : round? args p = some q) :
    q.rest <:+ p.rest ∧ q.rest.count '\x7b' < p.rest.count '\x7b' ∧
      q.out ++ fill args q.rest = p.out ++ fill args p.rest := by
  obtain ⟨front, behind, unopened, split, step⟩ := round?_cases h
  have shorter : behind <:+ p.rest := by
    rw [split]
    exact (List.suffix_cons _ _).trans (List.suffix_append _ _)
  have fewer : behind.count '\x7b' < p.rest.count '\x7b' := by
    rw [split, List.count_append, List.count_cons_self]
    omega
  have filled : fill args p.rest = front ++ fill args ('\x7b' :: behind) := by
    rw [split, fill_literal unopened]
  rcases step with ⟨arg, found, out⟩ | ⟨none, rest, out⟩
  · have suffix := argument?_suffix found
    refine ⟨suffix.trans shorter, Nat.lt_of_le_of_lt (suffix.sublist.count_le _) fewer, ?_⟩
    rw [filled, fill_open, found, out]
    simp
  · rw [rest]
    refine ⟨shorter, fewer, ?_⟩
    rw [filled, fill_open, none, out]
    simp

theorem rounds?_keep {n : Nat} (h : rounds? args n p = some q) :
    q.rest <:+ p.rest ∧ q.out ++ fill args q.rest = p.out ++ fill args p.rest := by
  induction n generalizing p with
  | zero =>
      obtain rfl : p = q := by simpa [rounds?] using h
      exact ⟨List.suffix_refl _, rfl⟩
  | succ n ih =>
      obtain ⟨next, step, run⟩ := Option.bind_eq_some_iff.mp h
      obtain ⟨suffix, -, filled⟩ := round?_step step
      exact ⟨(ih run).1.trans suffix, (ih run).2.trans filled⟩

/-- The loop stops. The number of braces that are left is what decreases. -/
theorem rounds?_end (args : List String) (p : Progress) :
    ∃ n q, n ≤ p.rest.count '\x7b' ∧ rounds? args n p = some q ∧ round? args q = none := by
  induction left : p.rest.count '\x7b' using Nat.strongRecOn generalizing p with
  | ind k ih =>
      cases step : round? args p with
      | none => exact ⟨0, p, Nat.zero_le _, rfl, step⟩
      | some next =>
          have fewer := (round?_step step).2.1
          obtain ⟨n, q, bound, run, stop⟩ := ih _ (left ▸ fewer) next rfl
          refine ⟨n + 1, q, by omega, ?_, stop⟩
          rw [rounds?, step, Option.bind_some, run]

/-- Formats are filled in piece by piece, in one pass over the format: at each point the loop has a
part of the format before it, and it stops with the message. -/
theorem format_in_one_pass (args : List String) :
    (∀ segments : List Segment,
      format (String.ofList (segments.flatMap Segment.text)) args =
        String.ofList (segments.flatMap (Segment.filled args))) ∧
      ∀ fmt : String,
        (∀ n p, rounds? args n ⟨[], fmt.toList⟩ = some p → p.rest <:+ fmt.toList) ∧
          ∃ n p, n ≤ fmt.toList.count '\x7b' ∧ rounds? args n ⟨[], fmt.toList⟩ = some p ∧
            round? args p = none ∧ String.ofList (p.out ++ p.rest) = format fmt args := by
  refine ⟨fun segments => ?_, fun fmt => ⟨fun n p run => (rounds?_keep run).1, ?_⟩⟩
  · rw [format, String.toList_ofList, fill_segments]
  · obtain ⟨n, p, bound, run, stop⟩ := rounds?_end args ⟨[], fmt.toList⟩
    refine ⟨n, p, bound, run, stop, ?_⟩
    have filled := (rounds?_keep run).2
    rw [fill_unopened (round?_eq_none_iff.mp stop)] at filled
    rw [format, filled, List.nil_append]

example : format "\x7b0\x7d\x7d of \x7b01\x7d, \x7b7\x7d" ["\x7b1\x7d", "3"] =
    "\x7b1\x7d\x7d of 3, \x7b7\x7d" := by
  decide +kernel

end Antipattern.Message
