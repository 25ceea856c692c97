import Antipattern.Analysis.Suppression
import Antipattern.Proofs.PragmaOrder

/-!
Pragmas as switches. A machine starts with every rule on and reads a file line by line; a pragma
switches the rules that it names, or all of them if it names none, from its own line on. A finding
is suppressed if and only if its rule is off at its line.
-/

namespace Antipattern

/-- Which rules are on. -/
abbrev Switches := String → Bool

namespace Switches

def set (on : Switches) (rule : String) (value : Bool) : Switches :=
  fun r => if r = rule then value else on r

theorem set_all (on : Switches) (rules : List String) (value : Bool) (rule : String) :
    rules.foldl (fun on r => on.set r value) on rule =
      if rule ∈ rules then value else on rule := by
  induction rules generalizing on with
  | nil => simp
  | cons r rules ih =>
      rw [List.foldl_cons, ih]
      by_cases here : rule = r <;> by_cases later : rule ∈ rules <;> simp [set, here, later]

end Switches

def PragmaAction.turnsOn : PragmaAction → Bool
  | .disable => false
  | .restore => true

namespace Pragma

/-- The pragma names the rule or, naming none, means all. -/
def Means (p : Pragma) (rule : String) : Prop :=
  p.rules = [] ∨ rule ∈ p.rules

theorem concerns_iff_means {p : Pragma} {rule : String} :
    p.concerns rule = true ↔ p.Means rule := by
  rw [concerns, Bool.or_eq_true, List.isEmpty_iff, List.contains_iff_mem, Means]

/-- Switches the rules that the pragma names, or every rule if it names none. -/
def switch (on : Switches) (p : Pragma) : Switches :=
  match p.rules with
  | [] => fun _ => p.action.turnsOn
  | rules => rules.foldl (fun on r => on.set r p.action.turnsOn) on

theorem switch_apply (on : Switches) (p : Pragma) (rule : String) :
    p.switch on rule = if p.concerns rule then p.action.turnsOn else on rule := by
  unfold switch concerns
  cases p.rules with
  | nil => rfl
  | cons r rules => simp [Switches.set_all]

/-- The last pragma that concerns a rule decides about it. -/
theorem foldl_switch (ps : List Pragma) (on : Switches) (rule : String) :
    ps.foldl switch on rule =
      (((ps.filter fun p => p.concerns rule).getLast?).map (·.action.turnsOn)).getD (on rule) := by
  induction ps generalizing on with
  | nil => rfl
  | cons p ps ih =>
      rw [List.foldl_cons, ih, switch_apply]
      by_cases own : p.concerns rule = true
      · simp only [List.filter_cons, own, ite_true, List.getLast?_cons]
        cases (ps.filter fun p => p.concerns rule).getLast? <;> rfl
      · simp only [List.filter_cons, own, Bool.false_eq_true, ite_false]

end Pragma

/-- The rules that are on after the lines below `n` were read. -/
def switchesBelow (pragmas : List Pragma) : Nat → Switches
  | 0 => fun _ => true
  | n + 1 => (pragmas.filter (·.line = n)).foldl Pragma.switch (switchesBelow pragmas n)

/-- The rules that are on at a line. -/
def switchesAt (pragmas : List Pragma) (line : Nat) : Switches :=
  switchesBelow pragmas (line + 1)

namespace Suppression

theorem filter_line_succ {ps : List Pragma} (sorted : ps.Pairwise fun p q => p.line ≤ q.line)
    (n : Nat) :
    ps.filter (fun p => p.line < n + 1) =
      ps.filter (fun p => p.line < n) ++ ps.filter (fun p => p.line = n) := by
  induction ps with
  | nil => rfl
  | cons p ps ih =>
      obtain ⟨above, sorted⟩ := List.pairwise_cons.mp sorted
      have ih := ih sorted
      by_cases less : p.line < n
      · simp only [List.filter_cons, less, Nat.lt_succ_of_lt less, Nat.ne_of_lt less, decide_true,
          decide_false, Bool.false_eq_true, ite_true, ite_false, List.cons_append, ih]
      · have none : ps.filter (fun q => q.line < n) = [] := by
          apply List.filter_eq_nil_iff.mpr
          intro q hq
          have := above q hq
          rw [decide_eq_true_iff]
          omega
        rw [none, List.nil_append] at ih
        have same : p.line < n + 1 ↔ p.line = n := by omega
        simp only [List.filter_cons, less, decide_false, Bool.false_eq_true, ite_false, none,
          List.nil_append, same, ih]

/-- In sorted pragmas, reading line by line is reading the list from its start. -/
theorem switchesBelow_eq_foldl {ps : List Pragma}
    (sorted : ps.Pairwise fun p q => p.line ≤ q.line) (n : Nat) :
    switchesBelow ps n = (ps.filter fun p => p.line < n).foldl Pragma.switch fun _ => true := by
  induction n with
  | zero =>
      have none : ps.filter (fun p => p.line < 0) = [] := by simp
      rw [none]
      rfl
  | succ n ih => rw [switchesBelow, ih, filter_line_succ sorted, List.foldl_append]

theorem disabling?_isSome_iff {ps : List Pragma} (sorted : ps.Pairwise fun p q => p.line ≤ q.line)
    (rule : String) (line : Nat) :
    (disabling? ps rule line).isSome = !switchesAt ps line rule := by
  have lines : (fun p : Pragma => decide (p.line ≤ line) && p.concerns rule) =
      fun p => p.concerns rule && decide (p.line < line + 1) := by
    funext p
    rw [Bool.and_comm]
    congr 1
    exact decide_eq_decide.mpr Nat.lt_succ_iff.symm
  rw [switchesAt, switchesBelow_eq_foldl sorted, Pragma.foldl_switch, disabling?, lines,
    List.filter_filter]
  cases (ps.filter fun p => p.concerns rule && decide (p.line < line + 1)).getLast? with
  | none => rfl
  | some p => cases action : p.action <;> simp [Option.filter, action, PragmaAction.turnsOn]

/-- The pragma in force is the last one at or above the line that names the rule or no rule. -/
theorem last_of_disabling? {ps : List Pragma} {rule : String} {line : Nat} {p : Pragma}
    (h : disabling? ps rule line = some p) :
    ∃ before after, ps = before ++ p :: after ∧ p.line ≤ line ∧ p.Means rule ∧
      ∀ q ∈ after, q.line ≤ line → ¬ q.Means rule := by
  obtain ⟨last, -⟩ := Option.filter_eq_some_iff.mp h
  obtain ⟨others, split⟩ := List.getLast?_eq_some_iff.mp last
  obtain ⟨front, back, rfl, -, tail⟩ := List.filter_eq_append_iff.mp split
  obtain ⟨skipped, after, rfl, -, own, none⟩ := List.filter_eq_cons_iff.mp tail
  rw [Bool.and_eq_true, decide_eq_true_iff] at own
  refine ⟨front ++ skipped, after, by simp, own.1, Pragma.concerns_iff_means.mp own.2, ?_⟩
  intro q hq above means
  apply List.filter_eq_nil_iff.mp none q hq
  rw [decide_eq_true above, Bool.true_and]
  exact Pragma.concerns_iff_means.mpr means

theorem eq_of_path {trees : List SyntaxTree} (distinct : (trees.map (·.path)).Nodup)
    {t u : SyntaxTree} (ht : t ∈ trees) (hu : u ∈ trees) (same : t.path = u.path) : t = u := by
  induction trees with
  | nil => cases ht
  | cons first trees ih =>
      rw [List.map_cons, List.nodup_cons, List.mem_map] at distinct
      obtain ⟨new, distinct⟩ := distinct
      cases ht with
      | head =>
          cases hu with
          | head => rfl
          | tail _ hu => exact absurd ⟨u, hu, same.symm⟩ new
      | tail _ ht =>
          cases hu with
          | head => exact absurd ⟨t, ht, same⟩ new
          | tail _ hu => exact ih distinct ht hu

theorem pragmasOf_of_mem {trees : List SyntaxTree} (distinct : (trees.map (·.path)).Nodup)
    {t : SyntaxTree} (ht : t ∈ trees) : pragmasOf trees t.path = t.pragmas := by
  unfold pragmasOf
  split
  · next u found =>
      have held := List.find?_some found
      rw [Bool.and_eq_true, beq_iff_eq] at held
      have hu := List.mem_reverse.mp (List.mem_of_find?_eq_some found)
      rw [eq_of_path distinct hu ht held.2]
  · next none =>
      have free := List.find?_eq_none.mp none t (List.mem_reverse.mpr ht)
      rw [beq_self_eq_true, Bool.and_true, Bool.not_eq_true', Bool.not_eq_false] at free
      exact (List.isEmpty_iff.mp free).symm

/-- A path belongs to one tree, whose pragmas count for it, or to none. -/
theorem pragmasOf_cases {trees : List SyntaxTree} (distinct : (trees.map (·.path)).Nodup)
    (path : String) :
    (∃ t ∈ trees, t.path = path ∧ pragmasOf trees path = t.pragmas) ∨
      ((∀ t ∈ trees, t.path ≠ path) ∧ pragmasOf trees path = []) := by
  by_cases known : ∃ t ∈ trees, t.path = path
  · obtain ⟨t, ht, rfl⟩ := known
    exact .inl ⟨t, ht, rfl, pragmasOf_of_mem distinct ht⟩
  · have unknown : ∀ t ∈ trees, t.path ≠ path := fun t ht same => known ⟨t, ht, same⟩
    exact .inr ⟨unknown, pragmasOf_eq_nil fun t ht same => absurd same (unknown t ht)⟩

end Suppression

/-- The rule of the finding is off where the finding points. -/
def Finding.isSwitchedOff (trees : List SyntaxTree) (f : Finding) : Bool :=
  match f.location with
  | .none => false
  | .source file line _ _ _ =>
      trees.any fun t => t.path == file && !switchesAt t.pragmas line f.ruleId

namespace Suppression

theorem suppressor?_isSome {trees : List SyntaxTree} (distinct : (trees.map (·.path)).Nodup)
    (sorted : ∀ t ∈ trees, t.pragmas.Pairwise fun p q => p.line ≤ q.line) (f : Finding) :
    (suppressor? trees f).isSome = f.isSwitchedOff trees := by
  unfold suppressor? Finding.isSwitchedOff
  cases f.location with
  | none => rfl
  | source file line _ _ _ =>
      rw [Bool.eq_iff_iff, List.any_eq_true]
      cases pragmasOf_cases distinct file with
      | inl found =>
          obtain ⟨t, ht, rfl, own⟩ := found
          simp only [own]
          rw [disabling?_isSome_iff (sorted t ht)]
          constructor
          · intro off
            exact ⟨t, ht, by rw [off, beq_self_eq_true, Bool.and_true]⟩
          · rintro ⟨u, hu, held⟩
            rw [Bool.and_eq_true, beq_iff_eq] at held
            rw [← eq_of_path distinct hu ht held.1]
            exact held.2
      | inr missing =>
          obtain ⟨unknown, free⟩ := missing
          simp only [free]
          constructor
          · intro none
            cases none
          · rintro ⟨t, ht, held⟩
            rw [Bool.and_eq_true, beq_iff_eq] at held
            exact absurd held.1 (unknown t ht)

/-- A suppressed finding points into a tree, and the pragma in force there is the one reported. -/
theorem last_of_suppressor? {trees : List SyntaxTree} (distinct : (trees.map (·.path)).Nodup)
    {f : Finding} {p : Pragma} (h : suppressor? trees f = some p) :
    ∃ t ∈ trees, ∃ line, f.location.file? = some t.path ∧ f.location.line? = some line ∧
      ∃ before after, t.pragmas = before ++ p :: after ∧ p.line ≤ line ∧
        p.Means f.ruleId ∧ ∀ q ∈ after, q.line ≤ line → ¬ q.Means f.ruleId := by
  unfold suppressor? at h
  cases location : f.location with
  | none =>
      rw [location] at h
      cases h
  | source file line _ _ _ =>
      simp only [location] at h
      cases pragmasOf_cases distinct file with
      | inl found =>
          obtain ⟨t, ht, rfl, own⟩ := found
          rw [own] at h
          exact ⟨t, ht, line, rfl, rfl, last_of_disabling? h⟩
      | inr missing =>
          rw [missing.2] at h
          cases h

/-- Pragmas work as switches that are read from top to bottom. -/
theorem suppressed_iff_switched_off (trees : List SyntaxTree)
    (read : ∀ t ∈ trees, t.FromSource) (distinct : (trees.map (·.path)).Nodup) :
    (∀ t ∈ trees, t.pragmas.Pairwise fun p q => p.line ≤ q.line) ∧
    ∀ findings,
      let result := split trees findings
      result.1 = findings.filter (fun f => !f.isSwitchedOff trees) ∧
      result.2.map (·.finding) = findings.filter (fun f => f.isSwitchedOff trees) ∧
      -- The line reported is that of the last pragma which means the rule.
      (∀ x ∈ result.2, ∃ t ∈ trees, ∃ line, x.finding.location.file? = some t.path ∧
        x.finding.location.line? = some line ∧
        ∃ before p after, t.pragmas = before ++ p :: after ∧ x.pragmaLine = p.line ∧
          p.line ≤ line ∧ p.Means x.finding.ruleId ∧
          ∀ q ∈ after, q.line ≤ line → ¬ q.Means x.finding.ruleId) ∧
      (∀ f, (f.location = .none ∨ ∀ t ∈ trees, f.location.file? = some t.path → t.pragmas = []) →
        f ∉ result.2.map (·.finding)) ∧
      -- Without pragmas the findings are passed through, which changes nothing.
      result = divide trees findings := by
  have sorted : ∀ t ∈ trees, t.pragmas.Pairwise fun p q => p.line ≤ q.line :=
    fun t ht => (read t ht).pragmas_ordered
  have off := suppressor?_isSome distinct sorted
  refine ⟨sorted, fun findings => ?_⟩
  simp only [split_eq_divide]
  refine ⟨?_, ?_, ?_, ?_, trivial⟩
  · simp only [divide, ← off, Option.not_isSome]
  · simp only [suppressed_findings, off]
  · intro x hx
    obtain ⟨f, -, entry⟩ := List.mem_filterMap.mp hx
    obtain ⟨p, suppresses, rfl⟩ := Option.map_eq_some_iff.mp entry
    obtain ⟨t, ht, line, file, atLine, before, after, pragmas, last⟩ :=
      last_of_suppressor? distinct suppresses
    exact ⟨t, ht, line, file, atLine, before, p, after, pragmas, rfl, last⟩
  · intro f free
    have stays : suppressor? trees f = none := by
      cases free with
      | inl nowhere => rw [suppressor?, nowhere]
      | inr free => exact suppressor?_eq_none free
    rw [suppressed_findings, List.mem_filter, stays]
    exact fun h => Bool.noConfusion h.2

end Suppression

open CSharp

def CSharp.switchingText : List Char :=
  "class A \x7b\x7d\n#pragma warning disable AP_4\n\n#pragma warning restore\n".toList

def CSharp.ConcreteFile.switching : ConcreteFile where
  root := .node .compilationUnit none ⟨0, 65, 1, 1, 5, 1⟩
    [.node .classDeclaration (some "A") (.onLine 0 10 1 1)
      [.token "class" (.onLine 0 5 1 1), .token "A" (.onLine 6 7 1 7),
       .node .other none (.onLine 8 10 1 9)
        [.token "\x7b" (.onLine 8 9 1 9), .token "\x7d" (.onLine 9 10 1 10)]]]
  islands := [⟨⟨11, 41, 2, 1, 4, 1⟩, .directive⟩, ⟨⟨41, 65, 4, 1, 5, 1⟩, .directive⟩]

/-- A rule is off between two pragmas. -/
def SyntaxTree.switching : SyntaxTree :=
  ConcreteFile.switching.syntaxTree "A.cs" switchingText

theorem SyntaxTree.fromSource_switching : switching.FromSource :=
  ⟨ConcreteFile.switching, switchingText, by decide, rfl⟩

theorem SyntaxTree.pragmas_switching :
    switching.pragmas = [⟨2, .disable, ["AP_4"]⟩, ⟨4, .restore, []⟩] := by
  simp only [switching, ConcreteFile.syntaxTree, Piece.ofFile]
  rw [List.mergeSort_of_pairwise]
  · decide +kernel
  · decide +kernel

namespace Suppression

theorem suppressed_iff_switched_off_switching :
    let finding (line : Nat) : Finding :=
      ⟨"AP_4", .warning, "", [], .source "A.cs" line 1 0 0, []⟩
    let trees := [SyntaxTree.switching]
    (∀ t ∈ trees, t.FromSource) ∧ (trees.map (·.path)).Nodup ∧
      (split trees [finding 1, finding 3, finding 4]).1 = [finding 1, finding 4] ∧
      (split trees [finding 1, finding 3, finding 4]).2.map (·.finding) = [finding 3] := by
  intro finding trees
  have read : ∀ t ∈ trees, t.FromSource := by
    intro t ht
    rw [List.mem_singleton.mp ht]
    exact SyntaxTree.fromSource_switching
  have distinct : (trees.map (·.path)).Nodup := by
    decide +kernel
  obtain ⟨active, suppressed, -⟩ :=
    (suppressed_iff_switched_off trees read distinct).2 [finding 1, finding 3, finding 4]
  have off (line : Nat) : (finding line).isSwitchedOff trees =
      !switchesAt [⟨2, .disable, ["AP_4"]⟩, ⟨4, .restore, []⟩] line "AP_4" := by
    rw [← SyntaxTree.pragmas_switching]
    exact Bool.or_false _
  refine ⟨read, distinct, ?_, ?_⟩
  · rw [active]
    simp only [List.filter_cons, off]
    decide +kernel
  · rw [suppressed]
    simp only [List.filter_cons, off]
    decide +kernel

end Suppression
end Antipattern
