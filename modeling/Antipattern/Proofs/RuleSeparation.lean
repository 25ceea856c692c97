import Antipattern.Proofs.BuiltinRuns
import Antipattern.Settings.Reader

/-!
Rules do not interfere. Turning a rule off takes its findings out of the result and leaves all else
as it was. The detectors that remain are numbered anew, but in the same order, and the counter that
the detectors share is read by the one rule that writes it.
-/

namespace Antipattern

section

variable {α : Type} (keep : α → Bool)

/-- How many of the first members are kept. -/
def rank (xs : List α) (i : Nat) : Nat :=
  (xs.take i).countP keep

theorem rank_succ_cons (a : α) (xs : List α) (i : Nat) :
    rank keep (a :: xs) (i + 1) = (if keep a then 1 else 0) + rank keep xs i := by
  rw [rank, List.take_succ_cons, List.countP_cons, Nat.add_comm]
  rfl

theorem zipIdx_filter (xs : List α) (n m : Nat) :
    (xs.filter keep).zipIdx m =
      ((xs.zipIdx n).filter fun x => keep x.1).map
        fun x => (x.1, m + rank keep xs (x.2 - n)) := by
  induction xs generalizing n m with
  | nil => rfl
  | cons a xs ih =>
      have behind : ((xs.zipIdx (n + 1)).filter fun x => keep x.1).map
            (fun x => (x.1, m + rank keep (a :: xs) (x.2 - n))) =
          (xs.filter keep).zipIdx (m + if keep a then 1 else 0) := by
        rw [ih (n + 1)]
        apply List.map_congr_left
        intro x hx
        have low := List.le_snd_of_mem_zipIdx (List.mem_filter.mp hx).1
        rw [show x.2 - n = x.2 - (n + 1) + 1 by omega, rank_succ_cons, Nat.add_assoc]
      rw [List.zipIdx_cons, List.filter_cons, List.filter_cons]
      by_cases kept : keep a = true
      · simp only [kept, ite_true, List.map_cons, Nat.sub_self, List.zipIdx_cons] at behind ⊢
        rw [behind]
        rfl
      · simp only [kept, Bool.false_eq_true, ite_false] at behind ⊢
        exact behind.symm

variable {keep} {xs : List α} {i j : Nat} {a : α}

theorem rank_mono (h : i ≤ j) : rank keep xs i ≤ rank keep xs j :=
  (List.take_sublist_take_left h).countP_le

theorem rank_lt (ha : xs[i]? = some a) (kept : keep a = true) (h : i < j) :
    rank keep xs i < rank keep xs j := by
  have next : rank keep xs (i + 1) = rank keep xs i + 1 := by
    rw [rank, List.take_add_one, ha, List.countP_append, Option.toList_some,
      List.countP_singleton, if_pos kept]
    rfl
  have later : rank keep xs (i + 1) ≤ rank keep xs j := rank_mono h
  omega

/-- Those that are kept stand in the order in which they stood. -/
theorem ble_rank (ha : xs[j]? = some a) (kept : keep a = true) :
    Nat.ble (rank keep xs i) (rank keep xs j) = Nat.ble i j := by
  rw [Bool.eq_iff_iff, Nat.ble_eq, Nat.ble_eq]
  constructor
  · intro h
    apply Nat.le_of_not_lt
    intro lt
    exact Nat.not_le_of_lt (rank_lt ha kept lt) h
  · exact rank_mono

end

theorem lexLE_singleton (i j : Nat) : lexLE Nat.blt [i] [j] = Nat.ble i j := by
  rw [Bool.eq_iff_iff, lexLE_iff_not_lex, Nat.ble_eq]
  simp [List.cons_lex_cons_iff]

namespace Tagged

def renumber (f : Nat → Nat) (t : Tagged) : Tagged :=
  { t with detector := f t.detector }

private theorem lexLE_key_renumber {a b : Tagged} {f : Nat → Nat}
    (same : Nat.ble (f a.detector) (f b.detector) = Nat.ble a.detector b.detector) :
    lexLE Nat.blt (a.renumber f).key (b.renumber f).key = lexLE Nat.blt a.key b.key := by
  have last : lexLE Nat.blt [f a.detector] [f b.detector] =
      lexLE Nat.blt [a.detector] [b.detector] := by
    rw [lexLE_singleton, lexLE_singleton, same]
  simp only [key, renumber, lexLE] at last ⊢
  rw [last]

/-- Only the order of the detectors' numbers counts. -/
theorem inOrder_renumber {ts : List Tagged} {f : Nat → Nat}
    (same : ∀ a ∈ ts, ∀ b ∈ ts,
      Nat.ble (f a.detector) (f b.detector) = Nat.ble a.detector b.detector) :
    inOrder (ts.map (renumber f)) = inOrder ts := by
  have sorted (keep : Tagged → Bool) (le : Tagged → Tagged → Bool)
      (kept : ∀ t, keep (renumber f t) = keep t)
      (ordered : ∀ a ∈ ts, ∀ b ∈ ts, le (renumber f a) (renumber f b) = le a b) :
      ((ts.map (renumber f)).filter keep).mergeSort le =
        ((ts.filter keep).mergeSort le).map (renumber f) := by
    rw [List.filter_map, show keep ∘ renumber f = keep from funext kept]
    symm
    apply List.map_mergeSort
    intro a ha b hb
    exact (ordered a (List.mem_filter.mp ha).1 b (List.mem_filter.mp hb).1).symm
  have located := sorted (fun t => !t.finding.location.isNone)
    (fun a b => lexLE Nat.blt a.key b.key) (fun _ => rfl)
    fun a ha b hb => lexLE_key_renumber (same a ha b hb)
  have general := sorted (fun t => t.finding.location.isNone)
    (fun a b => Nat.ble a.detector b.detector) (fun _ => rfl) same
  simp only [inOrder, located, general, ← List.map_append, List.map_map]
  rfl

theorem inOrder_filter (ts : List Tagged) (keep : Finding → Bool) :
    inOrder (ts.filter fun t => keep t.finding) = (inOrder ts).filter keep := by
  have sorted (le : Tagged → Tagged → Bool) (part : Tagged → Bool)
      (trans : ∀ a b c, le a b = true → le b c = true → le a c = true)
      (total : ∀ a b, (le a b || le b a) = true) :
      ((ts.filter fun t => keep t.finding).filter part).mergeSort le =
        ((ts.filter part).mergeSort le).filter fun t => keep t.finding := by
    rw [← mergeSort_filter trans total]
    simp only [List.filter_filter, Bool.and_comm]
  have located := sorted (fun a b => lexLE Nat.blt a.key b.key)
    (fun t => !t.finding.location.isNone)
    (fun a b c => by
      simp only [lexLE_iff_not_lex]
      exact List.le_trans)
    (fun a b => by
      rw [Bool.or_eq_true, lexLE_iff_not_lex, lexLE_iff_not_lex]
      exact List.le_total a.key b.key)
  have general := sorted (fun a b => Nat.ble a.detector b.detector)
    (fun t => t.finding.location.isNone)
    (fun a b c => by
      simp only [Nat.ble_eq]
      exact Nat.le_trans)
    (fun a b => by
      rw [Bool.or_eq_true, Nat.ble_eq, Nat.ble_eq]
      exact Nat.le_total a.detector b.detector)
  simp only [inOrder, located, general, ← List.filter_append, List.filter_map]
  rfl

theorem detector_of_mem {ds : List (Detector RunState)} {tree : Finding → Nat}
    {find? : Detector RunState → Option Finding} {t : Tagged} (h : t ∈ ofDetectors ds tree find?) :
    ∃ d, ds[t.detector]? = some d ∧ find? d = some t.finding := by
  obtain ⟨d, hd, h⟩ := List.mem_filterMap.mp h
  obtain ⟨f, found, rfl⟩ := Option.map_eq_some_iff.mp h
  exact ⟨d.1, List.mem_zipIdx_iff_getElem?.mp hd, found⟩

theorem ofDetectors_filter {ds : List (Detector RunState)} {tree : Finding → Nat}
    {find? : Detector RunState → Option Finding} (rule : String)
    (own : ∀ d ∈ ds, ∀ f, find? d = some f → f.ruleId = d.rule.id) :
    ofDetectors (ds.filter (·.rule.id != rule)) tree find? =
      ((ofDetectors ds tree find?).filter fun t => t.finding.ruleId != rule).map
        (renumber (rank (·.rule.id != rule) ds)) := by
  rw [ofDetectors, zipIdx_filter _ ds 0, List.filterMap_map, ofDetectors]
  have named : ∀ d ∈ ds.zipIdx, ∀ f, find? d.1 = some f → f.ruleId = d.1.rule.id :=
    fun d hd => own d.1 (List.fst_mem_of_mem_zipIdx hd)
  -- the positions stay those in the whole list, so the induction is on the numbered list
  generalize ds.zipIdx = numbered at named ⊢
  induction numbered with
  | nil => rfl
  | cons d numbered ih =>
      have rest := ih fun e he => named e (List.mem_cons_of_mem d he)
      have first := named d List.mem_cons_self
      cases found : find? d.1 with
      | none => by_cases kept : d.1.rule.id = rule <;> simpa [found, kept] using rest
      | some f =>
          by_cases kept : d.1.rule.id = rule <;>
            simpa [found, first f found, kept, renumber] using rest

end Tagged

theorem Suppression.divide_filter (trees : List SyntaxTree) (fs : List Finding)
    (keep : Finding → Bool) :
    divide trees (fs.filter keep) =
      ((divide trees fs).1.filter keep, (divide trees fs).2.filter fun x => keep x.finding) := by
  simp only [divide, List.filter_filter, List.filterMap_filter, List.filter_filterMap, Bool.and_comm]
  congr 2
  funext f
  cases suppressor? trees f with
  | none => simp
  | some pragma => by_cases kept : keep f = true <;> simp [kept, Option.filter]

namespace Settings

/-- The second settings turn a rule off, whether or not it was on, and are the first in all else. -/
structure TurnsOff (rule : String) (cfg cfg' : Settings) : Prop where
  rest : cfg' = { cfg with rules := cfg'.rules }
  enabled : ∀ id, cfg'.isEnabled id = (cfg.isEnabled id && id != rule)
  overrides : ∀ id, cfg'.severityOverrides.lookup id = cfg.severityOverrides.lookup id

/-- The settings with a rule turned off. -/
def turnOff (cfg : Settings) (rule : String) : Settings :=
  let own := (cfg.rules.lookup rule).getD {}
  { cfg with rules := insertRule rule { own with enabled := false } cfg.rules }

private theorem lookup_cons_ite {α : Type} (id other : String) (a : α)
    (entries : List (String × α)) :
    ((other, a) :: entries).lookup id = if id = other then some a else entries.lookup id := by
  by_cases h : id = other
  · simp [h]
  · simp [List.lookup_cons, beq_eq_false_iff_ne.mpr h, h]

theorem lookup_insertRule (rule id : String) (r : RuleSettings)
    (rules : List (String × RuleSettings)) :
    (insertRule rule r rules).lookup id = if id = rule then some r else rules.lookup id := by
  induction rules with
  | nil => rw [insertRule, lookup_cons_ite]
  | cons entry rules ih =>
      obtain ⟨other, own⟩ := entry
      rw [insertRule]
      by_cases same : rule = other
      · subst same
        rw [if_pos rfl, lookup_cons_ite, lookup_cons_ite]
        split <;> rfl
      · rw [if_neg same]
        split
        · rw [lookup_cons_ite]
        · rw [lookup_cons_ite, lookup_cons_ite, ih]
          by_cases h : id = other
          · rw [if_pos h, if_pos h, if_neg (h ▸ Ne.symm same)]
          · rw [if_neg h, if_neg h]

private theorem severityOverrides_cons (cfg : Settings) (id : String) (r : RuleSettings)
    (rules : List (String × RuleSettings)) :
    { cfg with rules := (id, r) :: rules }.severityOverrides =
      (r.severity.map fun v => (id, v)).toList ++ { cfg with rules := rules }.severityOverrides := by
  simp only [severityOverrides, List.filterMap_cons]
  cases r.severity <;> rfl

private theorem lookup_override (cfg : Settings) {rule : String} {r : RuleSettings}
    {severity : Severity} (override : r.severity = some severity)
    {rules : List (String × RuleSettings)} (listed : rules.lookup rule = some r) :
    { cfg with rules := rules }.severityOverrides.lookup rule = some severity := by
  induction rules with
  | nil => cases listed
  | cons entry rules ih =>
      obtain ⟨other, own⟩ := entry
      rw [lookup_cons_ite] at listed
      rw [severityOverrides_cons, List.lookup_append]
      by_cases here : rule = other
      · rw [if_pos here] at listed
        rw [Option.some.inj listed, override, here]
        simp
      · rw [if_neg here] at listed
        have skipped : (own.severity.map fun v => (other, v)).toList.lookup rule = none := by
          cases own.severity with
          | none => rfl
          | some v => exact (lookup_cons_ite rule other v []).trans (if_neg here)
        rw [skipped, Option.none_or, ih listed]

/-- An entry ahead of a list with the severity that the list has for the rule changes nothing. -/
private theorem lookup_overrides_cons (cfg : Settings) (rule id : String) {r : RuleSettings}
    {rules : List (String × RuleSettings)}
    (same : r.severity = ((rules.lookup rule).getD {}).severity) :
    { cfg with rules := (rule, r) :: rules }.severityOverrides.lookup id =
      { cfg with rules := rules }.severityOverrides.lookup id := by
  rw [severityOverrides_cons, List.lookup_append]
  cases override : r.severity with
  | none => rfl
  | some severity =>
      rw [override] at same
      cases listed : rules.lookup rule with
      | none =>
          rw [listed] at same
          cases same
      | some x =>
          rw [listed] at same
          by_cases h : id = rule
          · rw [h, lookup_override cfg same.symm listed]
            simp
          · have skipped : [(rule, severity)].lookup id = none :=
              (lookup_cons_ite id rule severity []).trans (if_neg h)
            rw [Option.map_some, Option.toList_some, skipped, Option.none_or]

/-- A rule's settings in place of others with the same severity override nothing new. -/
theorem overrides_insertRule (cfg : Settings) (rule id : String) (r : RuleSettings)
    (rules : List (String × RuleSettings))
    (same : r.severity = ((rules.lookup rule).getD {}).severity) :
    { cfg with rules := insertRule rule r rules }.severityOverrides.lookup id =
      { cfg with rules := rules }.severityOverrides.lookup id := by
  induction rules with
  | nil => exact lookup_overrides_cons cfg rule id same
  | cons entry rules ih =>
      obtain ⟨other, own⟩ := entry
      rw [insertRule]
      by_cases here : rule = other
      · rw [lookup_cons_ite, if_pos here] at same
        rw [if_pos here, severityOverrides_cons, severityOverrides_cons, same, here]
        rfl
      · rw [if_neg here]
        split
        · exact lookup_overrides_cons cfg rule id same
        · rw [lookup_cons_ite, if_neg here] at same
          rw [severityOverrides_cons, severityOverrides_cons, List.lookup_append,
            List.lookup_append, ih same]

theorem turnsOff_turnOff (cfg : Settings) (rule : String) : TurnsOff rule cfg (cfg.turnOff rule) where
  rest := rfl
  enabled id := by
    rw [isEnabled, turnOff, lookup_insertRule]
    by_cases h : id = rule <;> simp [h, isEnabled]
  overrides id := overrides_insertRule cfg rule id _ cfg.rules rfl

end Settings

namespace Rule

variable {cfg cfg' : Settings} {rule : String}

theorem detectors_turnedOff (off : Settings.TurnsOff rule cfg cfg') :
    detectors cfg' = (detectors cfg).filter (·.rule.id != rule) := by
  have all : allDetectors cfg' = allDetectors cfg := (congrArg allDetectors off.rest).trans rfl
  rw [detectors, detectors, all, List.filter_filter]
  congr 1
  funext d
  rw [off.enabled, Bool.and_comm]

theorem ruleId_of_findingAt? {p : Program} {t : SyntaxTree × Nat} {x : Place}
    {d : Detector RunState} (hd : d ∈ detectors cfg) {f : Finding}
    (h : findingAt? cfg p t x d = some f) : f.ruleId = d.rule.id := by
  rw [findingAt?, Option.ite_none_right_eq_some] at h
  have builtin := (List.mem_filter.mp hd).1
  have verdict := check_eq_ofOption builtin ⟨t.2, t.1, x.node, p.symbols⟩ {}
  rw [h.2] at verdict
  exact (ruleId_of_check builtin verdict).2

theorem ruleId_of_findingAtEnd? {p : Program} {d : Detector RunState} (hd : d ∈ detectors cfg)
    {f : Finding} (h : findingAtEnd? cfg p d = some f) : f.ruleId = d.rule.id := by
  have builtin := (List.mem_filter.mp hd).1
  by_cases nano : d.rule.id = nanoService.id
  · rw [findingAtEnd?, if_pos nano] at h
    rw [(ruleId_of_verdict h).1, nano]
  · have other : d ∈ others cfg := by
      refine (List.mem_cons.mp builtin).resolve_left fun same => nano ?_
      rw [same]
      rfl
    have verdict := congrArg Prod.fst (complete_eq_ofOption other p {})
    rw [h] at verdict
    exact (complete_of_other other p {}).2 f verdict

theorem detector_of_found {p : Program} {t : Tagged} (h : t ∈ found cfg p) :
    ∃ d, (detectors cfg)[t.detector]? = some d ∧ t.finding.ruleId = d.rule.id := by
  rcases List.mem_append.mp h with h | h
  · obtain ⟨tree, -, h⟩ := List.mem_flatMap.mp h
    obtain ⟨x, -, h⟩ := List.mem_flatMap.mp h
    obtain ⟨d, registered, finds⟩ := Tagged.detector_of_mem h
    exact ⟨d, registered, ruleId_of_findingAt? (List.mem_of_getElem? registered) finds⟩
  · obtain ⟨d, registered, finds⟩ := Tagged.detector_of_mem h
    exact ⟨d, registered, ruleId_of_findingAtEnd? (List.mem_of_getElem? registered) finds⟩

/-- Without a rule, what is found is what was found less the rule's own findings. -/
theorem found_turnedOff (off : Settings.TurnsOff rule cfg cfg') (p : Program) :
    found cfg' p = ((found cfg p).filter fun t => t.finding.ruleId != rule).map
      (Tagged.renumber (rank (·.rule.id != rule) (detectors cfg))) := by
  have atPlace : findingAt? cfg' p = findingAt? cfg p :=
    (congrArg (findingAt? · p) off.rest).trans rfl
  have atEnd : findingAtEnd? cfg' p = findingAtEnd? cfg p :=
    (congrArg (findingAtEnd? · p) off.rest).trans rfl
  simp only [found, detectors_turnedOff off, atPlace, atEnd, List.filter_append, List.map_append,
    List.filter_flatMap, List.map_flatMap,
    Tagged.ofDetectors_filter rule fun d hd f => ruleId_of_findingAt? hd,
    Tagged.ofDetectors_filter rule fun d hd f => ruleId_of_findingAtEnd? hd]

end Rule

namespace Runner

/-- A run with a rule turned off gives the result of the run with all of the rule's entries left
out, and nothing else about the result is different. -/
theorem run_without_rule (rule : String) (cfg cfg' : Settings) (p : Program) (mode mode' : Mode)
    (off : Settings.TurnsOff rule cfg cfg') (finishes : (ofSettings cfg).Finishes p mode {})
    (finishes' : (ofSettings cfg').Finishes p mode' {}) :
    let result := ((ofSettings cfg).runIn p mode {}).1
    ((ofSettings cfg').runIn p mode' {}).1 =
      { result with
        findings := result.findings.filter fun f => f.ruleId != rule
        suppressed := result.suppressed.filter fun x => x.finding.ruleId != rule } := by
  have effective : (ofSettings cfg').effective = (ofSettings cfg).effective := by
    funext f
    rw [Runner.effective, Runner.effective, effectiveSeverity, effectiveSeverity]
    exact congrArg (fun o => { f with severity := o.getD f.severity }) (off.overrides f.ruleId)
  have order : Tagged.inOrder (Rule.found cfg' p) =
      (Tagged.inOrder (Rule.found cfg p)).filter fun f => f.ruleId != rule := by
    rw [Rule.found_turnedOff off, Tagged.inOrder_renumber]
    · exact Tagged.inOrder_filter (Rule.found cfg p) fun f => f.ruleId != rule
    · intro a _ b hb
      obtain ⟨hb, kept⟩ := List.mem_filter.mp hb
      obtain ⟨d, registered, own⟩ := Rule.detector_of_found hb
      exact ble_rank registered (own ▸ kept)
  rw [result_ofSettings cfg p mode finishes, result_ofSettings cfg' p mode' finishes', order,
    effective]
  have ids : (fun f : Finding => f.ruleId != rule) =
      (fun f => f.ruleId != rule) ∘ (ofSettings cfg).effective := rfl
  rw [ids, ← List.filter_map, Suppression.divide_filter]
  rfl

end Runner

/-- Two files with a long class whose name joins two words; a pragma covers the second file. -/
def Program.longClasses : Program where
  trees := [("a.cs", []), ("b.cs", [⟨0, .disable, []⟩])].map fun (path, pragmas) =>
    { path, pragmas
      root :=
        { kind := .compilationUnit
          children :=
            [{ kind := .classDeclaration, name := some "LoadOrSave"
               trailing := [.lineBreak, .lineBreak] }] } }

namespace Runner

theorem run_without_rule_longClasses :
    let cfg : Settings :=
      { thresholds := { maxClassLines := 1 }, rules := [("AP_4", { severity := some .error })] }
    let mode := Mode.parallel [1, 0, 0, 1, 1, 0, 0, 1]
    let result := ((ofSettings cfg).runIn .longClasses mode {}).1
    let without := ((ofSettings (cfg.turnOff "AP_4")).runIn .longClasses .sequential {}).1
    Settings.TurnsOff "AP_4" cfg (cfg.turnOff "AP_4") ∧
      (ofSettings cfg).Finishes .longClasses mode {} ∧
      (ofSettings (cfg.turnOff "AP_4")).Finishes .longClasses .sequential {} ∧
      result.findings.map (·.ruleId) = ["AP_4", "AP_6", "AP_1"] ∧
      result.suppressed.map (·.finding.ruleId) = ["AP_4", "AP_6"] ∧
      without =
        { result with
          findings := result.findings.filter fun f => f.ruleId != "AP_4"
          suppressed := result.suppressed.filter fun x => x.finding.ruleId != "AP_4" } := by
  intro cfg mode result without
  have off := cfg.turnsOff_turnOff "AP_4"
  have finishes : (ofSettings cfg).Finishes .longClasses mode {} :=
    finishes_of_turns _ _ _ _ (by decide +kernel)
  have sorted : Tagged.inOrder (Rule.found cfg .longClasses) =
      (Rule.found cfg .longClasses).map (·.finding) := by
    rw [Tagged.inOrder, List.mergeSort_of_pairwise (by decide +kernel),
      List.mergeSort_of_pairwise (by decide +kernel)]
    decide +kernel
  have run : result = _ := result_ofSettings cfg .longClasses mode finishes
  rw [sorted] at run
  refine ⟨off, finishes, trivial, ?_, ?_,
    run_without_rule "AP_4" cfg (cfg.turnOff "AP_4") .longClasses mode .sequential off finishes
      trivial⟩
  all_goals
    rw [run]
    decide +kernel

end Runner

end Antipattern
