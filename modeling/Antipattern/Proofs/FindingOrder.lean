import Antipattern.Order.StableSort
import Antipattern.Proofs.CallLog

/-!
Where the findings of a run end up. The findings that the calls returned are sorted, located ones
first, without moving ties past each other; severities are overridden and pragmas divide the list
into what is reported and what is suppressed. No finding is lost or made up on the way.
-/

namespace Antipattern

/-- Sorting by a key keeps the order of positions among equal keys. -/
private theorem mergeSort_stable {α : Type} (key : α → List Nat) (le : α → α → Bool)
    (hle : ∀ a b, le a b = true ↔ ¬ List.Lex (· < ·) (key b) (key a)) (d : List (α × Nat))
    (placed : d.Pairwise fun a b => a.2 < b.2) :
    ∃ sorted : List (α × Nat), sorted.Perm d ∧
      sorted.map (·.1) = (d.map (·.1)).mergeSort le ∧
      sorted.Pairwise fun a b =>
        List.Lex (· < ·) (key a.1) (key b.1) ∨ key a.1 = key b.1 ∧ a.2 < b.2 := by
  have trans : ∀ a b c : α × Nat, le a.1 b.1 = true → le b.1 c.1 = true → le a.1 c.1 = true := by
    intro a b c hab hbc
    rw [hle] at hab hbc ⊢
    exact List.le_trans hab hbc
  have total : ∀ a b : α × Nat, (le a.1 b.1 || le b.1 a.1) = true := by
    intro a b
    rw [Bool.or_eq_true, hle, hle]
    exact List.le_total (key a.1) (key b.1)
  have perm := List.mergeSort_perm d fun a b => le a.1 b.1
  refine ⟨d.mergeSort fun a b => le a.1 b.1, perm, ?_, ?_⟩
  · exact List.map_mergeSort fun a _ b _ => rfl
  · refine (pairwise_mergeSort_stable trans total placed).imp fun {a b} h => ?_
    have sorted := (hle a.1 b.1).mp h.1
    refine (List.le_iff_lt_or_eq.mp sorted).imp_right fun tie => ⟨tie, h.2 ?_⟩
    rw [hle, tie]
    exact List.le_refl _

namespace Tagged

/-- The final order of findings with the positions in which they came in: located ones first, by
tree, line, column and detector, then the others by detector; ties by position. -/
def Precedes (a b : Tagged × Nat) : Prop :=
  match a.1.finding.location.isNone, b.1.finding.location.isNone with
  | false, true => True
  | true, false => False
  | false, false => List.Lex (· < ·) a.1.key b.1.key ∨ a.1.key = b.1.key ∧ a.2 < b.2
  | true, true => a.1.detector < b.1.detector ∨ a.1.detector = b.1.detector ∧ a.2 < b.2

theorem precedes_asymm {a b : Tagged × Nat} (h : Precedes a b) (back : Precedes b a) : False := by
  unfold Precedes at h back
  generalize a.1.finding.location.isNone = general at h back
  generalize b.1.finding.location.isNone = general' at h back
  cases general <;> cases general' <;> dsimp only at h back
  · rcases h with less | ⟨same, less⟩
    · rcases back with less' | ⟨same', -⟩
      · exact List.lex_asymm (fun h h' => Nat.lt_asymm h h') less less'
      · exact List.lex_irrefl Nat.lt_irrefl _ (same' ▸ less)
    · rcases back with less' | ⟨-, less'⟩
      · exact List.lex_irrefl Nat.lt_irrefl _ (same ▸ less')
      · exact Nat.lt_asymm less less'
  · omega

private theorem zipIdx_filter_fst (ts : List Tagged) (keep : Tagged → Bool) :
    (ts.zipIdx.filter fun x => keep x.1).map (·.1) = ts.filter keep := by
  have h := List.filter_map (f := (·.1)) (p := keep) (l := ts.zipIdx)
  rw [List.zipIdx_map_fst] at h
  exact h.symm

theorem inOrder_spec (ts : List Tagged) :
    ∃ sorted : List (Tagged × Nat), sorted.Perm ts.zipIdx ∧ sorted.Pairwise Precedes ∧
      inOrder ts = sorted.map (·.1.finding) := by
  have placed := Runner.zipIdx_ordered ts 0
  obtain ⟨located, permLocated, sortLocated, ordLocated⟩ := mergeSort_stable Tagged.key
    (fun a b => lexLE Nat.blt a.key b.key) (fun a b => lexLE_iff_not_lex a.key b.key)
    (ts.zipIdx.filter fun x => !x.1.finding.location.isNone) (placed.filter _)
  obtain ⟨general, permGeneral, sortGeneral, ordGeneral⟩ := mergeSort_stable
    (fun t => [t.detector]) (fun a b => Nat.ble a.detector b.detector)
    (fun a b => by rw [Nat.ble_eq, List.not_cons_lex_cons_iff]; simp; omega)
    (ts.zipIdx.filter fun x => x.1.finding.location.isNone) (placed.filter _)
  have isLocated (x : Tagged × Nat) (hx : x ∈ located) :
      x.1.finding.location.isNone = false := by
    simpa using (List.mem_filter.mp (permLocated.mem_iff.mp hx)).2
  have isGeneral (x : Tagged × Nat) (hx : x ∈ general) :
      x.1.finding.location.isNone = true :=
    (List.mem_filter.mp (permGeneral.mem_iff.mp hx)).2
  refine ⟨located ++ general, ?_, ?_, ?_⟩
  · have whole := List.filter_append_perm (fun x => !x.1.finding.location.isNone) ts.zipIdx
    simp only [Bool.not_not] at whole
    exact (permLocated.append permGeneral).trans whole
  · rw [List.pairwise_append]
    refine ⟨?_, ?_, ?_⟩
    · refine ordLocated.imp_of_mem fun {a b} ha hb h => ?_
      simpa [Precedes, isLocated a ha, isLocated b hb] using h
    · refine ordGeneral.imp_of_mem fun {a b} ha hb h => ?_
      simpa [Precedes, isGeneral a ha, isGeneral b hb, List.cons_lex_cons_iff] using h
    · intro a ha b hb
      simp [Precedes, isLocated a ha, isGeneral b hb]
  · rw [zipIdx_filter_fst ts fun t => !t.finding.location.isNone] at sortLocated
    rw [zipIdx_filter_fst ts fun t => t.finding.location.isNone] at sortGeneral
    rw [inOrder, ← sortLocated, ← sortGeneral, ← List.map_append, List.map_map]
    rfl

theorem inOrder_perm (ts : List Tagged) : (inOrder ts).Perm (ts.map (·.finding)) := by
  obtain ⟨sorted, perm, -, order⟩ := inOrder_spec ts
  have listed := congrArg (List.map (·.finding)) (List.zipIdx_map_fst 0 ts)
  rw [List.map_map] at listed
  rw [order, ← listed]
  exact perm.map _

end Tagged

namespace Runner

open Suppression (suppressed_findings)

variable {σ : Type}

def effectiveSeverity (r : Runner σ) (f : Finding) : Severity :=
  (r.severityOverrides.lookup f.ruleId).getD f.severity

/-- The finding with the severity that the overrides give its rule, if they give it one. -/
def effective (r : Runner σ) (f : Finding) : Finding :=
  { f with severity := r.effectiveSeverity f }

theorem withOverride_eq (r : Runner σ) : r.withOverride = r.effective := by
  funext f
  unfold withOverride effective effectiveSeverity
  cases r.severityOverrides.lookup f.ruleId <;> rfl

theorem suppressor?_effective (r : Runner σ) (trees : List SyntaxTree) (f : Finding) :
    Suppression.suppressor? trees (r.effective f) = Suppression.suppressor? trees f := rfl

/-- What is reported and what is suppressed is, severities apart, what was returned. -/
theorem split_perm (r : Runner σ) (trees : List SyntaxTree) (ts : List Tagged) :
    let split := Suppression.divide trees ((Tagged.inOrder ts).map r.withOverride)
    (split.1 ++ split.2.map (·.finding)).Perm (ts.map fun t => r.effective t.finding) := by
  have parts := List.filter_append_perm (fun f => (Suppression.suppressor? trees f).isNone)
    ((Tagged.inOrder ts).map r.withOverride)
  have returned := (Tagged.inOrder_perm ts).map r.withOverride
  rw [List.map_map] at returned
  simp only [suppressed_findings, ← Option.not_isNone]
  exact parts.trans (withOverride_eq r ▸ returned)

/-- A rule that returned at most one finding, and this one about the program as a whole, has it
reported and nothing suppressed. -/
theorem reported_of_rule (r : Runner σ) (trees : List SyntaxTree) (ts : List Tagged)
    (rule : String) (verdict : Option Finding)
    (only : (ts.map (·.finding)).filter (·.ruleId == rule) = verdict.toList)
    (general : ∀ f ∈ verdict, f.location = .none) :
    let split := Suppression.divide trees ((Tagged.inOrder ts).map r.withOverride)
    split.1.filter (·.ruleId == rule) = (verdict.map r.effective).toList ∧
      ∀ x ∈ split.2, x.finding.ruleId ≠ rule := by
  have sameIds : ((fun f : Finding => f.ruleId == rule) ∘ r.effective) = (·.ruleId == rule) := rfl
  have own : ((Tagged.inOrder ts).map r.withOverride).filter (·.ruleId == rule) =
      (verdict.map r.effective).toList := by
    have found := (Tagged.inOrder_perm ts).filter (·.ruleId == rule)
    rw [only] at found
    rw [withOverride_eq, List.filter_map, sameIds]
    cases verdict with
    | none =>
        rw [List.perm_nil.mp found]
        rfl
    | some f =>
        rw [List.perm_singleton.mp found]
        rfl
  have unsuppressed : ∀ f ∈ (verdict.map r.effective).toList,
      Suppression.suppressor? trees f = none := by
    intro f hf
    obtain ⟨g, hg, rfl⟩ := Option.map_eq_some_iff.mp (Option.mem_toList.mp hf)
    rw [suppressor?_effective, Suppression.suppressor?, general g hg]
  generalize (Tagged.inOrder ts).map r.withOverride = fs at own ⊢
  refine ⟨?_, ?_⟩
  · have swap : (Suppression.divide trees fs).1.filter (·.ruleId == rule) =
        (fs.filter (·.ruleId == rule)).filter fun f =>
          (Suppression.suppressor? trees f).isNone := by
      simp only [Suppression.divide, List.filter_filter, Bool.and_comm]
    rw [swap, own, List.filter_eq_self]
    intro f hf
    rw [unsuppressed f hf]
    rfl
  · intro x hx same
    obtain ⟨f, hf, entry⟩ := List.mem_filterMap.mp hx
    obtain ⟨pragma, suppresses, rfl⟩ := Option.map_eq_some_iff.mp entry
    have reported := unsuppressed f (own ▸ List.mem_filter.mpr ⟨hf, beq_iff_eq.mpr same⟩)
    rw [reported] at suppresses
    cases suppresses

/-- The findings that the calls of a run returned, trees first and in their order. -/
def returned (p : Program) (log : List Entry) : List Tagged :=
  (Entry.byTree p log).filterMap (Entry.finding? p)

/-- If what is reported and what is suppressed are the parts of the ordered findings, they are the
two parts of one list, which is the sorted list of what was returned with nothing changed but
severities. -/
theorem sorted_of_division (r : Runner σ) (trees : List SyntaxTree) {ts : List Tagged}
    {result : AnalysisResult}
    (division : (result.findings, result.suppressed) =
      Suppression.divide trees ((Tagged.inOrder ts).map r.withOverride)) :
    ∃ sorted : List (Tagged × Nat), sorted.Perm ts.zipIdx ∧ sorted.Pairwise Tagged.Precedes ∧
      let final := sorted.map fun x => r.effective x.1.finding
      result.findings = final.filter (fun f => (Suppression.suppressor? trees f).isNone) ∧
        result.suppressed.map (·.finding) =
          final.filter (fun f => (Suppression.suppressor? trees f).isSome) ∧
        (result.hasErrors = true ↔ ∃ x ∈ ts, Suppression.suppressor? trees x.finding = none ∧
          r.effectiveSeverity x.finding = .error) := by
  obtain ⟨sorted, perm, order, final⟩ := Tagged.inOrder_spec ts
  refine ⟨sorted, perm, order, ?_⟩
  rw [final, withOverride_eq, List.map_map, Function.comp_def] at division
  obtain ⟨findings, suppressed⟩ := Prod.mk.inj division
  refine ⟨findings, ?_, ?_⟩
  · rw [suppressed]
    exact suppressed_findings trees _
  · rw [AnalysisResult.hasErrors, findings, List.any_eq_true]
    constructor
    · rintro ⟨f, hf, severe⟩
      obtain ⟨hf, shown⟩ := List.mem_filter.mp hf
      obtain ⟨x, hx, rfl⟩ := List.mem_map.mp hf
      refine ⟨x.1, List.fst_mem_of_mem_zipIdx (perm.mem_iff.mp hx), ?_, beq_iff_eq.mp severe⟩
      rwa [suppressor?_effective, Option.isNone_iff_eq_none] at shown
    · rintro ⟨t, ht, shown, severe⟩
      obtain ⟨i, hi⟩ := List.getElem?_of_mem ht
      have hx : (t, i) ∈ sorted := perm.mem_iff.mpr (List.mem_zipIdx_iff_getElem?.mpr hi)
      refine ⟨r.effective t.finding, List.mem_filter.mpr ⟨?_, ?_⟩, beq_iff_eq.mpr severe⟩
      · exact List.mem_map_of_mem (f := fun x => r.effective x.1.finding) hx
      · rw [suppressor?_effective, shown]
        rfl

end Runner

/-- Two files with one class each; in the second, a pragma switches all rules off. -/
def Program.twoClasses : Program where
  trees := [("a.cs", []), ("b.cs", [⟨0, .disable, []⟩])].map fun (path, pragmas) =>
    { path, pragmas
      root := { kind := .compilationUnit, children := [{ kind := .classDeclaration }] } }

/-- A detector that numbers the classes it is shown, and one that breaks down on every file. -/
def Runner.numberingAndFailing : Runner Nat where
  detectors :=
    let numbering : Descriptor := { id := "numbering", messageFormat := "\x7b0\x7d" }
    [ { rule := numbering
        kinds := [.classDeclaration, .classDeclaration]
        check := fun c n => (.finding (numbering.finding c.location [toString n]), n + 1)
        complete := fun _ n => (.finding (numbering.finding .none [toString n]), n) },
      { rule := { id := "failing", messageFormat := "" }
        kinds := [.compilationUnit]
        check := fun _ n => (.breakdown "not a file", n) } ]
  severityOverrides := [("numbering", .error)]
  stopped := fun _ => false

end Antipattern
