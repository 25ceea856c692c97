import Antipattern.Proofs.JsonFields

/-!
The two structured reports of one result. The JSON report and the SARIF report list the same
findings in the same order, and nothing that is suppressed; the verdict of the one can be read off
the levels of the other, and the SARIF report describes exactly the rules that have a finding.
-/

namespace Antipattern

/-- The order of texts by code points. -/
def textBefore (a b : String) : Prop :=
  List.Lex (· < ·) (a.toList.map Char.toNat) (b.toList.map Char.toNat)

instance (a b : String) : Decidable (textBefore a b) :=
  List.decidableLex (· < ·) (a.toList.map Char.toNat) (b.toList.map Char.toNat)

theorem textBefore_trans {a b c : String} (hab : textBefore a b) (hbc : textBefore b c) :
    textBefore a c :=
  List.lex_trans (fun h h' => Nat.lt_trans h h') hab hbc

theorem textBefore_of_textLE {a b : String} (h : textLE a b = true) (ne : a ≠ b) :
    textBefore a b := by
  rw [textLE, lexLE_iff_not_lex] at h
  refine (List.le_iff_lt_or_eq.mp h).resolve_right fun same => ne ?_
  exact String.toList_inj.mp ((List.map_inj_right fun _ _ => Char.toNat_inj.mp).mp same)

theorem textBefore_of_not_textLE {a b : String} (h : ¬ textLE a b = true) : textBefore b a := by
  rw [textLE, lexLE_iff_not_lex] at h
  exact Decidable.not_not.mp h

theorem mem_insertText {s t : String} {ts : List String} :
    t ∈ insertText s ts ↔ t = s ∨ t ∈ ts := by
  induction ts with
  | nil => simp [insertText]
  | cons u ts ih =>
      rw [insertText]
      split
      · next same =>
          subst same
          simp
      · split
        · exact List.mem_cons
        · rw [List.mem_cons, ih, List.mem_cons, or_left_comm]

theorem insertText_increasing (s : String) {ts : List String} (h : ts.Pairwise textBefore) :
    (insertText s ts).Pairwise textBefore := by
  induction ts with
  | nil => exact List.pairwise_singleton _ _
  | cons t ts ih =>
      obtain ⟨first, rest⟩ := List.pairwise_cons.mp h
      rw [insertText]
      split
      · exact h
      · next other =>
          split
          · next le =>
              have before := textBefore_of_textLE le other
              refine .cons (List.forall_mem_cons.mpr ⟨before, fun u hu => ?_⟩) h
              exact textBefore_trans before (first u hu)
          · next notLE =>
              refine .cons (fun u hu => ?_) (ih rest)
              rcases mem_insertText.mp hu with rfl | hu
              · exact textBefore_of_not_textLE notLE
              · exact first u hu

/-- The words for a severity in the JSON report and in the SARIF report. -/
def Severity.words : Severity → String × String
  | .error => ("error", "error")
  | .warning => ("warning", "warning")
  | .info => ("info", "note")

theorem Severity.words_eq (s : Severity) : s.words = (s.text, Sarif.levelOf s) := by
  cases s <;> rfl

/-- A finding as the JSON report (`listed`) and the SARIF report (`result`) show it. -/
structure Finding.Shown (f : Finding) (listed result : Json) : Prop where
  rule : listed.at? ["rule"] = some (.str f.ruleId) ∧ result.at? ["ruleId"] = some (.str f.ruleId)
  message : listed.at? ["message"] = some (.str f.message) ∧
    result.at? ["message", "text"] = some (.str f.message)
  severity : listed.at? ["severity"] = some (.str f.severity.words.1) ∧
    result.at? ["level"] = some (.str f.severity.words.2)
  /-- Lines and columns are raised to one in the SARIF report. -/
  located : ∀ file line column startByte endByte,
    f.location = .source file line column startByte endByte →
      listed.at? ["file"] = some (.str file) ∧ listed.at? ["line"] = some (.num line) ∧
      listed.at? ["column"] = some (.num column) ∧
      ∃ place, result.at? ["locations"] = some (.arr [place]) ∧
        place.at? ["physicalLocation", "artifactLocation", "uri"] = some (.str file) ∧
        place.at? ["physicalLocation", "region", "startLine"] = some (.num (max line 1)) ∧
        place.at? ["physicalLocation", "region", "startColumn"] = some (.num (max column 1))
  unlocated : f.location = .none →
    listed.at? ["file"] = none ∧ listed.at? ["line"] = none ∧ listed.at? ["column"] = none ∧
      result.at? ["locations"] = none

/-- The findings one by one and in their order, and nothing else. -/
structure Listed (findings : List Finding) (listed results : List Json) : Prop where
  listedLength : listed.length = findings.length
  resultsLength : results.length = findings.length
  shown : ∀ (i : Nat) f l s, findings[i]? = some f → listed[i]? = some l → results[i]? = some s →
    f.Shown l s

/-- Descriptions of rules in the order of their ids: those that findings name, if they are known. -/
def DescribesRules (findings : List Finding) (rules : List Json) : Prop :=
  ∃ ids : List String, rules.map (·.at? ["id"]) = ids.map (some ∘ .str) ∧
    ids.Pairwise textBefore ∧
    ∀ id, id ∈ ids ↔ (Rule.builtin? id).isSome ∧ ∃ f ∈ findings, f.ruleId = id

theorem ReportedFinding.toJson_ofFinding (f : Finding) :
    (ofFinding f).toJson =
      .obj ([("rule", .str f.ruleId), ("severity", .str f.severity.text)] ++
        Json.optional "file" .str f.location.file? ++ Json.optional "line" .num f.location.line? ++
        Json.optional "column" .num f.location.column? ++
        [("message", .str f.message), ("arguments", .strings f.arguments)]) :=
  rfl

theorem Sarif.Result.toJson_ofFinding (f : Finding) :
    (ofFinding f).toJson =
      .obj ([("ruleId", .str f.ruleId), ("level", .str (levelOf f.severity)),
          ("message", textJson f.message)] ++
        Json.nonempty "locations" Place.toJson (Place.ofLocation? f.location).toList) := by
  rw [toJson, ofFinding]
  cases Place.ofLocation? f.location <;> rfl

theorem Finding.shown (f : Finding) :
    f.Shown (ReportedFinding.ofFinding f).toJson (Sarif.Result.ofFinding f).toJson where
  rule := by simp [ReportedFinding.toJson_ofFinding, Sarif.Result.toJson_ofFinding]
  message := by
    simp [ReportedFinding.toJson_ofFinding, Sarif.Result.toJson_ofFinding, Json.at?_cons,
      Sarif.textJson]
  severity := by
    simp [ReportedFinding.toJson_ofFinding, Sarif.Result.toJson_ofFinding, f.severity.words_eq]
  located file line column startByte endByte location := by
    rw [ReportedFinding.toJson_ofFinding, Sarif.Result.toJson_ofFinding, location]
    refine ⟨by simp [Location.file?], by simp [Location.line?], by simp [Location.column?],
      Sarif.Place.toJson ⟨file, max line 1, max column 1⟩, by simp [Sarif.Place.ofLocation?], ?_⟩
    simp [Sarif.Place.toJson, Json.at?_cons]
  unlocated location := by
    rw [ReportedFinding.toJson_ofFinding, Sarif.Result.toJson_ofFinding, location]
    simp [Location.file?, Location.line?, Location.column?, Sarif.Place.ofLocation?]

theorem listed_findings (findings : List Finding) :
    Listed findings (findings.map fun f => (ReportedFinding.ofFinding f).toJson)
      (findings.map fun f => (Sarif.Result.ofFinding f).toJson) where
  listedLength := List.length_map _
  resultsLength := List.length_map _
  shown i f l s found hl hs := by
    rw [List.getElem?_map, found, Option.map_some, Option.some.injEq] at hl hs
    subst hl hs
    exact f.shown

namespace Sarif

theorem ruleIds_increasing (findings : List Finding) : (ruleIds findings).Pairwise textBefore := by
  unfold ruleIds
  generalize hids : ([] : List String) = ids
  have start : ids.Pairwise textBefore := hids ▸ .nil
  clear hids
  induction findings generalizing ids with
  | nil => exact start
  | cons f findings ih => exact ih _ (insertText_increasing f.ruleId start)

theorem mem_ruleIds_iff {findings : List Finding} {id : String} :
    id ∈ ruleIds findings ↔ ∃ f ∈ findings, f.ruleId = id := by
  have folded : ∀ ids, id ∈ findings.foldl (fun ids f => insertText f.ruleId ids) ids ↔
      id ∈ ids ∨ ∃ f ∈ findings, f.ruleId = id := by
    induction findings with
    | nil => simp
    | cons f findings ih =>
        intro ids
        rw [List.foldl_cons, ih, mem_insertText, eq_comm, or_assoc, or_left_comm]
        simp
  rw [ruleIds, folded, or_iff_right List.not_mem_nil]

theorem id_of_builtin? {id : String} {d : Descriptor} (h : Rule.builtin? id = some d) :
    d.id = id := by
  rw [Rule.builtin?] at h
  simpa using List.find?_some h

/-- The described rules are those of the named ids that are known. -/
theorem map_id_rulesOf (findings : List Finding) :
    (rulesOf findings).map (·.id) =
      (ruleIds findings).filter fun id => (Rule.builtin? id).isSome := by
  rw [rulesOf, List.map_filterMap, ← List.filterMap_eq_filter]
  congr 1
  funext id
  cases known : Rule.builtin? id with
  | none => simp [Option.guard, known]
  | some d => simp [Option.guard, known, id_of_builtin? known]

theorem describesRules_rulesOf (findings : List Finding) :
    DescribesRules findings ((rulesOf findings).map ruleJson) := by
  refine ⟨(rulesOf findings).map (·.id), ?_, ?_, fun id => ?_⟩
  · rw [List.map_map, List.map_map]
    apply List.map_congr_left
    intro d _
    simp [ruleJson]
  · rw [map_id_rulesOf]
    exact (ruleIds_increasing findings).filter _
  · rw [map_id_rulesOf, List.mem_filter, mem_ruleIds_iff, and_comm]

theorem level_eq_error_iff {s : Severity} : s.words.2 = "error" ↔ s = .error := by
  cases s <;> decide

/-- No result of the level `error` is shown if and only if there is no finding of that severity. -/
theorem no_error_level_iff (r : AnalysisResult) :
    (∀ result ∈ r.findings.map fun f => (Result.ofFinding f).toJson,
      result.at? ["level"] ≠ some (.str "error")) ↔ r.passed = true := by
  have level (f : Finding) : (Result.ofFinding f).toJson.at? ["level"] = some (.str "error") ↔
      f.severity = .error := by
    rw [f.shown.severity.2, Option.some.injEq, Json.str.injEq, level_eq_error_iff]
  simp only [List.forall_mem_map, ne_eq, level]
  simp [AnalysisResult.passed, AnalysisResult.hasErrors]

/-- What stands in a SARIF report about its only run. -/
theorem at?_toJson (s : Sarif) :
    ∃ run, s.toJson.at? ["runs"] = some (.arr [run]) ∧
      run.at? ["results"] = some (.arr (s.results.map Result.toJson)) ∧
      run.at? ["tool", "driver", "rules"] = some (.arr (s.rules.map ruleJson)) := by
  refine ⟨.obj [("tool", .obj [("driver", .obj [("name", .str toolName),
    ("version", .str toolVersion), ("rules", .arr (s.rules.map ruleJson))])]),
    ("results", .arr (s.results.map Result.toJson))], by simp [toJson], ?_, ?_⟩
  · simp
  · simp [Json.at?_cons]

end Sarif

namespace Summary

variable (s : Summary)

theorem at?_findings :
    s.toJson.at? ["findings"] = some (.arr (s.findings.map ReportedFinding.toJson)) := by
  simp [toJson]

theorem at?_suppressedCount :
    s.toJson.at? ["suppressed_count"] = some (.num s.suppressedCount) := by
  simp [toJson]

theorem at?_passed : s.toJson.at? ["passed"] = some (.bool s.passed) := by
  simp [toJson]

end Summary

/-- The reports of a result agree with it and with each other. -/
theorem reports_agree (path : String) (config : Option String) (showSuppressed : Bool)
    (r : AnalysisResult) :
    ∃ run listed results rules,
      (Sarif.ofResult r).toJson.at? ["runs"] = some (.arr [run]) ∧
      run.at? ["results"] = some (.arr results) ∧
      run.at? ["tool", "driver", "rules"] = some (.arr rules) ∧
      (Summary.ofResult path config showSuppressed r).toJson.at? ["findings"] =
        some (.arr listed) ∧
      Listed r.findings listed results ∧
      (∀ suppressed, (Sarif.ofResult { r with suppressed }).toJson = (Sarif.ofResult r).toJson ∧
        (Summary.ofResult path config showSuppressed { r with suppressed }).toJson.at?
          ["findings"] = some (.arr listed)) ∧
      (Summary.ofResult path config showSuppressed r).toJson.at? ["suppressed_count"] =
        some (.num r.suppressed.length) ∧
      DescribesRules r.findings rules ∧
      ((Summary.ofResult path config showSuppressed r).toJson.at? ["passed"] = some (.bool true) ↔
        ∀ result ∈ results, result.at? ["level"] ≠ some (.str "error")) := by
  obtain ⟨run, runs, results, rules⟩ := Sarif.at?_toJson (Sarif.ofResult r)
  have listed (r : AnalysisResult) :
      (Summary.ofResult path config showSuppressed r).toJson.at? ["findings"] =
        some (.arr (r.findings.map fun f => (ReportedFinding.ofFinding f).toJson)) := by
    rw [Summary.at?_findings, Summary.ofResult, List.map_map]
    rfl
  have shown : (Sarif.ofResult r).results.map Sarif.Result.toJson =
      r.findings.map fun f => (Sarif.Result.ofFinding f).toJson := by
    rw [Sarif.ofResult, List.map_map]
    rfl
  rw [shown] at results
  refine ⟨run, _, _, _, runs, results, rules, listed r, listed_findings r.findings,
    fun suppressed => ⟨rfl, listed _⟩, Summary.at?_suppressedCount _,
    Sarif.describesRules_rulesOf r.findings, ?_⟩
  rw [Summary.at?_passed, Sarif.no_error_level_iff, Option.some.injEq, Json.bool.injEq]
  rfl

end Antipattern
