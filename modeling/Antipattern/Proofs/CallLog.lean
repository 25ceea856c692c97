import Antipattern.Proofs.Recording

/-!
What a run reports, read off its log. Each entry adds a finding, a fault or nothing; the trees'
entries count in the order of the trees, whatever order the schedule gave them, and the entries of
the completion come last.
-/

namespace Antipattern

namespace Runner

variable {σ : Type}

theorem Accounted.visit_mem {r : Runner σ} {p : Program} {pass : NodePass σ}
    {made : List (MadeCall σ)} (h : r.Accounted p pass made) {m : MadeCall σ} (hm : m ∈ made) :
    m.visit ∈ r.visits r.subscriptions m.tree := by
  have own : m ∈ MadeCall.inTree m.index made := List.mem_filter.mpr ⟨hm, beq_self_eq_true _⟩
  have account := h.walk m.index m.tree (h.tree m hm)
  cases hw : pass.progress m.index with
  | waiting | leftOut =>
      rw [hw] at account
      rw [show MadeCall.inTree m.index made = [] from account] at own
      cases own
  | walking rest brought =>
      rw [hw] at account
      rw [← account.1]
      exact List.mem_append_left rest (List.mem_map_of_mem own)

theorem Accounted.detector {r : Runner σ} {p : Program} {pass : NodePass σ}
    {made : List (MadeCall σ)} (h : r.Accounted p pass made) {m : MadeCall σ} (hm : m ∈ made) :
    r.detectors[m.visit.index]? = some m.visit.detector :=
  detector_of_visit (h.visit_mem hm)

/-- The yield that a list of entries stands for. -/
def yieldOf (r : Runner σ) (p : Program) (entries : List Entry) : Yield :=
  ⟨entries.filterMap (Entry.finding? p), entries.filterMap (Entry.fault? r)⟩

theorem yieldOf_append (r : Runner σ) (p : Program) (xs ys : List Entry) :
    r.yieldOf p (xs ++ ys) = (r.yieldOf p xs).append (r.yieldOf p ys) := by
  simp [yieldOf, Yield.append]

private theorem yieldOf_check {r : Runner σ} (p : Program) {m : MadeCall σ}
    (registered : r.detectors[m.visit.index]? = some m.visit.detector) :
    r.yieldOf p [m.entry p] = m.yield := by
  obtain ⟨index, t, v, verdict⟩ := m
  cases verdict with
  | nothing | finding f => rfl
  | breakdown message =>
      simp only [yieldOf, MadeCall.entry, MadeCall.yield, Yield.ofVerdict, List.filterMap_cons,
        List.filterMap_nil, Entry.finding?, Entry.fault?, Call.detector, registered]
      rfl

theorem yieldOf_checks {r : Runner σ} (p : Program) (made : List (MadeCall σ))
    (registered : ∀ m ∈ made, r.detectors[m.visit.index]? = some m.visit.detector) :
    r.yieldOf p (made.map (MadeCall.entry p)) = Yield.gather (made.map (·.yield)) := by
  induction made with
  | nil => rfl
  | cons m made ih =>
      have first := yieldOf_check p (registered m List.mem_cons_self)
      have rest := ih fun m' hm => registered m' (List.mem_cons_of_mem m hm)
      rw [List.map_cons, ← List.singleton_append, yieldOf_append, first, rest, List.map_cons,
        ← List.singleton_append, Yield.gather_append, Yield.gather_singleton]

private theorem yieldOf_complete {r : Runner σ} (p : Program) {d : Detector σ} {index : Nat}
    (registered : r.detectors[index]? = some d) (verdict : Verdict) :
    r.yieldOf p [⟨.complete index p, verdict⟩] =
      .ofVerdict index d.rule.id none
        (fun f => (f.location.file?.bind p.lastIndexOf?).getD p.trees.length) verdict := by
  cases verdict with
  | nothing | finding f => rfl
  | breakdown message =>
      simp only [yieldOf, Yield.ofVerdict, List.filterMap_cons, List.filterMap_nil,
        Entry.finding?, Entry.fault?, Call.detector, registered]
      rfl

theorem yieldOf_completions {r : Runner σ} (p : Program) (ds : List (Detector σ × Nat))
    (registered : ∀ d ∈ ds, r.detectors[d.2]? = some d.1) (s : σ) :
    r.yieldOf p (completions p ds s) = (completePass p ds s).1 := by
  induction ds generalizing s with
  | nil => rfl
  | cons d ds ih =>
      have rest := ih (fun e he => registered e (List.mem_cons_of_mem d he)) (d.1.complete p s).2
      rw [completions, ← List.singleton_append, yieldOf_append, rest,
        yieldOf_complete p (registered d List.mem_cons_self)]
      rfl

theorem completions_calls (p : Program) (ds : List (Detector σ × Nat)) (s : σ) :
    (completions p ds s).map (·.call) = ds.map fun d => .complete d.2 p := by
  induction ds generalizing s with
  | nil => rfl
  | cons d ds ih => rw [completions, List.map_cons, List.map_cons, ih]

private theorem tree_of_completion {p : Program} {ds : List (Detector σ × Nat)} {s : σ} {e : Entry}
    (h : e ∈ completions p ds s) : e.call.tree? = none := by
  have call : e.call ∈ (completions p ds s).map (·.call) := List.mem_map_of_mem h
  rw [completions_calls, List.mem_map] at call
  obtain ⟨d, -, hd⟩ := call
  rw [← hd]
  rfl

private theorem tree_of_completionsAfter {r : Runner σ} {p : Program} {s : σ} {e : Entry}
    (h : e ∈ r.completionsAfter p s) : e.call.tree? = none := by
  unfold completionsAfter at h
  split at h
  · cases h
  · exact tree_of_completion h

theorem inTree_checks (p : Program) (made : List (MadeCall σ)) (i : Nat) :
    Entry.inTree i (made.map (MadeCall.entry p)) =
      (MadeCall.inTree i made).map (MadeCall.entry p) := by
  rw [Entry.inTree, List.filter_map]
  rfl

theorem inTree_log (r : Runner σ) (p : Program) (made : List (MadeCall σ)) (s : σ) (i : Nat) :
    Entry.inTree i (made.map (MadeCall.entry p) ++ r.completionsAfter p s) =
      (MadeCall.inTree i made).map (MadeCall.entry p) := by
  have none : (r.completionsAfter p s).filter (fun e => e.call.tree? == some i) = [] := by
    apply List.filter_eq_nil_iff.mpr
    intro e he
    simp [tree_of_completionsAfter he]
  rw [← inTree_checks, Entry.inTree, List.filter_append, none, List.append_nil]
  rfl

theorem atCompletion_log (r : Runner σ) (p : Program) (made : List (MadeCall σ)) (s : σ) :
    Entry.atCompletion (made.map (MadeCall.entry p) ++ r.completionsAfter p s) =
      r.completionsAfter p s := by
  have all : (r.completionsAfter p s).filter (fun e => e.call.tree? == none) =
      r.completionsAfter p s := by
    apply List.filter_eq_self.mpr
    intro e he
    simp [tree_of_completionsAfter he]
  have none : (made.map (MadeCall.entry p)).filter (fun e => e.call.tree? == none) = [] := by
    apply List.filter_eq_nil_iff.mpr
    intro e he
    obtain ⟨m, -, rfl⟩ := List.mem_map.mp he
    simp [MadeCall.entry, Call.tree?]
  rw [Entry.atCompletion, List.filter_append, none, all, List.nil_append]

/-- A walk brought in what the calls of its tree answered; one that was left out made none. -/
private theorem brought_of_walk {r : Runner σ} {p : Program} {pass : NodePass σ}
    {made : List (MadeCall σ)} (h : r.Accounted p pass made) {i : Nat} {t : SyntaxTree}
    (ht : p.trees[i]? = some t) :
    Yield.gather (pass.progress i).brought?.toList =
      r.yieldOf p ((MadeCall.inTree i made).map (MadeCall.entry p)) := by
  have account := h.walk i t ht
  rw [yieldOf_checks p (MadeCall.inTree i made) fun m hm => h.detector (List.mem_filter.mp hm).1]
  cases hw : pass.progress i with
  | waiting | leftOut =>
      rw [hw] at account
      rw [show MadeCall.inTree i made = [] from account]
      rfl
  | walking rest brought =>
      rw [hw] at account
      rw [Progress.brought?, Option.toList_some, Yield.gather_singleton]
      exact account.2

private theorem brought_of_walks {r : Runner σ} {p : Program} {pass : NodePass σ}
    {made : List (MadeCall σ)} (h : r.Accounted p pass made) (indices : List Nat)
    (within : ∀ i ∈ indices, i < p.trees.length) :
    Yield.gather ((indices.map fun i => (pass.progress i).brought?).filterMap id) =
      r.yieldOf p (indices.flatMap fun i => (MadeCall.inTree i made).map (MadeCall.entry p)) := by
  induction indices with
  | nil => rfl
  | cons i indices ih =>
      have rest := ih fun j hj => within j (List.mem_cons_of_mem i hj)
      have ht := List.getElem?_eq_getElem (within i List.mem_cons_self)
      rw [List.flatMap_cons, yieldOf_append, ← brought_of_walk h ht, ← rest, ← Yield.gather_append,
        List.map_cons, List.filterMap_cons]
      cases (pass.progress i).brought? <;> rfl

private theorem settle_result (r : Runner σ) (p : Program) (walked : List (Option Yield)) (s : σ) :
    (r.settle p walked s).1 = r.conclude p walked
      (if r.stopped s then none else some (completePass p r.detectors.zipIdx s).1) := by
  unfold settle
  split <;> rfl

private theorem yieldOf_completionsAfter (r : Runner σ) (p : Program) (s : σ) :
    r.yieldOf p (r.completionsAfter p s) = Yield.gather
      (if r.stopped s then none else some (completePass p r.detectors.zipIdx s).1).toList := by
  unfold completionsAfter
  split
  · rfl
  · rw [Option.toList_some, Yield.gather_singleton]
    apply yieldOf_completions
    intro d hd
    exact List.mem_zipIdx_iff_getElem?.mp hd

theorem conclude_of_yield (r : Runner σ) (p : Program) (walked : List (Option Yield))
    (completed : Option Yield) {y : Yield}
    (hy : y = Yield.gather (walked.filterMap id ++ completed.toList)) :
    ((r.conclude p walked completed).findings, (r.conclude p walked completed).suppressed) =
      Suppression.divide p.trees ((Tagged.inOrder y.findings).map r.withOverride) ∧
    (r.conclude p walked completed).faults = y.faults ∧
    (r.conclude p walked completed).cancelled = completed.isNone := by
  have brought := Yield.foldl_append (walked.filterMap id ++ completed.toList) {}
  rw [← hy, Yield.empty_append] at brought
  simp only [conclude, brought, Suppression.split_eq_divide, and_self]

/-- What follows the node pass leads to the result that the calls account for. -/
theorem result_of_account {r : Runner σ} {p : Program} {pass : NodePass σ}
    {made : List (MadeCall σ)} (account : r.Accounted p pass made) :
    let log := made.map (MadeCall.entry p) ++ r.completionsAfter p pass.state
    let result := (r.settle p (broughtIn p pass) pass.state).1
    (result.findings, result.suppressed) =
        Suppression.divide p.trees ((Tagged.inOrder
          ((Entry.byTree p log).filterMap (Entry.finding? p))).map r.withOverride) ∧
      result.faults = (Entry.byTree p log).filterMap (Entry.fault? r) ∧
      result.cancelled = r.stopped pass.state := by
  simp only [settle_result]
  have brought : r.yieldOf p (Entry.byTree p (made.map (MadeCall.entry p) ++
      r.completionsAfter p pass.state)) =
      Yield.gather ((broughtIn p pass).filterMap id ++
        (if r.stopped pass.state then none
          else some (completePass p r.detectors.zipIdx pass.state).1).toList) := by
    rw [Entry.byTree, atCompletion_log, yieldOf_append, yieldOf_completionsAfter,
      Yield.gather_append, broughtIn,
      brought_of_walks account (List.range p.trees.length) fun i hi => List.mem_range.mp hi]
    simp only [inTree_log]
  obtain ⟨findings, faults, cancelled⟩ := r.conclude_of_yield p _ _ brought
  refine ⟨findings, faults, ?_⟩
  rw [cancelled]
  cases r.stopped pass.state <;> rfl

/-- The result of a run is the one that its log leads to. -/
theorem result_of_log (r : Runner σ) (p : Program) (schedule : List Nat) (s : σ) :
    let log := r.logUnder p schedule s
    let result := (r.runIn p (.parallel schedule) s).1
    (result.findings, result.suppressed) =
        Suppression.divide p.trees ((Tagged.inOrder
          ((Entry.byTree p log).filterMap (Entry.finding? p))).map r.withOverride) ∧
      result.faults = (Entry.byTree p log).filterMap (Entry.fault? r) ∧
      result.cancelled = r.stopped (r.passUnder p schedule (.start s)).state :=
  result_of_account (r.accounted_under p schedule s)

end Runner
end Antipattern
