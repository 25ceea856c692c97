import Antipattern.Proofs.Cancellation

/-!
What a run reports, from the calls that it makes to the findings in its result. All trees are walked
whose turn comes before the run is asked to stop; what their calls and the completions return is
sorted, and each finding of the sorted list is reported or suppressed.
-/

namespace Antipattern

namespace Runner

variable {σ : Type} {r : Runner σ} {p : Program} {schedule : List Nat} {s : σ}

/-- In a finished run each tree has had a turn, and the first one decides whether it is walked. -/
theorem walkedIn_iff_first (finishes : r.Finishes p (.parallel schedule) s) {i : Nat}
    (inside : i < p.trees.length) :
    ∃ before after, schedule = before ++ i :: after ∧ i ∉ before ∧
      (i ∈ walkedIn p (r.passUnder p schedule (.start s)) ↔
        r.stopped (r.passUnder p before (.start s)).state = false) := by
  have done := finishes i inside
  rw [← passAmid_walks] at done
  obtain ⟨_, _, split, -⟩ := exists_first r p done
  have listed : i ∈ schedule := by
    have turn : Turn.walk i ∈ schedule.map Turn.walk :=
      split ▸ List.mem_append_right _ List.mem_cons_self
    simpa using turn
  obtain ⟨before, after, rfl, first⟩ := List.eq_append_cons_of_mem listed
  refine ⟨before, after, rfl, first, ?_⟩
  have decided : ((r.passUnder p (before ++ i :: after) (.start s)).progress i).brought?.isSome =
      !r.stopped (r.passUnder p before (.start s)).state := by
    rw [← passAmid_walks, ← passAmid_walks, List.map_append, List.map_cons]
    exact walked_iff_first r p s inside (by simpa using first)
  rw [mem_walkedIn, decided, Bool.not_eq_true']
  exact and_iff_right inside

/-- A finished run that was not asked to stop has walked all trees. -/
theorem walkedIn_of_running (sticky : r.Sticky)
    (finishes : r.Finishes p (.parallel schedule) s)
    (running : r.stopped (r.passUnder p schedule (.start s)).state = false) :
    walkedIn p (r.passUnder p schedule (.start s)) = List.range p.trees.length := by
  rw [walkedIn, List.filter_eq_self]
  intro i hi
  obtain ⟨brought, walked⟩ :=
    walked_of_finished sticky finishes running (List.mem_range.mp hi)
  rw [walked]
  rfl

/-- What a run reports and what it suppresses are the two parts of one list, which is the sorted
list of what its calls returned with nothing changed but severities. The calls are all those of the
trees that it walks, and then those that complete. -/
theorem findings_of_run (r : Runner σ) (p : Program) (s : σ) (mode : Mode)
    (finishes : r.Finishes p mode s) :
    let result := (r.runIn p mode s).1
    let stoppedAfter before := r.stopped (r.passUnder p before (.start s)).state
    ∃ walked checks finals,
      r.recorded.runIn p mode (s, []) = (result, (r.runIn p mode s).2, checks ++ finals) ∧
      r.WalksOf p result walked checks finals ∧ walked.Sublist (List.range p.trees.length) ∧
      -- A tree is walked unless the run was asked to stop before the tree's first turn.
      (∀ i < p.trees.length, ∃ before after, r.scheduleOf p mode = before ++ i :: after ∧
        i ∉ before ∧ (i ∈ walked ↔ stoppedAfter before = false)) ∧
      result.cancelled = stoppedAfter (r.scheduleOf p mode) ∧
      (r.Sticky → result.cancelled = false → walked = List.range p.trees.length) ∧
      ∃ sorted : List (Tagged × Nat), sorted.Perm (returned p (checks ++ finals)).zipIdx ∧
        sorted.Pairwise Tagged.Precedes ∧
        let final := sorted.map fun x => r.effective x.1.finding
        result.findings =
            final.filter (fun f => (Suppression.suppressor? p.trees f).isNone) ∧
          result.suppressed.map (·.finding) =
            final.filter (fun f => (Suppression.suppressor? p.trees f).isSome) ∧
          (result.hasErrors = true ↔ ∃ x ∈ returned p (checks ++ finals),
            Suppression.suppressor? p.trees x.finding = none ∧
              r.effectiveSeverity x.finding = .error) := by
  intro result stoppedAfter
  obtain ⟨done, same, recording⟩ := r.runIn_scheduleOf p s mode finishes
  obtain ⟨division, -, cancelled⟩ := r.result_of_log p (r.scheduleOf p mode) s
  have walks := walksOf_settle (r.accounted_under p (r.scheduleOf p mode) s) done
  rw [← same] at division cancelled
  refine ⟨_, _, _, recording, ?_, List.filter_sublist, fun i => walkedIn_iff_first done, cancelled,
    fun sticky going => walkedIn_of_running sticky done (cancelled.symm.trans going),
    r.sorted_of_division p.trees division⟩
  have own : result = (r.runIn p (.parallel (r.scheduleOf p mode)) s).1 := congrArg Prod.fst same
  rw [own]
  exact walks

def numbered (severity : Severity) (location : Location) (n : String) : Finding where
  ruleId := "numbering"
  severity := severity
  message := n
  arguments := [n]
  location := location

/-- What the calls return if the class of the second file is shown first. -/
def numbers : List Tagged := [
  ⟨0, 0, numbered .warning (.source "a.cs" 0 0 0 0) "1"⟩,
  ⟨1, 0, numbered .warning (.source "b.cs" 0 0 0 0) "0"⟩,
  ⟨2, 0, numbered .warning .none "2"⟩]

theorem findings_of_run_twoClasses :
    let mode := Mode.parallel [1, 0, 1, 1, 0, 0]
    let result := (numberingAndFailing.runIn .twoClasses mode 0).1
    numberingAndFailing.Finishes .twoClasses mode 0 ∧ numberingAndFailing.Sticky ∧
      (∃ checks finals,
        (numberingAndFailing.recorded.runIn .twoClasses mode (0, [])).2.2 = checks ++ finals ∧
          numberingAndFailing.WalksOf .twoClasses result [0, 1] checks finals) ∧
      result.findings =
        [numbered .error (.source "a.cs" 0 0 0 0) "1", numbered .error .none "2"] ∧
      result.suppressed.map (·.finding) = [numbered .error (.source "b.cs" 0 0 0 0) "0"] := by
  intro mode result
  have finishes : numberingAndFailing.Finishes .twoClasses mode 0 :=
    finishes_of_turns _ _ _ _ (by decide +kernel)
  have sticky : numberingAndFailing.Sticky := fun _ _ _ _ h => h
  obtain ⟨walked, checks, finals, recording, walks, -, -, -, all, sorted, perm, order, findings,
    suppressed, -⟩ := findings_of_run numberingAndFailing .twoClasses 0 mode finishes
  have log : (numberingAndFailing.recorded.runIn .twoClasses mode (0, [])).2.2 = checks ++ finals :=
    congrArg (·.2.2) recording
  have listed : returned .twoClasses
      (numberingAndFailing.recorded.runIn .twoClasses mode (0, [])).2.2 = numbers := by
    decide +kernel
  have placed : numbers.zipIdx.Pairwise Tagged.Precedes := by
    refine .cons (List.forall_mem_cons.mpr ⟨?_, List.forall_mem_singleton.mpr trivial⟩)
      (.cons (List.forall_mem_singleton.mpr trivial) (List.pairwise_singleton _ _))
    -- Both are located, the first in an earlier tree.
    exact .inl (.rel Nat.zero_lt_one)
  rw [← log, listed] at perm
  have same : sorted = numbers.zipIdx :=
    perm.eq_of_pairwise (fun _ _ _ _ h back => (Tagged.precedes_asymm h back).elim) order placed
  rw [same] at findings suppressed
  obtain rfl : walked = [0, 1] := all sticky rfl
  exact ⟨finishes, sticky, ⟨checks, finals, log, walks⟩, findings, suppressed⟩

end Runner
end Antipattern
