import Antipattern.Proofs.FindingOrder

/-!
Which calls a run makes. If nothing asks the run to stop, every due call is made exactly once: in
each tree in document order and, at one node, in registration order, then one completion for each
detector. A call that breaks down becomes one fault and has no effect on which calls are made.
-/

namespace Antipattern

namespace Site

def call (p : Program) (i : Nat) (t : SyntaxTree) (x : Site) : Call :=
  .check x.index ⟨i, t, x.node, p.symbols⟩

end Site

namespace Runner

variable {σ : Type}

/-- Once the run was asked to stop, no call takes that back. -/
def Sticky (r : Runner σ) : Prop :=
  ∀ d ∈ r.detectors, ∀ c s, r.stopped s = true → r.stopped (d.check c s).2 = true

theorem stopped_stepPass {r : Runner σ} (sticky : r.Sticky) {p : Program} {pass : NodePass σ}
    {made : List (MadeCall σ)} (account : r.Accounted p pass made) (index : Nat)
    (stop : r.stopped pass.state = true) : r.stopped (r.stepPass p pass index).state = true := by
  have next := accounted_step account index
  have step := r.stepPass_spec p pass index
  generalize r.stepPass p pass index = after at step next ⊢
  generalize callAt p pass index = new at step next
  cases step with
  | idle | leave | begin => exact stop
  | call t v rest brought m =>
      have registered := next.detector (List.mem_append_right made (List.mem_singleton_self m))
      exact sticky _ (List.mem_of_getElem? registered) _ _ stop

private theorem leftOut_of_set {pass : NodePass σ} {index i : Nat} {w : Progress σ} {s : σ}
    (h : (pass.set index w s).progress i = .leftOut) (walks : w ≠ .leftOut) :
    pass.progress i = .leftOut := by
  by_cases hi : i = index
  · subst hi
    rw [NodePass.set_progress_self] at h
    exact absurd h walks
  · rwa [NodePass.set_progress_ne pass hi] at h

private theorem stopped_step {r : Runner σ} (sticky : r.Sticky) {p : Program} {pass : NodePass σ}
    {made : List (MadeCall σ)} (account : r.Accounted p pass made) (index : Nat)
    (leftOut : ∀ i, pass.progress i = .leftOut → r.stopped pass.state = true) :
    ∀ i, (r.stepPass p pass index).progress i = .leftOut →
      r.stopped (r.stepPass p pass index).state = true := by
  have kept := stopped_stepPass sticky account index
  have step := r.stepPass_spec p pass index
  generalize r.stepPass p pass index = after at step kept ⊢
  generalize callAt p pass index = new at step
  intro i hi
  cases step with
  | idle ended => exact leftOut i hi
  | leave t tree waits stop => exact stop
  | begin | call => exact kept (leftOut i (leftOut_of_set hi nofun))

private theorem stopped_run {r : Runner σ} (sticky : r.Sticky) {p : Program} (schedule : List Nat)
    {pass : NodePass σ} {made : List (MadeCall σ)} (account : r.Accounted p pass made)
    (leftOut : ∀ i, pass.progress i = .leftOut → r.stopped pass.state = true) :
    ∀ i, (r.passUnder p schedule pass).progress i = .leftOut →
      r.stopped (r.passUnder p schedule pass).state = true := by
  induction schedule generalizing pass made with
  | nil => exact leftOut
  | cons index schedule ih =>
      exact ih (accounted_step account index) (stopped_step sticky account index leftOut)

/-- A walk that is over has made all calls of its tree. -/
theorem visits_of_walk {r : Runner σ} {p : Program} {pass : NodePass σ} {made : List (MadeCall σ)}
    (account : r.Accounted p pass made) {i : Nat} {t : SyntaxTree} (ht : p.trees[i]? = some t)
    {brought : Yield} (walked : pass.progress i = .walking [] brought) :
    (MadeCall.inTree i made).map (·.visit) = r.visits r.subscriptions t := by
  have walk := account.walk i t ht
  rw [walked] at walk
  rw [← walk.1, List.append_nil]

section Finished

variable {r : Runner σ} (sticky : r.Sticky) {p : Program} {schedule : List Nat} {s : σ}
  (finishes : r.Finishes p (.parallel schedule) s)
  (running : r.stopped (r.passUnder p schedule (.start s)).state = false)
include sticky finishes running

/-- When the walks are over and the run was not asked to stop, no tree was left out. -/
theorem walked_of_finished {i : Nat} (hi : i < p.trees.length) :
    ∃ brought, (r.passUnder p schedule (.start s)).progress i = .walking [] brought := by
  have done := finishes i hi
  have kept := stopped_run sticky schedule (accounted_start r p s) nofun i
  cases hw : (r.passUnder p schedule (.start s)).progress i with
  | waiting =>
      rw [hw] at done
      cases done
  | leftOut =>
      rw [kept hw] at running
      cases running
  | walking rest brought =>
      rw [hw] at done
      rw [List.isEmpty_iff.mp done]
      exact ⟨brought, rfl⟩

theorem visits_of_calls {i : Nat} {t : SyntaxTree} (ht : p.trees[i]? = some t) :
    (MadeCall.inTree i (r.callsUnder p schedule (.start s))).map (·.visit) =
      r.visits r.subscriptions t := by
  obtain ⟨brought, walked⟩ :=
    walked_of_finished sticky finishes running (List.getElem?_eq_some_iff.mp ht).1
  exact visits_of_walk (r.accounted_under p schedule s) ht walked

end Finished

/-- The calls of a run and what becomes of them: node calls, then completions. -/
structure CallsOf (r : Runner σ) (p : Program) (result : AnalysisResult)
    (checks finals : List Entry) : Prop where
  /-- Node calls are made in the trees of the program, and only there. -/
  trees : ∀ e ∈ checks, ∃ i < p.trees.length, e.call.tree? = some i
  /-- In each tree the due calls are made, each once, in order. -/
  sites : ∀ i t, p.trees[i]? = some t → ∃ sites : List Site,
    (∀ x, x ∈ sites ↔ x.Due r t) ∧ sites.Pairwise Site.Before ∧
      (Entry.inTree i checks).map (·.call) = sites.map (Site.call p i t)
  completions : finals.map (·.call) = (List.range r.detectors.length).map (.complete · p)
  registered : ∀ e ∈ checks ++ finals, e.call.detector < r.detectors.length
  /-- Each breakdown is one fault, in the order of the trees and of the calls in them. -/
  faults : result.faults = (Entry.byTree p (checks ++ finals)).filterMap (Entry.fault? r)
  /-- Each finding that a call returned is reported or suppressed, and there are no others. -/
  findings : (result.findings ++ result.suppressed.map (·.finding)).Perm
    ((returned p (checks ++ finals)).map fun t => r.effective t.finding)

/-- The calls that a finished pass made in a tree are the calls of the tree's sites. -/
theorem calls_of_sites {r : Runner σ} {p : Program} {pass : NodePass σ}
    {made : List (MadeCall σ)} (account : r.Accounted p pass made) {i : Nat} {t : SyntaxTree}
    (ht : p.trees[i]? = some t)
    (visits : (MadeCall.inTree i made).map (·.visit) = r.visits r.subscriptions t) :
    (Entry.inTree i (made.map (MadeCall.entry p))).map (·.call) =
      (r.sites t).map (Site.call p i t) := by
  have seen : ∀ m ∈ MadeCall.inTree i made,
      (m.entry p).call = .check m.visit.index ⟨i, t, m.visit.node, p.symbols⟩ := by
    intro m hm
    obtain ⟨hm, hi⟩ := List.mem_filter.mp hm
    have tree := account.tree m hm
    rw [beq_iff_eq.mp hi, ht] at tree
    rw [MadeCall.entry, MadeCall.context, beq_iff_eq.mp hi, ← Option.some.inj tree]
  have call : Site.call p i t = (fun x => .check x.1 ⟨i, t, x.2, p.symbols⟩) ∘
      fun x => (x.index, x.node) := rfl
  calc
    (Entry.inTree i (made.map (MadeCall.entry p))).map (·.call)
      = (MadeCall.inTree i made).map fun m => (m.entry p).call := by
        rw [inTree_checks, List.map_map]
        rfl
    _ = (MadeCall.inTree i made).map
          fun m => .check m.visit.index ⟨i, t, m.visit.node, p.symbols⟩ :=
        List.map_congr_left seen
    _ = ((r.visits r.subscriptions t).map fun v => (v.index, v.node)).map
          fun x => .check x.1 ⟨i, t, x.2, p.symbols⟩ := by
        rw [← visits, List.map_map, List.map_map]
        rfl
    _ = (r.sites t).map (Site.call p i t) := by
        rw [visits_eq_sites, call, List.map_map]

/-- An uncancelled run makes the due calls and no others, whatever its calls answer. -/
theorem calls_of_run (r : Runner σ) (p : Program) (s : σ) (mode : Mode)
    (finishes : r.Finishes p mode s) (sticky : r.Sticky)
    (uncancelled : (r.runIn p mode s).1.cancelled = false) :
    ∃ checks completions,
      r.recorded.runIn p mode (s, []) =
        ((r.runIn p mode s).1, (r.runIn p mode s).2, checks ++ completions) ∧
      r.CallsOf p (r.runIn p mode s).1 checks completions := by
  obtain ⟨done, same, recording⟩ := r.runIn_scheduleOf p s mode finishes
  generalize r.scheduleOf p mode = schedule at done same recording
  obtain ⟨division, faults, stop⟩ := r.result_of_log p schedule s
  rw [← same] at division faults stop
  have running := stop.symm.trans uncancelled
  have account := r.accounted_under p schedule s
  have complete : (r.completionsAfter p (r.passUnder p schedule (.start s)).state).map (·.call) =
      (List.range r.detectors.length).map (.complete · p) := by
    have order := List.zipIdx_map_snd 0 r.detectors
    rw [completionsAfter, running, List.range_eq_range', ← order, List.map_map]
    exact completions_calls p r.detectors.zipIdx _
  have kept := r.split_perm p.trees (returned p (r.logUnder p schedule s))
  rw [returned, ← division] at kept
  refine ⟨_, _, recording, ?_, ?_, ?_, ?_, faults, kept⟩
  · intro e he
    obtain ⟨m, hm, rfl⟩ := List.mem_map.mp he
    exact ⟨m.index, (List.getElem?_eq_some_iff.mp (account.tree m hm)).1, rfl⟩
  · intro i t ht
    exact ⟨r.sites t, r.mem_sites_iff t, r.sites_ordered t,
      calls_of_sites account ht (visits_of_calls sticky done running ht)⟩
  · exact complete
  · intro e he
    rcases List.mem_append.mp he with he | he
    · obtain ⟨m, hm, rfl⟩ := List.mem_map.mp he
      exact (List.getElem?_eq_some_iff.mp (account.detector hm)).1
    · have call := List.mem_map_of_mem (f := (·.call)) he
      rw [complete, List.mem_map] at call
      obtain ⟨i, hi, hc⟩ := call
      rw [← hc]
      exact List.mem_range.mp hi

theorem calls_of_run_twoClasses :
    let mode := Mode.parallel [1, 0, 1, 0, 0, 1]
    let result := (numberingAndFailing.runIn .twoClasses mode 0).1
    numberingAndFailing.Finishes .twoClasses mode 0 ∧ numberingAndFailing.Sticky ∧
      result.cancelled = false ∧
      ∃ checks completions,
        (numberingAndFailing.recorded.runIn .twoClasses mode (0, [])).2.2 = checks ++ completions ∧
          numberingAndFailing.CallsOf .twoClasses result checks completions := by
  intro mode result
  have finishes : numberingAndFailing.Finishes .twoClasses mode 0 :=
    finishes_of_turns _ _ _ _ (by decide +kernel)
  have sticky : numberingAndFailing.Sticky := fun _ _ _ _ h => h
  have uncancelled : result.cancelled = false := rfl
  obtain ⟨checks, completions, recording, calls⟩ :=
    calls_of_run numberingAndFailing .twoClasses 0 mode finishes sticky uncancelled
  exact ⟨finishes, sticky, uncancelled, checks, completions, congrArg (·.2.2) recording, calls⟩

end Runner
end Antipattern
