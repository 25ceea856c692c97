import Antipattern.Proofs.RunCalls

/-!
Runs that are asked to stop, by a detector or from outside. A tree whose walk begins before that
is walked to its end, and a tree whose turn comes later is left out. Whether the detectors complete
is decided when the node pass ends.
-/

namespace Antipattern

/-- A moment of the node pass: a walk goes on, or something else changes the shared state. What
changes it while the detectors complete can be taken as part of the next completion. -/
inductive Turn (σ : Type) where
  | walk (tree : Nat)
  | outside (change : σ → σ)

namespace Turn

variable {σ : Type}

def tree? : Turn σ → Option Nat
  | walk tree => some tree
  | outside _ => none

def recorded : Turn σ → Turn (σ × List Entry)
  | walk tree => walk tree
  | outside change => outside fun (s, log) => (change s, log)

end Turn

namespace Runner

variable {σ : Type}

def takeTurn (r : Runner σ) (p : Program) (pass : NodePass σ) : Turn σ → NodePass σ
  | .walk tree => r.stepPass p pass tree
  | .outside change => { pass with state := change pass.state }

def passAmid (r : Runner σ) (p : Program) (turns : List (Turn σ)) (pass : NodePass σ) :
    NodePass σ :=
  turns.foldl (r.takeTurn p) pass

/-- A run whose walks and whose surroundings take these turns. -/
def runAmid (r : Runner σ) (p : Program) (turns : List (Turn σ)) (s : σ) : AnalysisResult × σ :=
  let pass := r.passAmid p turns (.start s)
  r.settle p (broughtIn p pass) pass.state

/-- Without interference the turns are a schedule. -/
theorem passAmid_walks (r : Runner σ) (p : Program) (schedule : List Nat) (pass : NodePass σ) :
    r.passAmid p (schedule.map .walk) pass = r.passUnder p schedule pass := by
  rw [passAmid, List.foldl_map]
  rfl

theorem runAmid_walks (r : Runner σ) (p : Program) (schedule : List Nat) (s : σ) :
    r.runAmid p (schedule.map .walk) s = r.runIn p (.parallel schedule) s := by
  rw [runAmid, passAmid_walks]
  rfl

theorem passAmid_append (r : Runner σ) (p : Program) (first second : List (Turn σ))
    (pass : NodePass σ) :
    r.passAmid p (first ++ second) pass = r.passAmid p second (r.passAmid p first pass) :=
  List.foldl_append

def callIn (p : Program) (pass : NodePass σ) : Turn σ → List (MadeCall σ)
  | .walk tree => callAt p pass tree
  | .outside _ => []

def callsAmid (r : Runner σ) (p : Program) : List (Turn σ) → NodePass σ → List (MadeCall σ)
  | [], _ => []
  | turn :: turns, pass =>
      callIn p pass turn ++ r.callsAmid p turns (r.takeTurn p pass turn)

theorem accounted_turn {r : Runner σ} {p : Program} {pass : NodePass σ}
    {made : List (MadeCall σ)} (h : r.Accounted p pass made) (turn : Turn σ) :
    r.Accounted p (r.takeTurn p pass turn) (made ++ callIn p pass turn) := by
  cases turn with
  | walk tree => exact accounted_step h tree
  | outside change =>
      rw [callIn, List.append_nil]
      exact ⟨h.tree, h.walk⟩

theorem accounted_amid {r : Runner σ} {p : Program} (turns : List (Turn σ)) {pass : NodePass σ}
    {made : List (MadeCall σ)} (h : r.Accounted p pass made) :
    r.Accounted p (r.passAmid p turns pass) (made ++ r.callsAmid p turns pass) := by
  induction turns generalizing pass made with
  | nil =>
      rw [callsAmid, List.append_nil]
      exact h
  | cons turn turns ih =>
      rw [callsAmid, ← List.append_assoc]
      exact ih (accounted_turn h turn)

theorem recorded_turn (r : Runner σ) (p : Program) (pass : NodePass σ) (log : List Entry)
    (turn : Turn σ) :
    r.recorded.takeTurn p (pass.recorded log) turn.recorded =
      (r.takeTurn p pass turn).recorded (log ++ (callIn p pass turn).map (MadeCall.entry p)) := by
  cases turn with
  | walk tree => exact recorded_step r p pass log tree
  | outside change =>
      rw [callIn, List.map_nil, List.append_nil]
      rfl

theorem recorded_amid (r : Runner σ) (p : Program) (turns : List (Turn σ)) (pass : NodePass σ)
    (log : List Entry) :
    r.recorded.passAmid p (turns.map Turn.recorded) (pass.recorded log) =
      (r.passAmid p turns pass).recorded
        (log ++ (r.callsAmid p turns pass).map (MadeCall.entry p)) := by
  induction turns generalizing pass log with
  | nil => simp [passAmid, callsAmid]
  | cons turn turns ih =>
      have rest := ih (r.takeTurn p pass turn)
        (log ++ (callIn p pass turn).map (MadeCall.entry p))
      rw [← recorded_turn, List.append_assoc, ← List.map_append] at rest
      exact rest

theorem recorded_runAmid (r : Runner σ) (p : Program) (turns : List (Turn σ)) (s : σ) :
    r.recorded.runAmid p (turns.map Turn.recorded) (s, []) =
      ((r.runAmid p turns s).1, (r.runAmid p turns s).2,
        (r.callsAmid p turns (.start s)).map (MadeCall.entry p) ++
          r.completionsAfter p (r.passAmid p turns (.start s)).state) := by
  have start : NodePass.start (s, ([] : List Entry)) = (NodePass.start s).recorded [] := rfl
  simp only [runAmid, start, recorded_amid, List.nil_append]
  exact recorded_settle r p _ _

/-- A turn that is not a tree's own leaves its walk as it is. -/
theorem progress_of_other (r : Runner σ) (p : Program) (pass : NodePass σ) {turn : Turn σ} {i : Nat}
    (other : turn ≠ .walk i) : (r.takeTurn p pass turn).progress i = pass.progress i := by
  cases turn with
  | outside change => rfl
  | walk tree =>
      have apart : i ≠ tree := by
        rintro rfl
        exact other rfl
      have step := r.stepPass_spec p pass tree
      rw [takeTurn]
      generalize r.stepPass p pass tree = next at step
      generalize callAt p pass tree = new at step
      cases step with
      | idle => rfl
      | leave | begin | call => exact pass.set_progress_ne apart _ _

theorem progress_of_others (r : Runner σ) (p : Program) {turns : List (Turn σ)} (pass : NodePass σ)
    {i : Nat} (others : .walk i ∉ turns) :
    (r.passAmid p turns pass).progress i = pass.progress i := by
  induction turns generalizing pass with
  | nil => rfl
  | cons turn turns ih =>
      rw [List.mem_cons, not_or] at others
      rw [passAmid, List.foldl_cons, ← passAmid, ih _ others.2]
      exact progress_of_other r p pass (Ne.symm others.1)

/-- Whether a tree is walked is decided once: what has begun or was left out remains so. -/
theorem decided_turn (r : Runner σ) (p : Program) {pass : NodePass σ} {i : Nat}
    (decided : pass.progress i ≠ .waiting) (turn : Turn σ) :
    (r.takeTurn p pass turn).progress i ≠ .waiting ∧
      ((r.takeTurn p pass turn).progress i).brought?.isSome =
        (pass.progress i).brought?.isSome := by
  by_cases own : turn = .walk i
  · subst own
    have step := r.stepPass_spec p pass i
    rw [takeTurn]
    generalize r.stepPass p pass i = next at step
    generalize callAt p pass i = new at step
    cases step with
    | idle => exact ⟨decided, rfl⟩
    | leave _ _ waits | begin _ _ waits => exact absurd waits decided
    | call t v rest brought m tree walks =>
        rw [NodePass.set_progress_self, walks]
        exact ⟨nofun, rfl⟩
  · rw [progress_of_other r p pass own]
    exact ⟨decided, rfl⟩

theorem decided_amid (r : Runner σ) (p : Program) (turns : List (Turn σ)) {pass : NodePass σ}
    {i : Nat} (decided : pass.progress i ≠ .waiting) :
    ((r.passAmid p turns pass).progress i).brought?.isSome =
      (pass.progress i).brought?.isSome := by
  induction turns generalizing pass with
  | nil => rfl
  | cons turn turns ih =>
      obtain ⟨still, same⟩ := decided_turn r p decided turn
      exact (ih still).trans same

/-- The first turn of a tree decides: its walk begins unless the run was asked to stop. -/
theorem decided_first (r : Runner σ) (p : Program) {pass : NodePass σ} {i : Nat}
    (tree : i < p.trees.length) (waits : pass.progress i = .waiting) :
    (r.stepPass p pass i).progress i ≠ .waiting ∧
      ((r.stepPass p pass i).progress i).brought?.isSome = !r.stopped pass.state := by
  have step := r.stepPass_spec p pass i
  generalize r.stepPass p pass i = next at step
  generalize callAt p pass i = new at step
  cases step with
  | idle ended =>
      rw [waits, List.getElem?_eq_getElem tree] at ended
      rcases ended with none | done
      · cases none
      · cases done
  | leave t _ _ stop =>
      rw [NodePass.set_progress_self, stop]
      exact ⟨nofun, rfl⟩
  | begin t _ _ go =>
      rw [NodePass.set_progress_self, go]
      exact ⟨nofun, rfl⟩
  | call t v rest brought m _ walks =>
      rw [waits] at walks
      cases walks

/-- A tree is walked if and only if the run was not asked to stop before its first turn. -/
theorem walked_iff_first (r : Runner σ) (p : Program) (s : σ) {before after : List (Turn σ)}
    {i : Nat} (tree : i < p.trees.length) (first : .walk i ∉ before) :
    ((r.passAmid p (before ++ .walk i :: after) (.start s)).progress i).brought?.isSome =
      !r.stopped (r.passAmid p before (.start s)).state := by
  have waits := progress_of_others r p (.start s) first
  obtain ⟨decided, begins⟩ := decided_first r p tree waits
  rw [passAmid_append]
  exact (decided_amid r p after decided).trans begins

/-- A tree whose walk is over, or that was left out, has had a first turn. -/
theorem exists_first (r : Runner σ) (p : Program) {turns : List (Turn σ)} {s : σ} {i : Nat}
    (done : ((r.passAmid p turns (.start s)).progress i).isDone = true) :
    ∃ before after, turns = before ++ .walk i :: after ∧ .walk i ∉ before := by
  by_cases turn : .walk i ∈ turns
  · exact List.eq_append_cons_of_mem turn
  · rw [progress_of_others r p (.start s) turn] at done
    cases done

/-- Once the run was asked to stop, nothing from outside takes that back. -/
def StickyAmid (r : Runner σ) (turns : List (Turn σ)) : Prop :=
  ∀ change, .outside change ∈ turns → ∀ s, r.stopped s = true → r.stopped (change s) = true

theorem StickyAmid.subset {r : Runner σ} {turns part : List (Turn σ)} (h : r.StickyAmid turns)
    (among : part ⊆ turns) : r.StickyAmid part :=
  fun change hc => h change (among hc)

theorem stopped_turn {r : Runner σ} (sticky : r.Sticky) {p : Program} {pass : NodePass σ}
    {made : List (MadeCall σ)} (account : r.Accounted p pass made) {turn : Turn σ}
    (outside : r.StickyAmid [turn]) (stop : r.stopped pass.state = true) :
    r.stopped (r.takeTurn p pass turn).state = true := by
  cases turn with
  | outside change => exact outside change (List.mem_singleton_self _) _ stop
  | walk tree => exact stopped_stepPass sticky account tree stop

theorem stopped_amid {r : Runner σ} (sticky : r.Sticky) {p : Program} {turns : List (Turn σ)}
    (outside : r.StickyAmid turns) {pass : NodePass σ} {made : List (MadeCall σ)}
    (account : r.Accounted p pass made) (stop : r.stopped pass.state = true) :
    r.stopped (r.passAmid p turns pass).state = true := by
  induction turns generalizing pass made with
  | nil => exact stop
  | cons turn turns ih =>
      have one : r.StickyAmid [turn] := outside.subset (by simp)
      exact ih (outside.subset (List.subset_cons_self turn turns)) (accounted_turn account turn)
        (stopped_turn sticky account one stop)

theorem account_of_start (r : Runner σ) (p : Program) (turns : List (Turn σ)) (s : σ) :
    r.Accounted p (r.passAmid p turns (.start s)) (r.callsAmid p turns (.start s)) :=
  accounted_amid turns (accounted_start r p s)

theorem stopped_of_append {r : Runner σ} (sticky : r.Sticky) {p : Program} {s : σ}
    {before after : List (Turn σ)} (outside : r.StickyAmid (before ++ after))
    (stop : r.stopped (r.passAmid p before (.start s)).state = true) :
    r.stopped (r.passAmid p (before ++ after) (.start s)).state = true := by
  rw [passAmid_append]
  exact stopped_amid sticky (outside.subset (List.subset_append_right before after))
    (r.account_of_start p before s) stop

/-- After the run was asked to stop, no walk begins. -/
theorem not_walked_of_stopped {r : Runner σ} (sticky : r.Sticky) {p : Program} {s : σ}
    {before after : List (Turn σ)} (outside : r.StickyAmid (before ++ after)) {i : Nat}
    (tree : i < p.trees.length) (notYet : .walk i ∉ before)
    (stop : r.stopped (r.passAmid p before (.start s)).state = true) :
    ((r.passAmid p (before ++ after) (.start s)).progress i).brought?.isSome = false := by
  by_cases turn : .walk i ∈ after
  · obtain ⟨wait, rest, rfl, first⟩ := List.eq_append_cons_of_mem turn
    have still : r.stopped (r.passAmid p (before ++ wait) (.start s)).state = true :=
      stopped_of_append sticky (outside.subset (by simp)) stop
    rw [← List.append_assoc, walked_iff_first r p s tree (by simp [notYet, first]), still]
    rfl
  · rw [progress_of_others r p (.start s) (by simp [notYet, turn])]
    rfl

/-- The trees that were walked, in their order. -/
def walkedIn (p : Program) (pass : NodePass σ) : List Nat :=
  (List.range p.trees.length).filter fun i => (pass.progress i).brought?.isSome

theorem mem_walkedIn {p : Program} {pass : NodePass σ} {i : Nat} :
    i ∈ walkedIn p pass ↔ i < p.trees.length ∧ (pass.progress i).brought?.isSome = true := by
  rw [walkedIn, List.mem_filter, List.mem_range]

private theorem filter_range_of_initial (f : Nat → Bool) (n : Nat)
    (initial : ∀ i j, i < j → j < n → f j = true → f i = true) :
    (List.range n).filter f = List.range ((List.range n).filter f).length := by
  induction n with
  | zero => rfl
  | succ n ih =>
      have below := ih fun i j less inside => initial i j less (Nat.lt_succ_of_lt inside)
      rw [List.range_succ, List.filter_append]
      cases last : f n with
      | false => simpa [last] using below
      | true =>
          have all : (List.range n).filter f = List.range n := by
            apply List.filter_eq_self.mpr
            intro i hi
            exact initial i n (List.mem_range.mp hi) (Nat.lt_succ_self n) last
          simp [all, last, List.range_succ]

/-- If the trees have their turns one after another, those walked are the first ones. -/
theorem walkedIn_eq_range {r : Runner σ} (sticky : r.Sticky) {p : Program} {s : σ}
    {turns : List (Turn σ)} (outside : r.StickyAmid turns)
    (finishes : ∀ i < p.trees.length,
      ((r.passAmid p turns (.start s)).progress i).isDone = true)
    (ordered : (turns.filterMap Turn.tree?).Pairwise (· ≤ ·)) :
    walkedIn p (r.passAmid p turns (.start s)) =
      List.range (walkedIn p (r.passAmid p turns (.start s))).length := by
  apply filter_range_of_initial
  intro i j less inside walked
  have tree := Nat.lt_trans less inside
  obtain ⟨before, after, rfl, first⟩ := exists_first r p (finishes i tree)
  rw [walked_iff_first r p s tree first, Bool.not_eq_true']
  cases stop : r.stopped (r.passAmid p before (.start s)).state with
  | false => rfl
  | true =>
      have notYet : .walk j ∉ before := by
        intro early
        rw [List.filterMap_append, List.pairwise_append] at ordered
        have order := ordered.2.2 j (List.mem_filterMap.mpr ⟨_, early, rfl⟩) i List.mem_cons_self
        omega
      rw [not_walked_of_stopped sticky outside inside notYet stop] at walked
      cases walked

/-- What a run does that walks some trees and leaves out the others. -/
structure WalksOf (r : Runner σ) (p : Program) (result : AnalysisResult) (walked : List Nat)
    (checks finals : List Entry) : Prop where
  /-- Node calls are made in the walked trees, and only there. -/
  trees : ∀ e ∈ checks, ∃ i ∈ walked, e.call.tree? = some i
  /-- In each walked tree all due calls are made, each once, in order. -/
  sites : ∀ i ∈ walked, ∃ t, p.trees[i]? = some t ∧ ∃ sites : List Site,
    (∀ x, x ∈ sites ↔ x.Due r t) ∧ sites.Pairwise Site.Before ∧
      (Entry.inTree i checks).map (·.call) = sites.map (Site.call p i t)
  files : result.filesAnalyzed = walked.length
  completions : finals.map (·.call) =
    if result.cancelled then [] else (List.range r.detectors.length).map (.complete · p)
  faults : result.faults = (Entry.byTree p (checks ++ finals)).filterMap (Entry.fault? r)
  findings : (result.findings ++ result.suppressed.map (·.finding)).Perm
    ((returned p (checks ++ finals)).map fun t => r.effective t.finding)

theorem completionsAfter_calls (r : Runner σ) (p : Program) (s : σ) :
    (r.completionsAfter p s).map (·.call) =
      if r.stopped s then [] else (List.range r.detectors.length).map (.complete · p) := by
  unfold completionsAfter
  split
  · rfl
  · have order := List.zipIdx_map_snd 0 r.detectors
    rw [List.range_eq_range', ← order, List.map_map]
    exact completions_calls p r.detectors.zipIdx s

theorem filesAnalyzed_settle (r : Runner σ) (p : Program) (pass : NodePass σ) :
    (r.settle p (broughtIn p pass) pass.state).1.filesAnalyzed = (walkedIn p pass).length := by
  have count : (broughtIn p pass).countP Option.isSome = (walkedIn p pass).length := by
    rw [broughtIn, List.countP_map, walkedIn, List.countP_eq_length_filter]
    rfl
  unfold settle
  split <;> exact count

theorem walksOf_settle {r : Runner σ} {p : Program} {pass : NodePass σ} {made : List (MadeCall σ)}
    (account : r.Accounted p pass made)
    (finished : ∀ i < p.trees.length, (pass.progress i).isDone = true) :
    r.WalksOf p (r.settle p (broughtIn p pass) pass.state).1 (walkedIn p pass)
      (made.map (MadeCall.entry p)) (r.completionsAfter p pass.state) := by
  obtain ⟨division, faults, stop⟩ := result_of_account account
  have kept := r.split_perm p.trees (returned p
    (made.map (MadeCall.entry p) ++ r.completionsAfter p pass.state))
  rw [returned, ← division] at kept
  refine ⟨?_, ?_, r.filesAnalyzed_settle p pass, ?_, faults, kept⟩
  · intro e he
    obtain ⟨m, hm, rfl⟩ := List.mem_map.mp he
    have tree := account.tree m hm
    have walk := account.walk m.index m.tree tree
    refine ⟨m.index, mem_walkedIn.mpr ⟨(List.getElem?_eq_some_iff.mp tree).1, ?_⟩, rfl⟩
    have own : m ∈ MadeCall.inTree m.index made := List.mem_filter.mpr ⟨hm, beq_self_eq_true _⟩
    cases hw : pass.progress m.index with
    | walking rest brought => rfl
    | waiting | leftOut =>
        rw [hw] at walk
        rw [show MadeCall.inTree m.index made = [] from walk] at own
        cases own
  · intro i hi
    obtain ⟨inside, begun⟩ := mem_walkedIn.mp hi
    have ht := List.getElem?_eq_getElem inside
    have done := finished i inside
    refine ⟨_, ht, r.sites _, r.mem_sites_iff _, r.sites_ordered _, ?_⟩
    cases hw : pass.progress i with
    | waiting | leftOut =>
        rw [hw] at begun
        cases begun
    | walking rest brought =>
        rw [hw, Progress.isDone, List.isEmpty_iff] at done
        subst done
        exact calls_of_sites account ht (visits_of_walk account ht hw)
  · rw [stop]
    exact r.completionsAfter_calls p pass.state

/-- Whenever and from wherever a run is asked to stop, each tree is walked to its end or left out,
and the detectors complete unless the run was asked to stop before. -/
theorem walks_of_run (r : Runner σ) (p : Program) (s : σ) (turns : List (Turn σ))
    (sticky : r.Sticky) (outside : r.StickyAmid turns)
    (finishes : ∀ i < p.trees.length,
      ((r.passAmid p turns (.start s)).progress i).isDone = true) :
    let result := (r.runAmid p turns s).1
    let stoppedAfter before := r.stopped (r.passAmid p before (.start s)).state
    ∃ walked checks finals,
      r.recorded.runAmid p (turns.map Turn.recorded) (s, []) =
        (result, (r.runAmid p turns s).2, checks ++ finals) ∧
      walked.Sublist (List.range p.trees.length) ∧ r.WalksOf p result walked checks finals ∧
      result.cancelled = stoppedAfter turns ∧
      -- The first turn of a tree decides, and none comes in after the run was asked to stop.
      (∀ i < p.trees.length, ∃ before after, turns = before ++ .walk i :: after ∧
        .walk i ∉ before ∧ (i ∈ walked ↔ stoppedAfter before = false)) ∧
      (∀ before after i, turns = before ++ after → .walk i ∉ before → stoppedAfter before = true →
        i ∉ walked) ∧
      -- One after another, the trees walked are the first ones; so it is in the sequential run.
      ((turns.filterMap Turn.tree?).Pairwise (· ≤ ·) → walked = List.range walked.length) ∧
      (turns = (r.treeByTree p.trees.zipIdx).map .walk → r.runAmid p turns s = r.run p s) := by
  intro result stoppedAfter
  have account := r.account_of_start p turns s
  refine ⟨_, _, _, recorded_runAmid r p turns s, ?_, walksOf_settle account finishes,
    (result_of_account account).2.2, ?_, ?_, ?_, ?_⟩
  · exact List.filter_sublist
  · intro i inside
    obtain ⟨before, after, split, first⟩ := exists_first r p (finishes i inside)
    refine ⟨before, after, split, first, ?_⟩
    rw [mem_walkedIn, split, walked_iff_first r p s inside first, Bool.not_eq_true']
    exact and_iff_right inside
  · rintro before after i rfl notYet stop walked
    obtain ⟨inside, begun⟩ := mem_walkedIn.mp walked
    rw [not_walked_of_stopped sticky outside inside notYet stop] at begun
    cases begun
  · exact walkedIn_eq_range sticky outside finishes
  · rintro rfl
    rw [runAmid_walks]
    exact (r.run_eq_treeByTree p s).2

/-- Numbers classes and asks the run to stop as soon as there is a number. -/
def stoppingAtFirst : Runner Nat :=
  { numberingAndFailing with stopped := fun n => decide (0 < n) }

/-- The second tree begins, the run is asked to stop from outside, and the first comes too late. -/
theorem walks_of_run_stoppingAtFirst :
    let turns : List (Turn Nat) := [.walk 1, .outside (· + 1), .walk 0, .walk 1, .walk 1]
    let result := (stoppingAtFirst.runAmid .twoClasses turns 0).1
    stoppingAtFirst.Sticky ∧ stoppingAtFirst.StickyAmid turns ∧
      (∀ i < Program.twoClasses.trees.length,
        ((stoppingAtFirst.passAmid .twoClasses turns (.start 0)).progress i).isDone = true) ∧
      result.cancelled = true ∧ result.filesAnalyzed = 1 ∧
      ∃ walked checks finals, 0 ∉ walked ∧
        stoppingAtFirst.WalksOf .twoClasses result walked checks finals := by
  intro turns result
  have sticky : stoppingAtFirst.Sticky := by
    intro d hd c n stop
    rcases List.mem_cons.mp hd with rfl | hd
    · exact decide_eq_true (Nat.succ_pos n)
    · rw [List.mem_singleton.mp hd]
      exact stop
  have outside : stoppingAtFirst.StickyAmid turns := by
    intro change h n _
    have same : change = (· + 1) := by simpa [turns] using h
    rw [same]
    exact decide_eq_true (Nat.succ_pos n)
  have finishes : ∀ i < Program.twoClasses.trees.length,
      ((stoppingAtFirst.passAmid .twoClasses turns (.start 0)).progress i).isDone = true := by
    decide +kernel
  obtain ⟨walked, checks, finals, -, -, calls, cancelled, -, late, -⟩ :=
    walks_of_run stoppingAtFirst .twoClasses 0 turns sticky outside finishes
  refine ⟨sticky, outside, finishes, cancelled.trans (by decide +kernel), by decide +kernel, walked,
    checks, finals, ?_, calls⟩
  exact late [.walk 1, .outside (· + 1)] _ 0 rfl (by simp) rfl

end Runner
end Antipattern
