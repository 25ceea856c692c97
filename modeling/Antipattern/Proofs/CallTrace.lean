import Antipattern.Proofs.Schedule

/-!
The calls that a schedule makes, in the order in which it makes them. Whatever the schedule, the
calls made in one tree are a first part of that tree's visits, a walk's yield is what these calls
answered, and the shared state is what all calls together made of it.
-/

namespace Antipattern

namespace Yield

/-- All that a list of yields holds. -/
def gather (ys : List Yield) : Yield :=
  ⟨ys.flatMap (·.findings), ys.flatMap (·.faults)⟩

theorem gather_append (xs ys : List Yield) :
    gather (xs ++ ys) = (gather xs).append (gather ys) := by
  simp [gather, append]

theorem gather_singleton (y : Yield) : gather [y] = y := by
  simp [gather]

theorem foldl_append (ys : List Yield) (a : Yield) :
    ys.foldl append a = a.append (gather ys) := by
  induction ys generalizing a with
  | nil => simp [gather, append]
  | cons y ys ih =>
      have split := gather_append [y] ys
      rw [List.singleton_append, gather_singleton] at split
      rw [List.foldl_cons, ih, split, append_assoc]

theorem verdict_of_mem {index : Nat} {rule : String} {file : Option String}
    {tree : Finding → Nat} {v : Verdict} {t : Tagged}
    (h : t ∈ (ofVerdict index rule file tree v).findings) : v = .finding t.finding := by
  cases v with
  | nothing => cases h
  | breakdown message => cases h
  | finding f =>
      rw [List.mem_singleton.mp h]

end Yield

/-- A call that was made on a node, with its answer. -/
structure MadeCall (σ : Type) where
  index : Nat
  tree : SyntaxTree
  visit : Visit σ
  verdict : Verdict

namespace MadeCall

variable {σ : Type}

def context (p : Program) (m : MadeCall σ) : NodeContext :=
  ⟨m.index, m.tree, m.visit.node, p.symbols⟩

def yield (m : MadeCall σ) : Yield :=
  .ofVerdict m.visit.index m.visit.detector.rule.id (some m.tree.path) (fun _ => m.index) m.verdict

/-- What the call makes of the state. -/
def after (p : Program) (s : σ) (m : MadeCall σ) : σ :=
  (m.visit.detector.check (m.context p) s).2

/-- The call of a visit in some state. -/
def ofVisit (p : Program) (index : Nat) (t : SyntaxTree) (v : Visit σ) (s : σ) : MadeCall σ :=
  ⟨index, t, v, (v.detector.check ⟨index, t, v.node, p.symbols⟩ s).1⟩

def inTree (index : Nat) (made : List (MadeCall σ)) : List (MadeCall σ) :=
  made.filter fun m => m.index == index

theorem inTree_append (index : Nat) (xs ys : List (MadeCall σ)) :
    inTree index (xs ++ ys) = inTree index xs ++ inTree index ys :=
  List.filter_append xs ys

end MadeCall

namespace Runner

variable {σ : Type}

/-- The call that the next step of a walk makes, if it makes one. -/
def callAt (p : Program) (pass : NodePass σ) (index : Nat) : List (MadeCall σ) :=
  match p.trees[index]?, pass.progress index with
  | some t, .walking (v :: _) _ => [.ofVisit p index t v pass.state]
  | _, _ => []

def callsUnder (r : Runner σ) (p : Program) : List Nat → NodePass σ → List (MadeCall σ)
  | [], _ => []
  | index :: schedule, pass =>
      callAt p pass index ++ r.callsUnder p schedule (r.stepPass p pass index)

/-- What one step of a walk can do, with the calls that it makes. -/
inductive PassStep (r : Runner σ) (p : Program) (pass : NodePass σ) (index : Nat) :
    NodePass σ → List (MadeCall σ) → Prop where
  | idle (ended : p.trees[index]? = none ∨ (pass.progress index).isDone = true) :
      PassStep r p pass index pass []
  | leave (t : SyntaxTree) (tree : p.trees[index]? = some t)
      (waits : pass.progress index = .waiting) (stop : r.stopped pass.state = true) :
      PassStep r p pass index (pass.set index .leftOut pass.state) []
  | begin (t : SyntaxTree) (tree : p.trees[index]? = some t)
      (waits : pass.progress index = .waiting) (go : r.stopped pass.state = false) :
      PassStep r p pass index
        (pass.set index (.walking (r.visits r.subscriptions t) {}) pass.state) []
  | call (t : SyntaxTree) (v : Visit σ) (rest : List (Visit σ)) (brought : Yield)
      (m : MadeCall σ) (tree : p.trees[index]? = some t)
      (walks : pass.progress index = .walking (v :: rest) brought)
      (made : m = .ofVisit p index t v pass.state) :
      PassStep r p pass index
        (pass.set index (.walking rest (brought.append m.yield)) (m.after p pass.state)) [m]

theorem stepPass_spec (r : Runner σ) (p : Program) (pass : NodePass σ) (index : Nat) :
    PassStep r p pass index (r.stepPass p pass index) (callAt p pass index) := by
  cases ht : p.trees[index]? with
  | none =>
      simp only [stepPass, callAt, ht]
      exact .idle (.inl ht)
  | some t =>
      rw [stepPass_of_tree ht]
      cases hw : pass.progress index with
      | waiting =>
          simp only [callAt, ht, hw, advance]
          cases stop : r.stopped pass.state with
          | true => exact .leave t ht hw stop
          | false => exact .begin t ht hw stop
      | leftOut =>
          have same : pass.set index .leftOut pass.state = pass := by
            rw [← hw]
            exact pass.set_self index
          simp only [callAt, ht, hw, advance, same]
          exact .idle (.inr (by rw [hw]; rfl))
      | walking rest brought =>
          cases rest with
          | nil =>
              have same : pass.set index (.walking [] brought) pass.state = pass := by
                rw [← hw]
                exact pass.set_self index
              simp only [callAt, ht, hw, advance, same]
              exact .idle (.inr (by rw [hw]; rfl))
          | cons v rest =>
              simp only [callAt, ht, hw, advance]
              exact .call t v rest brought _ ht hw rfl

/-- What the progress of a walk says of the calls made in its tree. -/
def Accounts (visits : List (Visit σ)) (made : List (MadeCall σ)) : Progress σ → Prop
  | .waiting => made = []
  | .leftOut => made = []
  | .walking rest brought =>
      made.map (·.visit) ++ rest = visits ∧ brought = Yield.gather (made.map (·.yield))

/-- The calls made so far are those that the walks account for, and no others. -/
structure Accounted (r : Runner σ) (p : Program) (pass : NodePass σ) (made : List (MadeCall σ)) :
    Prop where
  tree : ∀ m ∈ made, p.trees[m.index]? = some m.tree
  walk : ∀ i t, p.trees[i]? = some t →
    Accounts (r.visits r.subscriptions t) (MadeCall.inTree i made) (pass.progress i)

theorem accounted_start (r : Runner σ) (p : Program) (s : σ) :
    r.Accounted p (.start s) [] :=
  ⟨fun _ hm => absurd hm List.not_mem_nil, fun _ _ _ => rfl⟩

/-- Changing one walk leaves the account of the others as it is. -/
private theorem Accounted.set {r : Runner σ} {p : Program} {pass : NodePass σ}
    {made : List (MadeCall σ)} (h : r.Accounted p pass made) (index : Nat) (w : Progress σ) (s : σ)
    (new : List (MadeCall σ)) (trees : ∀ m ∈ new, m.index = index ∧ p.trees[index]? = some m.tree)
    (account : ∀ t, p.trees[index]? = some t →
      Accounts (r.visits r.subscriptions t) (MadeCall.inTree index made ++ new) w) :
    r.Accounted p (pass.set index w s) (made ++ new) := by
  refine ⟨?_, ?_⟩
  · intro m hm
    rcases List.mem_append.mp hm with hm | hm
    · exact h.tree m hm
    · obtain ⟨hi, ht⟩ := trees m hm
      rw [hi, ht]
  · intro i t ht
    rw [MadeCall.inTree_append]
    by_cases hi : i = index
    · subst hi
      have all : MadeCall.inTree i new = new := by
        apply List.filter_eq_self.mpr
        intro m hm
        simp [(trees m hm).1]
      rw [all, NodePass.set_progress_self]
      exact account t ht
    · have none : MadeCall.inTree i new = [] := by
        apply List.filter_eq_nil_iff.mpr
        intro m hm
        simp [(trees m hm).1, Ne.symm hi]
      rw [none, List.append_nil, NodePass.set_progress_ne pass hi]
      exact h.walk i t ht

theorem accounted_step {r : Runner σ} {p : Program} {pass : NodePass σ}
    {made : List (MadeCall σ)} (h : r.Accounted p pass made) (index : Nat) :
    r.Accounted p (r.stepPass p pass index) (made ++ callAt p pass index) := by
  have step := r.stepPass_spec p pass index
  generalize r.stepPass p pass index = next at step ⊢
  generalize callAt p pass index = new at step ⊢
  cases step with
  | idle _ => rwa [List.append_nil]
  | leave t tree waits stop =>
      apply h.set index _ _ [] (fun _ hm => absurd hm List.not_mem_nil)
      intro t ht
      have account := h.walk index t ht
      rw [waits] at account
      rwa [List.append_nil]
  | begin t tree waits go =>
      apply h.set index _ _ [] (fun _ hm => absurd hm List.not_mem_nil)
      intro t' ht
      rw [tree] at ht
      cases ht
      have account := h.walk index t tree
      rw [waits] at account
      rw [List.append_nil, account]
      exact ⟨rfl, rfl⟩
  | call t v rest brought m tree walks made =>
      subst made
      apply h.set index
      · intro m hm
        rw [List.mem_singleton] at hm
        subst hm
        exact ⟨rfl, tree⟩
      · intro t' ht
        rw [tree] at ht
        cases ht
        have account := h.walk index t tree
        rw [walks] at account
        obtain ⟨visits, yields⟩ := account
        refine ⟨?_, ?_⟩
        · rw [← visits, List.map_append, List.append_assoc]
          rfl
        · rw [yields, List.map_append, Yield.gather_append, List.map_singleton,
            Yield.gather_singleton]

theorem accounted_run {r : Runner σ} {p : Program} (schedule : List Nat) {pass : NodePass σ}
    {made : List (MadeCall σ)} (h : r.Accounted p pass made) :
    r.Accounted p (r.passUnder p schedule pass) (made ++ r.callsUnder p schedule pass) := by
  induction schedule generalizing pass made with
  | nil =>
      rw [callsUnder, List.append_nil]
      exact h
  | cons index schedule ih =>
      rw [callsUnder, ← List.append_assoc]
      exact ih (accounted_step h index)

theorem accounted_under (r : Runner σ) (p : Program) (schedule : List Nat) (s : σ) :
    r.Accounted p (r.passUnder p schedule (.start s)) (r.callsUnder p schedule (.start s)) :=
  accounted_run schedule (accounted_start r p s)

/-- The state after a pass is what its calls, one after another, make of the first. -/
theorem state_under (r : Runner σ) (p : Program) (schedule : List Nat) (pass : NodePass σ) :
    (r.passUnder p schedule pass).state =
      (r.callsUnder p schedule pass).foldl (MadeCall.after p) pass.state := by
  induction schedule generalizing pass with
  | nil => rfl
  | cons index schedule ih =>
      have step := r.stepPass_spec p pass index
      rw [callsUnder, List.foldl_append, passUnder, List.foldl_cons, ← passUnder, ih]
      congr 1
      generalize r.stepPass p pass index = next at step ⊢
      generalize callAt p pass index = new at step ⊢
      cases step <;> rfl

/-- Turns that a walk still needs. -/
def turnsLeft (r : Runner σ) (t : SyntaxTree) : Progress σ → Nat
  | .waiting => (r.visits r.subscriptions t).length + 1
  | .leftOut => 0
  | .walking rest _ => rest.length

theorem isDone_iff_turnsLeft (r : Runner σ) (t : SyntaxTree) (w : Progress σ) :
    w.isDone = true ↔ r.turnsLeft t w = 0 := by
  cases w with
  | waiting => simp [Progress.isDone, turnsLeft]
  | leftOut => simp [Progress.isDone, turnsLeft]
  | walking rest brought => simp [Progress.isDone, turnsLeft]

theorem turnsLeft_step (r : Runner σ) (p : Program) (pass : NodePass σ) (index : Nat) {i : Nat}
    {t : SyntaxTree} (ht : p.trees[i]? = some t) :
    r.turnsLeft t ((r.stepPass p pass index).progress i) ≤
      r.turnsLeft t (pass.progress i) - [index].count i := by
  have step := r.stepPass_spec p pass index
  generalize r.stepPass p pass index = next at step ⊢
  generalize callAt p pass index = new at step
  by_cases hi : i = index
  · subst hi
    rw [List.count_singleton_self]
    cases step with
    | idle ended =>
        have done := ended.resolve_left (by rw [ht]; exact Option.some_ne_none t)
        have none := (r.isDone_iff_turnsLeft t _).mp done
        omega
    | leave t' tree waits stop =>
        rw [NodePass.set_progress_self, waits]
        simp [turnsLeft]
    | begin t' tree waits go =>
        rw [ht] at tree
        cases tree
        rw [NodePass.set_progress_self, waits]
        simp [turnsLeft]
    | call t' v rest brought m tree walks made =>
        rw [NodePass.set_progress_self, walks]
        simp [turnsLeft]
  · have same : next.progress i = pass.progress i := by
      cases step with
      | idle ended => rfl
      | leave | begin | call => exact pass.set_progress_ne hi _ _
    have none : [index].count i = 0 := List.count_eq_zero.mpr (by simpa using hi)
    rw [same, none]
    exact Nat.le_refl _

theorem turnsLeft_run (r : Runner σ) (p : Program) (schedule : List Nat) (pass : NodePass σ)
    {i : Nat} {t : SyntaxTree} (ht : p.trees[i]? = some t) :
    r.turnsLeft t ((r.passUnder p schedule pass).progress i) ≤
      r.turnsLeft t (pass.progress i) - schedule.count i := by
  induction schedule generalizing pass with
  | nil => exact Nat.le_refl _
  | cons index schedule ih =>
      have step := r.turnsLeft_step p pass index ht
      have rest := ih (r.stepPass p pass index)
      have turns : (index :: schedule).count i = [index].count i + schedule.count i := by
        rw [← List.count_append, List.singleton_append]
      rw [passUnder, List.foldl_cons, ← passUnder, turns]
      omega

/-- A schedule that gives every walk a turn to begin and one for each call finishes. -/
theorem finishes_of_turns (r : Runner σ) (p : Program) (schedule : List Nat) (s : σ)
    (turns : ∀ t ∈ p.trees.zipIdx, (r.sites t.1).length < schedule.count t.2) :
    r.Finishes p (.parallel schedule) s := by
  intro i hi
  have ht := List.getElem?_eq_getElem hi
  have left := r.turnsLeft_run p schedule (.start s) ht
  have enough : (r.sites p.trees[i]).length < schedule.count i :=
    turns (p.trees[i], i) (List.mem_zipIdx_iff_getElem?.mpr ht)
  have calls := congrArg List.length (r.visits_eq_sites p.trees[i])
  rw [List.length_map, List.length_map] at calls
  have needed : r.turnsLeft p.trees[i] ((NodePass.start s).progress i) =
      (r.visits r.subscriptions p.trees[i]).length + 1 := rfl
  rw [r.isDone_iff_turnsLeft p.trees[i]]
  omega

end Runner
end Antipattern
