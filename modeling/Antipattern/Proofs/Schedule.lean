import Antipattern.Proofs.Visits

/-!
The node pass as a system of walks that take turns. A schedule names, step by step, the tree whose
walk goes on: it begins, or makes its next call on the shared state. The trees' yields are taken in
the order of the trees once every walk is over, and only then do the detectors complete. Walking
tree by tree is one of the schedules.
-/

namespace Antipattern

namespace Yield

@[simp] theorem empty_append (a : Yield) : ({} : Yield).append a = a := rfl

@[simp] theorem append_empty (a : Yield) : a.append {} = a := by
  simp [append]

theorem append_assoc (a b c : Yield) : (a.append b).append c = a.append (b.append c) := by
  simp [append]

end Yield

/-- How far the walk over one tree has come. -/
inductive Progress (σ : Type) where
  | waiting
  /-- The run was asked to stop before the walk began. -/
  | leftOut
  | walking (rest : List (Visit σ)) (brought : Yield)

namespace Progress

variable {σ : Type}

def isDone : Progress σ → Bool
  | waiting => false
  | leftOut => true
  | walking rest _ => rest.isEmpty

def brought? : Progress σ → Option Yield
  | walking _ brought => some brought
  | _ => none

end Progress

/-- The walks, known by their trees' positions, and the state that they share. -/
structure NodePass (σ : Type) where
  progress : Nat → Progress σ
  state : σ

namespace NodePass

variable {σ : Type}

def start (s : σ) : NodePass σ :=
  ⟨fun _ => .waiting, s⟩

def set (pass : NodePass σ) (index : Nat) (w : Progress σ) (s : σ) : NodePass σ :=
  ⟨fun i => if i = index then w else pass.progress i, s⟩

@[simp] theorem set_state (pass : NodePass σ) (index : Nat) (w : Progress σ) (s : σ) :
    (pass.set index w s).state = s := rfl

@[simp] theorem set_progress_self (pass : NodePass σ) (index : Nat) (w : Progress σ) (s : σ) :
    (pass.set index w s).progress index = w := by
  simp [set]

theorem set_progress_ne (pass : NodePass σ) {index i : Nat} (h : i ≠ index) (w : Progress σ)
    (s : σ) : (pass.set index w s).progress i = pass.progress i := by
  simp [set, h]

theorem set_self (pass : NodePass σ) (index : Nat) :
    pass.set index (pass.progress index) pass.state = pass := by
  cases pass
  simp only [set, mk.injEq, and_true]
  funext i
  split
  · next h => rw [h]
  · rfl

@[simp] theorem set_set (pass : NodePass σ) (index : Nat) (v w : Progress σ) (s u : σ) :
    (pass.set index v s).set index w u = pass.set index w u := by
  simp only [set, mk.injEq, and_true]
  funext i
  split <;> rfl

end NodePass

/-- How a run walks the trees: one after another, or all at once in the order of a schedule. -/
inductive Mode where
  | sequential
  | parallel (schedule : List Nat)

namespace Runner

variable {σ : Type}

/-- The next step of one walk: it begins, unless the run was asked to stop, or makes a call. -/
def advance (r : Runner σ) (p : Program) (index : Nat) (t : SyntaxTree) :
    Progress σ → σ → Progress σ × σ
  | .waiting, s =>
      if r.stopped s then (.leftOut, s) else (.walking (r.visits r.subscriptions t) {}, s)
  | .walking (v :: rest) brought, s =>
      let (y, s) := call p index t v s
      (.walking rest (brought.append y), s)
  | w, s => (w, s)

def stepPass (r : Runner σ) (p : Program) (pass : NodePass σ) (index : Nat) : NodePass σ :=
  match p.trees[index]? with
  | none => pass
  | some t =>
      let (w, s) := r.advance p index t (pass.progress index) pass.state
      pass.set index w s

def passUnder (r : Runner σ) (p : Program) (schedule : List Nat) (pass : NodePass σ) :
    NodePass σ :=
  schedule.foldl (r.stepPass p) pass

/-- What the walks brought in, in the order of the trees. -/
def broughtIn (p : Program) (pass : NodePass σ) : List (Option Yield) :=
  (List.range p.trees.length).map fun i => (pass.progress i).brought?

def runIn (r : Runner σ) (p : Program) : Mode → σ → AnalysisResult × σ
  | .sequential, s => r.run p s
  | .parallel schedule, s =>
      let pass := r.passUnder p schedule (.start s)
      r.settle p (broughtIn p pass) pass.state

/-- Every walk is over when the schedule ends, as it is when the trees' yields are collected. -/
def Finishes (r : Runner σ) (p : Program) : Mode → σ → Prop
  | .sequential, _ => True
  | .parallel schedule, s =>
      ∀ i < p.trees.length, ((r.passUnder p schedule (.start s)).progress i).isDone = true

theorem stepPass_of_tree {r : Runner σ} {p : Program} {index : Nat} {t : SyntaxTree}
    (ht : p.trees[index]? = some t) (pass : NodePass σ) :
    r.stepPass p pass index =
      pass.set index (r.advance p index t (pass.progress index) pass.state).1
        (r.advance p index t (pass.progress index) pass.state).2 := by
  simp [stepPass, ht]

theorem passUnder_append (r : Runner σ) (p : Program) (first second : List Nat)
    (pass : NodePass σ) :
    r.passUnder p (first ++ second) pass = r.passUnder p second (r.passUnder p first pass) :=
  List.foldl_append

private theorem advance_of_done (r : Runner σ) (p : Program) (index : Nat) (t : SyntaxTree)
    {w : Progress σ} (h : w.isDone = true) (s : σ) : r.advance p index t w s = (w, s) := by
  cases w with
  | waiting => cases h
  | leftOut => rfl
  | walking rest brought =>
      rw [Progress.isDone, List.isEmpty_iff] at h
      subst h
      rfl

private theorem passUnder_of_done (r : Runner σ) (p : Program) {index : Nat} {t : SyntaxTree}
    (ht : p.trees[index]? = some t) (n : Nat) (pass : NodePass σ) {w : Progress σ}
    (h : w.isDone = true) (s : σ) :
    r.passUnder p (List.replicate n index) (pass.set index w s) = pass.set index w s := by
  induction n with
  | zero => rfl
  | succ n ih =>
      have stays : r.stepPass p (pass.set index w s) index = pass.set index w s := by
        simp [stepPass_of_tree ht, advance_of_done r p index t h]
      rw [List.replicate_succ, passUnder, List.foldl_cons, stays]
      exact ih

private theorem passUnder_walking (r : Runner σ) (p : Program) {index : Nat} {t : SyntaxTree}
    (ht : p.trees[index]? = some t) (rest : List (Visit σ)) (pass : NodePass σ) (brought : Yield)
    (s : σ) :
    r.passUnder p (List.replicate rest.length index) (pass.set index (.walking rest brought) s) =
      pass.set index (.walking [] (brought.append (walk p index t rest s).1))
        (walk p index t rest s).2 := by
  induction rest generalizing brought s with
  | nil => simp [passUnder, walk]
  | cons v rest ih =>
      have step : r.stepPass p (pass.set index (.walking (v :: rest) brought) s) index =
          pass.set index (.walking rest (brought.append (call p index t v s).1))
            (call p index t v s).2 := by
        simp [stepPass_of_tree ht, advance]
      rw [List.length_cons, List.replicate_succ, passUnder, List.foldl_cons, step]
      rw [← passUnder, ih, Yield.append_assoc]
      rfl

/-- A walk that is not disturbed makes its calls as the sequential walk does. -/
theorem passUnder_alone (r : Runner σ) (p : Program) {index : Nat} {t : SyntaxTree}
    (ht : p.trees[index]? = some t) (pass : NodePass σ)
    (waits : pass.progress index = .waiting) :
    r.passUnder p (List.replicate ((r.visits r.subscriptions t).length + 1) index) pass =
      if r.stopped pass.state then pass.set index .leftOut pass.state
      else
        pass.set index (.walking [] (walk p index t (r.visits r.subscriptions t) pass.state).1)
          (walk p index t (r.visits r.subscriptions t) pass.state).2 := by
  rw [List.replicate_succ, passUnder, List.foldl_cons, stepPass_of_tree ht, waits, ← passUnder]
  by_cases stop : r.stopped pass.state = true
  · simp only [advance, stop, ite_true]
    exact passUnder_of_done r p ht _ pass rfl pass.state
  · simp only [advance, stop, Bool.false_eq_true, ite_false]
    rw [passUnder_walking r p ht, Yield.empty_append]

/-- The schedule that ends one walk before it begins the next. -/
def treeByTree (r : Runner σ) (ts : List (SyntaxTree × Nat)) : List Nat :=
  ts.flatMap fun t => List.replicate ((r.visits r.subscriptions t.1).length + 1) t.2

/-- The turns of the walks in a run. -/
def scheduleOf (r : Runner σ) (p : Program) : Mode → List Nat
  | .sequential => r.treeByTree p.trees.zipIdx
  | .parallel schedule => schedule

/-- The sequential pass over the trees from some position on is the pass tree by tree. -/
private theorem passUnder_treeByTree (r : Runner σ) (p : Program) (before ts : List SyntaxTree)
    (split : p.trees = before ++ ts) (pass : NodePass σ)
    (waits : ∀ i, before.length ≤ i → pass.progress i = .waiting) :
    let last := r.passUnder p (r.treeByTree (ts.zipIdx before.length)) pass
    last.state = (r.nodePass p r.subscriptions (ts.zipIdx before.length) pass.state).2 ∧
      (List.range' before.length ts.length).map (fun i => (last.progress i).brought?) =
        (r.nodePass p r.subscriptions (ts.zipIdx before.length) pass.state).1 ∧
      (∀ i < before.length, last.progress i = pass.progress i) ∧
      ∀ i, before.length ≤ i → i < before.length + ts.length →
        (last.progress i).isDone = true := by
  induction ts generalizing before pass with
  | nil =>
      refine ⟨rfl, rfl, fun i _ => rfl, ?_⟩
      intro i low high
      rw [List.length_nil] at high
      omega
  | cons t ts ih =>
      have ht : p.trees[before.length]? = some t := by simp [split]
      have alone := passUnder_alone r p ht pass (waits _ (Nat.le_refl _))
      generalize hv : r.passUnder p
        (List.replicate ((r.visits r.subscriptions t).length + 1) before.length) pass = next
        at alone
      have others : ∀ i, i ≠ before.length → next.progress i = pass.progress i := by
        intro i hi
        rw [alone]
        split <;> exact pass.set_progress_ne hi _ _
      have rest := ih (before ++ [t]) (by simp [split]) next (by
        intro i hi
        rw [List.length_append, List.length_singleton] at hi
        rw [others i (by omega)]
        exact waits i (by omega))
      rw [List.length_append, List.length_singleton] at rest
      obtain ⟨state, brought, kept, done⟩ := rest
      have unfolded : r.passUnder p (r.treeByTree ((t :: ts).zipIdx before.length)) pass =
          r.passUnder p (r.treeByTree (ts.zipIdx (before.length + 1))) next := by
        rw [← hv, ← passUnder_append]
        rfl
      have first := kept before.length (Nat.lt_succ_self _)
      simp only [unfolded]
      refine ⟨?_, ?_, ?_, ?_⟩
      · rw [state, List.zipIdx_cons, nodePass, alone]
        split <;> rfl
      · rw [List.length_cons, List.range'_succ, List.map_cons, brought, first,
          List.zipIdx_cons, nodePass, alone]
        split <;> simp [Progress.brought?]
      · intro i hi
        rw [kept i (Nat.lt_succ_of_lt hi), others i (by omega)]
      · intro i low high
        rw [List.length_cons] at high
        by_cases hi : i = before.length
        · rw [hi, first, alone]
          split <;> simp [Progress.isDone]
        · exact done i (by omega) (by omega)

/-- Tree by tree is a schedule that finishes, and its run is the sequential one. -/
theorem run_eq_treeByTree (r : Runner σ) (p : Program) (s : σ) :
    r.Finishes p (.parallel (r.treeByTree p.trees.zipIdx)) s ∧
      r.runIn p (.parallel (r.treeByTree p.trees.zipIdx)) s = r.run p s := by
  obtain ⟨state, brought, -, done⟩ :=
    passUnder_treeByTree r p [] p.trees rfl (.start s) fun _ _ => rfl
  refine ⟨?_, ?_⟩
  · intro i hi
    exact done i (Nat.zero_le i) (by simpa using hi)
  · simp only [List.length_nil] at state brought
    rw [← List.range_eq_range'] at brought
    simp only [runIn, run, broughtIn, state, brought]
    rfl

end Runner
end Antipattern
