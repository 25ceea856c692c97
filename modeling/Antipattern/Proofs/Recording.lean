import Antipattern.Proofs.CallTrace

/-!
Detectors that write down their own calls. A recording detector answers as the detector inside it
and adds each call, with its answer, to a log behind the state. Recording changes nothing about a
run, so the log says which calls the run makes, and in which order.
-/

namespace Antipattern

/-- A call of a detector, with all that the detector is given. -/
inductive Call where
  | check (detector : Nat) (context : NodeContext)
  | complete (detector : Nat) (program : Program)

namespace Call

def detector : Call → Nat
  | check detector _ => detector
  | complete detector _ => detector

def tree? : Call → Option Nat
  | check _ context => some context.treeIndex
  | complete _ _ => none

def file? : Call → Option String
  | check _ context => some context.tree.path
  | complete _ _ => none

/-- The tree that a finding of the call is put under. A finding at completion goes by the last
tree with its path, and behind all trees if there is none. -/
def treeOf (p : Program) (f : Finding) : Call → Nat
  | check _ context => context.treeIndex
  | complete _ _ => (f.location.file?.bind p.lastIndexOf?).getD p.trees.length

end Call

structure Entry where
  call : Call
  verdict : Verdict

namespace Entry

variable {σ : Type}

def finding? (p : Program) (e : Entry) : Option Tagged :=
  match e.verdict with
  | .finding f => some ⟨e.call.treeOf p f, e.call.detector, f⟩
  | _ => none

def fault? (r : Runner σ) (e : Entry) : Option Fault :=
  match e.verdict with
  | .breakdown message =>
      r.detectors[e.call.detector]?.map fun d => ⟨d.rule.id, e.call.file?, message⟩
  | _ => none

def inTree (index : Nat) (log : List Entry) : List Entry :=
  log.filter fun e => e.call.tree? == some index

def atCompletion (log : List Entry) : List Entry :=
  log.filter fun e => e.call.tree? == none

/-- The log with the trees in their order, and the completions behind them. -/
def byTree (p : Program) (log : List Entry) : List Entry :=
  (List.range p.trees.length).flatMap (fun i => inTree i log) ++ atCompletion log

end Entry

def Detector.recorded {σ : Type} (index : Nat) (d : Detector σ) : Detector (σ × List Entry) where
  rule := d.rule
  kinds := d.kinds
  analyzesGenerated := d.analyzesGenerated
  check := fun c (s, log) =>
    let (verdict, s) := d.check c s
    (verdict, s, log ++ [⟨.check index c, verdict⟩])
  complete := fun p (s, log) =>
    let (verdict, s) := d.complete p s
    (verdict, s, log ++ [⟨.complete index p, verdict⟩])

def Visit.recorded {σ : Type} (v : Visit σ) : Visit (σ × List Entry) :=
  ⟨v.index, v.detector.recorded v.index, v.node⟩

def Progress.recorded {σ : Type} : Progress σ → Progress (σ × List Entry)
  | waiting => waiting
  | leftOut => leftOut
  | walking rest brought => walking (rest.map Visit.recorded) brought

def NodePass.recorded {σ : Type} (pass : NodePass σ) (log : List Entry) :
    NodePass (σ × List Entry) :=
  ⟨fun i => (pass.progress i).recorded, pass.state, log⟩

theorem NodePass.recorded_set {σ : Type} (pass : NodePass σ) (index : Nat) (w : Progress σ) (s : σ)
    (log log' : List Entry) :
    (pass.recorded log).set index w.recorded (s, log') = (pass.set index w s).recorded log' := by
  simp only [set, recorded, mk.injEq, and_true]
  funext i
  split <;> rfl

def MadeCall.entry {σ : Type} (p : Program) (m : MadeCall σ) : Entry :=
  ⟨.check m.visit.index (m.context p), m.verdict⟩

namespace Runner

variable {σ : Type}

def recorded (r : Runner σ) : Runner (σ × List Entry) where
  detectors := r.detectors.zipIdx.map fun d => d.1.recorded d.2
  includeGenerated := r.includeGenerated
  severityOverrides := r.severityOverrides
  stopped := fun s => r.stopped s.1

private theorem zipIdx_twice {α : Type} (xs : List α) (n : Nat) :
    (xs.zipIdx n).zipIdx n = (xs.zipIdx n).map fun x => (x, x.2) := by
  induction xs generalizing n with
  | nil => rfl
  | cons x xs ih => simp [ih (n + 1)]

theorem recorded_zipIdx (r : Runner σ) :
    r.recorded.detectors.zipIdx = r.detectors.zipIdx.map fun d => (d.1.recorded d.2, d.2) := by
  simp [recorded, List.zipIdx_map, zipIdx_twice]

theorem recorded_visits (r : Runner σ) (t : SyntaxTree) :
    r.recorded.visits r.recorded.subscriptions t =
      (r.visits r.subscriptions t).map Visit.recorded := by
  simp only [visits_subscriptions, visitsAt_subscriptions, recorded_zipIdx, List.map_flatMap,
    List.filter_map, List.map_map]
  rfl

theorem recorded_treeByTree (r : Runner σ) (ts : List (SyntaxTree × Nat)) :
    r.recorded.treeByTree ts = r.treeByTree ts := by
  simp only [treeByTree, recorded_visits, List.length_map]

theorem recorded_step (r : Runner σ) (p : Program) (pass : NodePass σ) (log : List Entry)
    (index : Nat) :
    r.recorded.stepPass p (pass.recorded log) index =
      (r.stepPass p pass index).recorded
        (log ++ (callAt p pass index).map (MadeCall.entry p)) := by
  cases ht : p.trees[index]? with
  | none => simp [stepPass, callAt, ht]
  | some t =>
      rw [stepPass_of_tree ht, stepPass_of_tree ht, ← NodePass.recorded_set pass index _ _ log]
      have shape : (pass.recorded log).progress index = (pass.progress index).recorded := rfl
      have state : (pass.recorded log).state = (pass.state, log) := rfl
      rw [shape, state]
      cases hw : pass.progress index with
      | waiting =>
          simp only [callAt, ht, hw, Progress.recorded, advance, List.map_nil, List.append_nil]
          have stops : r.recorded.stopped (pass.state, log) = r.stopped pass.state := rfl
          rw [stops, recorded_visits]
          cases r.stopped pass.state <;> rfl
      | leftOut => simp [callAt, ht, hw, Progress.recorded, advance]
      | walking rest brought =>
          cases rest with
          | nil => simp [callAt, ht, hw, Progress.recorded, advance]
          | cons v rest =>
              simp only [callAt, ht, hw, Progress.recorded, advance, List.map_cons, List.map_nil]
              rfl

theorem recorded_pass (r : Runner σ) (p : Program) (schedule : List Nat) (pass : NodePass σ)
    (log : List Entry) :
    r.recorded.passUnder p schedule (pass.recorded log) =
      (r.passUnder p schedule pass).recorded
        (log ++ (r.callsUnder p schedule pass).map (MadeCall.entry p)) := by
  induction schedule generalizing pass log with
  | nil => simp [passUnder, callsUnder]
  | cons index schedule ih =>
      rw [passUnder, List.foldl_cons, recorded_step, ← passUnder, ih, callsUnder, List.map_append,
        ← List.append_assoc]
      rfl

/-- The entries that the detectors make when they complete one after another. -/
def completions (p : Program) : List (Detector σ × Nat) → σ → List Entry
  | [], _ => []
  | (d, index) :: rest, s =>
      ⟨.complete index p, (d.complete p s).1⟩ :: completions p rest (d.complete p s).2

theorem recorded_completePass (p : Program) (ds : List (Detector σ × Nat)) (s : σ)
    (log : List Entry) :
    completePass p (ds.map fun d => (d.1.recorded d.2, d.2)) (s, log) =
      ((completePass p ds s).1, (completePass p ds s).2, log ++ completions p ds s) := by
  induction ds generalizing s log with
  | nil => simp [completePass, completions]
  | cons d ds ih =>
      have answer : (d.1.recorded d.2).complete p (s, log) = ((d.1.complete p s).1,
          (d.1.complete p s).2, log ++ [⟨.complete d.2 p, (d.1.complete p s).1⟩]) := rfl
      simp only [List.map_cons, completePass, completions, answer, ih, List.append_assoc,
        List.singleton_append]
      rfl

def completionsAfter (r : Runner σ) (p : Program) (s : σ) : List Entry :=
  if r.stopped s then [] else completions p r.detectors.zipIdx s

/-- The log of a run: the calls of its schedule, then the completions if it was not stopped. -/
def logUnder (r : Runner σ) (p : Program) (schedule : List Nat) (s : σ) : List Entry :=
  (r.callsUnder p schedule (.start s)).map (MadeCall.entry p) ++
    r.completionsAfter p (r.passUnder p schedule (.start s)).state

theorem recorded_settle (r : Runner σ) (p : Program) (pass : NodePass σ) (log : List Entry) :
    r.recorded.settle p (broughtIn p (pass.recorded log)) (pass.state, log) =
      ((r.settle p (broughtIn p pass) pass.state).1, (r.settle p (broughtIn p pass) pass.state).2,
        log ++ r.completionsAfter p pass.state) := by
  have brought : broughtIn p (pass.recorded log) = broughtIn p pass := by
    unfold broughtIn
    congr 1
    funext i
    simp only [NodePass.recorded]
    cases pass.progress i <;> rfl
  have stops : r.recorded.stopped (pass.state, log) = r.stopped pass.state := rfl
  simp only [brought, settle, completionsAfter, recorded_zipIdx, recorded_completePass]
  rw [stops]
  cases r.stopped pass.state with
  | true => simp; rfl
  | false => rfl

theorem recorded_runUnder (r : Runner σ) (p : Program) (schedule : List Nat) (s : σ) :
    r.recorded.runIn p (.parallel schedule) (s, []) =
      ((r.runIn p (.parallel schedule) s).1, (r.runIn p (.parallel schedule) s).2,
        r.logUnder p schedule s) := by
  have start : NodePass.start (s, ([] : List Entry)) = (NodePass.start s).recorded [] := rfl
  simp only [runIn, start, recorded_pass, List.nil_append, logUnder]
  exact recorded_settle r p _ _

/-- Whatever the mode, a finished run is the run of a finished schedule, recorded or not. -/
theorem runIn_scheduleOf (r : Runner σ) (p : Program) (s : σ) (mode : Mode)
    (finishes : r.Finishes p mode s) :
    r.Finishes p (.parallel (r.scheduleOf p mode)) s ∧
      r.runIn p mode s = r.runIn p (.parallel (r.scheduleOf p mode)) s ∧
      r.recorded.runIn p mode (s, []) =
        ((r.runIn p mode s).1, (r.runIn p mode s).2, r.logUnder p (r.scheduleOf p mode) s) := by
  cases mode with
  | sequential =>
      obtain ⟨done, same⟩ := r.run_eq_treeByTree p s
      have recording := (r.recorded.run_eq_treeByTree p (s, [])).2
      rw [recorded_treeByTree, recorded_runUnder, same] at recording
      exact ⟨done, same.symm, recording.symm⟩
  | parallel schedule => exact ⟨finishes, rfl, recorded_runUnder r p schedule s⟩

end Runner
end Antipattern
