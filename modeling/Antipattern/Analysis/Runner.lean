import Antipattern.Analysis.Detector
import Antipattern.Analysis.Suppression
import Antipattern.Order.Lexicographic
import Antipattern.Rule.Builtin

/-!
A run of detectors over a program. First every tree is walked in document order and each node is
shown to the detectors that asked for its kind; then every detector completes once. A breakdown
of a detector becomes a fault and disturbs nothing else. The findings are put in order at the
end, so the order of the walks does not show in them.
-/

namespace Antipattern

/-- Node kinds, each with the positions of the detectors that asked for it. -/
abbrev Subscriptions : Type :=
  List (NodeKind × List Nat)

namespace Subscriptions

/-- Enters a detector under a kind, behind those entered before; a second time changes nothing. -/
def enter (kind : NodeKind) (index : Nat) : Subscriptions → Subscriptions
  | [] => [(kind, [index])]
  | (k, indices) :: rest =>
      if kind = k then (k, if indices.contains index then indices else indices ++ [index]) :: rest
      else (k, indices) :: enter kind index rest

/-- Enters a detector under each kind that it lists. -/
def enterAll (kinds : List NodeKind) (index : Nat) (table : Subscriptions) : Subscriptions :=
  kinds.foldl (fun table kind => enter kind index table) table

def subscribers (table : Subscriptions) (kind : NodeKind) : List Nat :=
  (List.lookup kind table).getD []

end Subscriptions

structure Runner (σ : Type) where
  detectors : List (Detector σ) := []
  /-- Show generated code to every detector. -/
  includeGenerated : Bool := false
  severityOverrides : List (String × Severity) := []
  /-- Whether the state asks the run to stop; looked at before each tree and before completion. -/
  stopped : σ → Bool

/-- One call of a detector on a node of some tree. -/
structure Visit (σ : Type) where
  index : Nat
  detector : Detector σ
  node : SyntaxNode

/-- A finding with what decides its place among the others. -/
structure Tagged where
  tree : Nat
  detector : Nat
  finding : Finding
deriving DecidableEq, Inhabited

namespace Tagged

/-- Located findings go by tree, line, column and detector. -/
def key (t : Tagged) : List Nat :=
  [t.tree, t.finding.location.line?.getD 0, t.finding.location.column?.getD 0, t.detector]

/-- Located findings first, then those about the program by detector; ties keep their order. -/
def inOrder (ts : List Tagged) : List Finding :=
  let located := (ts.filter fun t => !t.finding.location.isNone).mergeSort fun a b =>
    lexLE Nat.blt a.key b.key
  let general := (ts.filter fun t => t.finding.location.isNone).mergeSort fun a b =>
    Nat.ble a.detector b.detector
  (located ++ general).map (·.finding)

end Tagged

/-- What calls bring in: findings and faults, each in the order of the calls. -/
structure Yield where
  findings : List Tagged := []
  faults : List Fault := []
deriving DecidableEq, Inhabited

namespace Yield

def append (a b : Yield) : Yield :=
  ⟨a.findings ++ b.findings, a.faults ++ b.faults⟩

/-- The yield of one call by detector `index`, in a tree or, with no file, at completion. -/
def ofVerdict (index : Nat) (ruleId : String) (file : Option String) (tree : Finding → Nat) :
    Verdict → Yield
  | .nothing => {}
  | .finding f => { findings := [⟨tree f, index, f⟩] }
  | .breakdown message => { faults := [⟨ruleId, file, message⟩] }

end Yield

namespace SyntaxNode

/-- Children below a node, each with the mark that it or something above it is generated. -/
def flagged (generated : Bool) (children : List SyntaxNode) : List (SyntaxNode × Bool) :=
  children.map fun c => (c, generated || c.generated)

@[simp] theorem map_fst_flagged (generated : Bool) (children : List SyntaxNode) :
    (flagged generated children).map (·.1) = children := by
  simp [flagged, Function.comp_def]

/-- Visits the nodes on a stack in document order and carries the generated mark down. -/
def visitFlagged : List (SyntaxNode × Bool) → List (SyntaxNode × Bool)
  | [] => []
  | (n, generated) :: rest =>
      (n, generated) :: visitFlagged (flagged generated n.children ++ rest)
termination_by stack => forestSize (stack.map (·.1))
decreasing_by simp [forestSize]

end SyntaxNode

/-- The nodes of a tree in document order, each with whether it counts as generated. -/
def SyntaxTree.flaggedNodes (t : SyntaxTree) : List (SyntaxNode × Bool) :=
  SyntaxNode.visitFlagged [(t.root, t.generated || t.root.generated)]

namespace Runner

variable {σ : Type}

/-- The detectors by the kinds they asked for, in the order in which they were registered. -/
def subscriptions (r : Runner σ) : Subscriptions :=
  r.detectors.zipIdx.foldl (fun table d => Subscriptions.enterAll d.1.kinds d.2 table) []

/-- Whether a detector is left out at a node because of generated code. -/
def passesOver (r : Runner σ) (d : Detector σ) (generated : Bool) : Bool :=
  generated && !r.includeGenerated && !d.analyzesGenerated

/-- The calls on one node, in the order of the subscribers of its kind. -/
def visitsAt (r : Runner σ) (table : Subscriptions) (n : SyntaxNode) (generated : Bool) :
    List (Visit σ) :=
  (table.subscribers n.kind).filterMap fun index =>
    r.detectors[index]?.bind fun d =>
      if r.passesOver d generated then none else some ⟨index, d, n⟩

/-- All calls of the walk over a tree. Without subscriptions the tree is not looked at. -/
def visits (r : Runner σ) (table : Subscriptions) (t : SyntaxTree) : List (Visit σ) :=
  if table.isEmpty then []
  else t.flaggedNodes.flatMap fun (n, generated) => r.visitsAt table n generated

/-- Makes one call. -/
def call (p : Program) (index : Nat) (t : SyntaxTree) (v : Visit σ) (s : σ) : Yield × σ :=
  let (verdict, s) := v.detector.check ⟨index, t, v.node, p.symbols⟩ s
  (.ofVerdict v.index v.detector.rule.id (some t.path) (fun _ => index) verdict, s)

/-- Makes the calls of a walk one after another. -/
def walk (p : Program) (index : Nat) (t : SyntaxTree) : List (Visit σ) → σ → Yield × σ
  | [], s => ({}, s)
  | v :: vs, s =>
      let (y, s) := call p index t v s
      let (ys, s) := walk p index t vs s
      (y.append ys, s)

/-- Walks the trees; a tree that comes up after the run was asked to stop is left out. -/
def nodePass (r : Runner σ) (p : Program) (table : Subscriptions) :
    List (SyntaxTree × Nat) → σ → List (Option Yield) × σ
  | [], s => ([], s)
  | (t, index) :: rest, s =>
      if r.stopped s then
        let (ys, s) := r.nodePass p table rest s
        (none :: ys, s)
      else
        let (y, s) := walk p index t (r.visits table t) s
        let (ys, s) := r.nodePass p table rest s
        (some y :: ys, s)

/-- Lets the detectors complete one after another. A finding at completion takes the position of
the last tree with its path, and stands behind all trees if there is none. -/
def completePass (p : Program) : List (Detector σ × Nat) → σ → Yield × σ
  | [], s => ({}, s)
  | (d, index) :: rest, s =>
      let (verdict, s) := d.complete p s
      let tree (f : Finding) : Nat := (f.location.file?.bind p.lastIndexOf?).getD p.trees.length
      let y := Yield.ofVerdict index d.rule.id none tree verdict
      let (ys, s) := completePass p rest s
      (y.append ys, s)

/-- The severity that the overrides give a finding. -/
def withOverride (r : Runner σ) (f : Finding) : Finding :=
  match r.severityOverrides.lookup f.ruleId with
  | some severity => { f with severity }
  | none => f

/-- The result of a run from what its passes brought in. -/
def conclude (r : Runner σ) (p : Program) (walked : List (Option Yield)) (completed : Option Yield) :
    AnalysisResult :=
  let brought := (walked.filterMap id ++ completed.toList).foldl Yield.append {}
  let findings := (Tagged.inOrder brought.findings).map r.withOverride
  let (findings, suppressed) := Suppression.split p.trees findings
  { findings, suppressed
    faults := brought.faults
    filesAnalyzed := walked.countP Option.isSome
    cancelled := completed.isNone }

/-- What follows the node pass: the detectors complete unless the run was asked to stop. -/
def settle (r : Runner σ) (p : Program) (walked : List (Option Yield)) (s : σ) :
    AnalysisResult × σ :=
  if r.stopped s then (r.conclude p walked none, s)
  else
    let (completed, s) := completePass p r.detectors.zipIdx s
    (r.conclude p walked (some completed), s)

def run (r : Runner σ) (p : Program) (s : σ) : AnalysisResult × σ :=
  let (walked, s) := r.nodePass p r.subscriptions p.trees.zipIdx s
  r.settle p walked s

/-- The runner that settings describe. -/
def ofSettings (s : Settings) : Runner RunState where
  detectors := Rule.detectors s
  includeGenerated := s.includeGenerated
  severityOverrides := s.severityOverrides
  stopped := RunState.cancelled

end Runner
end Antipattern
