import Antipattern.Proofs.BuiltinRuns

/-!
What the rules on parameters, names and sizes report. Which nodes violate them is said without any
detector, and an uncancelled run reports or suppresses one finding for each violation and no other,
apart from the finding on the program's size and the endpoint rule's own.
-/

namespace Antipattern

namespace SyntaxNode

/-- Line breaks in the trivia of the node and of all nodes below it. -/
def lineBreaks (n : SyntaxNode) : Nat :=
  totalOf (fun m => m.ownTrivia.countP Trivia.isEndOfLine) n.preorder

theorem endOfLineCount_eq (n : SyntaxNode) : n.endOfLineCount = n.lineBreaks := by
  rw [endOfLineCount, descendantTrivia, descendants_eq, lineBreaks]
  induction n.preorder with
  | nil => rfl
  | cons m ms ih => rw [List.flatMap_cons, List.countP_append, ih, totalOf]

end SyntaxNode

theorem Program.endOfLineCount_eq (p : Program) :
    p.endOfLineCount = totalOf (·.root.lineBreaks) p.trees := by
  rw [endOfLineCount]
  induction p.trees with
  | nil => rfl
  | cons t trees ih =>
      rw [List.foldr_cons, ih, SyntaxTree.endOfLineCount, SyntaxNode.endOfLineCount_eq, totalOf]

namespace Rule

/-- The character is one of those from the first to the last, by code point. -/
def Within (first last c : Char) : Prop :=
  first.toNat ≤ c.toNat ∧ c.toNat ≤ last.toNat

theorem within_iff (first last c : Char) :
    decide (c.val ≥ first.val ∧ c.val ≤ last.val) = true ↔ Within first last c := by
  rw [decide_eq_true_iff, ge_iff_le, UInt32.le_iff_toNat_le, UInt32.le_iff_toNat_le]
  rfl

theorem isDigit_iff (c : Char) : c.isDigit = true ↔ Within '0' '9' c := by
  rw [← within_iff, Bool.decide_and]
  rfl

theorem endsWord_iff (c : Char) :
    endsWord c = true ↔ Within 'a' 'z' c ∨ Within '0' '9' c := by
  rw [endsWord, Bool.or_eq_true, isDigit_iff, ← within_iff 'a', Bool.decide_and]
  rfl

theorem startsWord_iff (c : Char) :
    startsWord c = true ↔ Within 'A' 'Z' c ∨ Within '0' '9' c := by
  rw [startsWord, Bool.or_eq_true, isDigit_iff, ← within_iff 'A']
  rfl

/-- `Or` or `And` stands between the end of one word and the start of another. -/
def JoinsWords (name : String) : Prop :=
  ∃ before c word d after, name.toList = before ++ c :: (word ++ d :: after) ∧
    word ∈ ["Or".toList, "And".toList] ∧ (Within 'a' 'z' c ∨ Within '0' '9' c) ∧
    (Within 'A' 'Z' d ∨ Within '0' '9' d)

theorem startsWithJoint_iff (cs : List Char) :
    startsWithJoint cs = true ↔
      ∃ c word d after, cs = c :: (word ++ d :: after) ∧ word ∈ ["Or".toList, "And".toList] ∧
        endsWord c = true ∧ startsWord d = true := by
  constructor
  · intro joint
    unfold startsWithJoint at joint
    split at joint
    · next c d after =>
        obtain ⟨ends, starts⟩ := Bool.and_eq_true_iff.mp joint
        exact ⟨c, "Or".toList, d, after, rfl, List.mem_cons_self, ends, starts⟩
    · next c d after =>
        obtain ⟨ends, starts⟩ := Bool.and_eq_true_iff.mp joint
        exact ⟨c, "And".toList, d, after, rfl, List.mem_cons_of_mem _ List.mem_cons_self, ends,
          starts⟩
    · cases joint
  · rintro ⟨c, word, d, after, rfl, joining, ends, starts⟩
    simp only [List.mem_cons, List.not_mem_nil, or_false] at joining
    rcases joining with rfl | rfl
    all_goals exact Bool.and_eq_true_iff.mpr ⟨ends, starts⟩

theorem hasJoint_iff (cs : List Char) :
    hasJoint cs = true ↔ ∃ before rest, cs = before ++ rest ∧ startsWithJoint rest = true := by
  induction cs with
  | nil =>
      constructor
      · intro joint
        cases joint
      · rintro ⟨before, rest, split, joint⟩
        obtain ⟨-, rfl⟩ := List.append_eq_nil_iff.mp split.symm
        cases joint
  | cons c cs ih =>
      rw [hasJoint, Bool.or_eq_true, ih]
      constructor
      · rintro (joint | ⟨before, rest, rfl, joint⟩)
        · exact ⟨[], c :: cs, rfl, joint⟩
        · exact ⟨c :: before, rest, rfl, joint⟩
      · rintro ⟨before, rest, split, joint⟩
        cases before with
        | nil =>
            rw [List.nil_append] at split
            exact .inl (split ▸ joint)
        | cons b before =>
            rw [List.cons_append, List.cons.injEq] at split
            exact .inr ⟨before, rest, split.2, joint⟩

theorem joinsConcepts_iff (name : String) : joinsConcepts name = true ↔ JoinsWords name := by
  rw [joinsConcepts, hasJoint_iff]
  simp only [startsWithJoint_iff, endsWord_iff, startsWord_iff]
  constructor
  · rintro ⟨before, _, split, c, word, d, after, rfl, joint⟩
    exact ⟨before, c, word, d, after, split, joint⟩
  · rintro ⟨before, c, word, d, after, split, joint⟩
    exact ⟨before, _, split, c, word, d, after, rfl, joint⟩

end Rule

/-- The rules that look at single nodes and report them. -/
inductive NodeRule where
  | parameters
  | joinedName
  | methodLines
  | classLines
deriving DecidableEq

namespace NodeRule

def all : List NodeRule :=
  [parameters, joinedName, methodLines, classLines]

def descriptor : NodeRule → Descriptor
  | parameters => Rule.complexity
  | joinedName => Rule.naming
  | methodLines => Rule.methodSize
  | classLines => Rule.classSize

/-- A node violates a rule, with the arguments of the rule's message. -/
inductive Violated (cfg : Settings) (t : SyntaxTree) (path : List Nat) (n : SyntaxNode) :
    NodeRule → List String → Prop
  | parameters {before after : List SyntaxNode} {list : SyntaxNode} {count : Nat} :
      n.kind = .constructorDeclaration → n.children = before ++ list :: after →
      list.kind = .parameterList → (∀ c ∈ before, c.kind ≠ .parameterList) →
      list.children.countP (·.kind == .parameter) = count →
      cfg.thresholds.maxConstructorParameters < count →
      Violated cfg t path n .parameters
        [toString count, toString cfg.thresholds.maxConstructorParameters]
  | joinedName {name : String} :
      n.kind ∈ [.methodDeclaration, .classDeclaration, .interfaceDeclaration] →
      n.name = some name → Rule.JoinsWords name → Violated cfg t path n .joinedName [name]
  | methodLines :
      n.kind = .methodDeclaration → (t.GeneratedAt path → cfg.includeGenerated = true) →
      cfg.thresholds.maxMethodLines < n.lineBreaks →
      Violated cfg t path n .methodLines
        [toString n.lineBreaks, toString cfg.thresholds.maxMethodLines]
  | classLines :
      n.kind = .classDeclaration → cfg.thresholds.maxClassLines < n.lineBreaks →
      Violated cfg t path n .classLines
        [toString n.lineBreaks, toString cfg.thresholds.maxClassLines]

def detector (cfg : Settings) : NodeRule → Detector RunState
  | parameters => Rule.complexityDetector cfg.thresholds.maxConstructorParameters
  | joinedName => Rule.namingDetector
  | methodLines => Rule.methodSizeDetector cfg.thresholds.maxMethodLines
  | classLines => Rule.classSizeDetector cfg.thresholds.maxClassLines

end NodeRule

namespace Rule

section Checks

variable {cfg : Settings} {c : NodeContext} {path : List Nat} {f : Finding}

theorem parameterCount?_eq_some_iff {n : SyntaxNode} {count : Nat} :
    n.parameterCount? = some count ↔
      ∃ before list after, n.children = before ++ list :: after ∧ list.kind = .parameterList ∧
        (∀ c ∈ before, c.kind ≠ .parameterList) ∧
        list.children.countP (·.kind == .parameter) = count := by
  simp only [SyntaxNode.parameterCount?, SyntaxNode.child?, SyntaxNode.childrenOfKind,
    Option.map_eq_some_iff, List.find?_eq_some_iff_append, ← List.countP_eq_length_filter,
    beq_iff_eq, Bool.not_eq_true', beq_eq_false_iff_ne]
  constructor
  · rintro ⟨list, ⟨kind, before, after, split, first⟩, counted⟩
    exact ⟨before, list, after, split, kind, first, counted⟩
  · rintro ⟨before, list, after, split, kind, first, counted⟩
    exact ⟨list, ⟨kind, before, after, split, first⟩, counted⟩

theorem checkComplexity_eq_some_iff :
    checkComplexity cfg.thresholds.maxConstructorParameters c = some f ↔
      ∃ arguments, NodeRule.Violated cfg c.tree path c.node .parameters arguments ∧
        f = complexity.finding c.location arguments := by
  simp only [checkComplexity, Option.ite_none_right_eq_some, Option.bind_eq_some_iff,
    parameterCount?_eq_some_iff, Option.some.injEq]
  constructor
  · rintro ⟨kind, count, ⟨before, list, after, split, isList, first, counted⟩, many, rfl⟩
    exact ⟨_, .parameters kind split isList first counted many, rfl⟩
  · rintro ⟨_, violated, rfl⟩
    cases violated with
    | parameters kind split isList first counted many =>
        exact ⟨kind, _, ⟨_, _, _, split, isList, first, counted⟩, many, rfl⟩

theorem checkNaming_eq_some_iff :
    checkNaming c = some f ↔
      ∃ arguments, NodeRule.Violated cfg c.tree path c.node .joinedName arguments ∧
        f = naming.finding c.location arguments := by
  have named (kind : c.node.kind ∈ namingKinds) : c.node.identifier? = c.node.name := by
    simp only [namingKinds, List.mem_cons, List.not_mem_nil, or_false] at kind
    rcases kind with kind | kind | kind <;> rw [SyntaxNode.identifier?, kind]
  simp only [checkNaming, Option.ite_none_right_eq_some, Option.bind_eq_some_iff,
    List.contains_iff_mem, joinsConcepts_iff, Option.some.injEq]
  constructor
  · rintro ⟨kind, name, declared, joins, rfl⟩
    exact ⟨_, .joinedName kind (named kind ▸ declared) joins, rfl⟩
  · rintro ⟨_, violated, rfl⟩
    cases violated with
    | joinedName kind declared joins => exact ⟨kind, _, named kind ▸ declared, joins, rfl⟩

theorem checkSize_eq_some_iff {rule : Descriptor} {kind : NodeKind} {most : Nat} :
    checkSize rule kind most c = some f ↔
      c.node.kind = kind ∧ most < c.node.lineBreaks ∧
        f = rule.finding c.location [toString c.node.lineBreaks, toString most] := by
  simp only [checkSize, Option.ite_none_right_eq_some, SyntaxNode.endOfLineCount_eq,
    Option.some.injEq, eq_comm (a := f)]

end Checks

end Rule

namespace NodeRule

/-- A detector is shown the nodes that violate its rule. -/
theorem Violated.shown {cfg : Settings} {t : SyntaxTree} {path : List Nat} {n : SyntaxNode}
    {rule : NodeRule} {arguments : List String} (h : rule.Violated cfg t path n arguments) :
    n.kind ∈ (rule.detector cfg).kinds ∧
      (t.GeneratedAt path →
        cfg.includeGenerated = true ∨ (rule.detector cfg).analyzesGenerated = true) := by
  cases h with
  | parameters kind => exact ⟨List.mem_singleton.mpr kind, fun _ => .inr rfl⟩
  | joinedName kind => exact ⟨kind, fun _ => .inr rfl⟩
  | methodLines kind included =>
      exact ⟨List.mem_singleton.mpr kind, fun generated => .inl (included generated)⟩
  | classLines kind => exact ⟨List.mem_singleton.mpr kind, fun _ => .inr rfl⟩

theorem check_eq_some_iff {cfg : Settings} {rule : NodeRule} {c : NodeContext} {path : List Nat}
    (shown : c.tree.GeneratedAt path →
      cfg.includeGenerated = true ∨ (rule.detector cfg).analyzesGenerated = true)
    {f : Finding} :
    ((rule.detector cfg).check c {}).1.finding? = some f ↔
      ∃ arguments, rule.Violated cfg c.tree path c.node arguments ∧
        f = rule.descriptor.finding c.location arguments := by
  cases rule with
  | parameters =>
      simp only [detector, Rule.complexityDetector, Verdict.finding?_ofOption]
      exact Rule.checkComplexity_eq_some_iff
  | joinedName =>
      simp only [detector, Rule.namingDetector, Verdict.finding?_ofOption]
      exact Rule.checkNaming_eq_some_iff
  | methodLines =>
      simp only [detector, Rule.methodSizeDetector, Verdict.finding?_ofOption,
        Rule.checkSize_eq_some_iff]
      constructor
      · rintro ⟨kind, long, rfl⟩
        -- the detector leaves generated code out, so only the settings can have shown it
        have included := fun generated => (shown generated).resolve_right nofun
        exact ⟨_, .methodLines kind included long, rfl⟩
      · rintro ⟨_, violated, rfl⟩
        cases violated with
        | methodLines kind _ long => exact ⟨kind, long, rfl⟩
  | classLines =>
      simp only [detector, Rule.classSizeDetector, Verdict.finding?_ofOption,
        Rule.checkSize_eq_some_iff]
      constructor
      · rintro ⟨kind, long, rfl⟩
        exact ⟨_, .classLines kind long, rfl⟩
      · rintro ⟨_, violated, rfl⟩
        cases violated with
        | classLines kind long => exact ⟨kind, long, rfl⟩

/-- A detector finds at a place what violates its rule there. -/
theorem findingAt?_eq_some_iff {cfg : Settings} {p : Program} {t : SyntaxTree × Nat} {x : Place}
    (hx : x ∈ t.1.places) (rule : NodeRule) {f : Finding} :
    Rule.findingAt? cfg p t x (rule.detector cfg) = some f ↔
      ∃ arguments, rule.Violated cfg t.1 x.path x.node arguments ∧
        f = rule.descriptor.finding (NodeContext.location ⟨t.2, t.1, x.node, p.symbols⟩)
          arguments := by
  rw [Rule.findingAt?, Option.ite_none_right_eq_some, Runner.shows_iff,
    SyntaxTree.places_generated_iff hx]
  constructor
  · rintro ⟨⟨-, shown⟩, found⟩
    exact (check_eq_some_iff shown).mp found
  · rintro ⟨arguments, violated, rfl⟩
    have shown := violated.shown
    exact ⟨shown, (check_eq_some_iff shown.2).mpr ⟨arguments, violated, rfl⟩⟩

theorem descriptor_eq (cfg : Settings) (rule : NodeRule) :
    (rule.detector cfg).rule = rule.descriptor := by
  cases rule <;> rfl

end NodeRule

/-- A violation of a rule at a node, with what its finding says. -/
structure Violation where
  index : Nat
  tree : SyntaxTree
  path : List Nat
  node : SyntaxNode
  rule : NodeRule
  arguments : List String

namespace Violation

/-- The finding, at the start of the node in the file of its tree. -/
def finding (x : Violation) : Finding :=
  x.rule.descriptor.finding
    (.source x.tree.path x.node.span.startLine x.node.span.startColumn x.node.span.startByte
      x.node.span.endByte)
    x.arguments

/-- The node is in the program and violates a rule that the settings leave on. -/
structure Stands (cfg : Settings) (p : Program) (x : Violation) : Prop where
  tree : p.trees[x.index]? = some x.tree
  node : x.tree.root.descend? x.path = some x.node
  enabled : cfg.isEnabled x.rule.descriptor.id = true
  violated : x.rule.Violated cfg x.tree x.path x.node x.arguments

/-- Violations at different nodes or of different rules. -/
def Apart (x y : Violation) : Prop :=
  x.index ≠ y.index ∨ x.path ≠ y.path ∨ x.rule ≠ y.rule

theorem Apart.ne {x y : Violation} (h : Apart x y) : x ≠ y := by
  rintro rfl
  rcases h with h | h | h <;> exact h rfl

/-- What a rule's detector finds at a place, as a violation. -/
def at? (cfg : Settings) (p : Program) (t : SyntaxTree × Nat) (x : Place) (rule : NodeRule) :
    Option Violation :=
  (Rule.findingAt? cfg p t x (rule.detector cfg)).map fun f =>
    ⟨t.2, t.1, x.path, x.node, rule, f.arguments⟩

/-- The violations in a program, by tree and in document order. -/
def ofProgram (cfg : Settings) (p : Program) : List Violation :=
  p.trees.zipIdx.flatMap fun t => t.1.places.flatMap fun x =>
    (NodeRule.all.filter fun rule => cfg.isEnabled rule.descriptor.id).filterMap (at? cfg p t x)

variable {cfg : Settings} {p : Program}

theorem at?_eq_some_iff {t : SyntaxTree × Nat} {x : Place} (hx : x ∈ t.1.places) {rule : NodeRule}
    {y : Violation} :
    at? cfg p t x rule = some y ↔
      (y.index = t.2 ∧ y.tree = t.1 ∧ y.path = x.path ∧ y.node = x.node ∧ y.rule = rule) ∧
        y.rule.Violated cfg y.tree y.path y.node y.arguments := by
  simp only [at?, Option.map_eq_some_iff, NodeRule.findingAt?_eq_some_iff hx]
  constructor
  · rintro ⟨_, ⟨arguments, violated, rfl⟩, rfl⟩
    exact ⟨⟨rfl, rfl, rfl, rfl, rfl⟩, violated⟩
  · obtain ⟨index, tree, path, node, own, arguments⟩ := y
    rintro ⟨⟨rfl, rfl, rfl, rfl, rfl⟩, violated⟩
    exact ⟨_, ⟨arguments, violated, rfl⟩, rfl⟩

theorem mem_ofProgram_iff {y : Violation} : y ∈ ofProgram cfg p ↔ y.Stands cfg p := by
  simp only [ofProgram, List.mem_flatMap, List.mem_filterMap, List.mem_filter]
  constructor
  · rintro ⟨t, ht, x, hx, rule, ⟨-, enabled⟩, found⟩
    obtain ⟨⟨index, tree, path, node, rfl⟩, violated⟩ := (at?_eq_some_iff hx).mp found
    have reached := (SyntaxNode.mem_places_iff.mp hx).1
    refine ⟨?_, ?_, enabled, violated⟩
    · rw [index, tree]
      exact List.mem_zipIdx_iff_getElem?.mp ht
    · rwa [tree, path, node]
  · rintro ⟨tree, node, enabled, violated⟩
    obtain ⟨mark, hx⟩ := SyntaxTree.exists_place node
    have listed : y.rule ∈ NodeRule.all := by cases y.rule <;> decide
    exact ⟨(y.tree, y.index), List.mem_zipIdx_iff_getElem?.mpr tree, _, hx, y.rule,
      ⟨listed, enabled⟩, (at?_eq_some_iff hx).mpr ⟨⟨rfl, rfl, rfl, rfl, rfl⟩, violated⟩⟩

theorem ofProgram_apart (cfg : Settings) (p : Program) : (ofProgram cfg p).Pairwise Apart := by
  refine p.pairwise_places index path ?_ (fun _ _ apart => apart.imp_right .inl) ?_
  · intro t x hx a ha
    obtain ⟨_, -, ha⟩ := List.mem_filterMap.mp ha
    obtain ⟨⟨index, -, path, -⟩, -⟩ := (at?_eq_some_iff hx).mp ha
    exact ⟨index, path⟩
  · intro t x hx
    have rules : NodeRule.all.Pairwise (· ≠ ·) := by decide
    apply List.Pairwise.filterMap _ _ (rules.filter _)
    intro r s different a ha b hb
    obtain ⟨⟨-, -, -, -, ruleA⟩, -⟩ := (at?_eq_some_iff hx).mp ha
    obtain ⟨⟨-, -, -, -, ruleB⟩, -⟩ := (at?_eq_some_iff hx).mp hb
    refine .inr (.inr ?_)
    rwa [ruleA, ruleB]

theorem finding_at? {t : SyntaxTree × Nat} {x : Place} (hx : x ∈ t.1.places) (rule : NodeRule) :
    (at? cfg p t x rule).map finding = Rule.findingAt? cfg p t x (rule.detector cfg) := by
  rw [at?, Option.map_map]
  cases found : Rule.findingAt? cfg p t x (rule.detector cfg) with
  | none => rfl
  | some f =>
      obtain ⟨arguments, -, rfl⟩ := (NodeRule.findingAt?_eq_some_iff hx rule).mp found
      rfl

end Violation

theorem Tagged.finding_ofDetectors (ds : List (Detector RunState)) (tree : Finding → Nat)
    (find? : Detector RunState → Option Finding) :
    (ofDetectors ds tree find?).map (·.finding) = ds.filterMap find? := by
  have untagged : (fun d : Detector RunState × Nat =>
      ((find? d.1).map fun f => (⟨tree f, d.2, f⟩ : Tagged)).map (·.finding)) = find? ∘ Prod.fst := by
    funext d
    rw [Option.map_map]
    exact Option.map_id_apply
  rw [ofDetectors, List.map_filterMap, untagged, ← List.filterMap_map, List.zipIdx_map_fst]

namespace Rule

variable (cfg : Settings)

/-- The detectors are those of the two rules on the whole program and those of the rules on nodes. -/
theorem filterMap_detectors (find? : Detector RunState → Option Finding) :
    (detectors cfg).filterMap find? =
      (((allDetectors cfg).take 2).filter fun d => cfg.isEnabled d.rule.id).filterMap find? ++
        (NodeRule.all.filter fun rule => cfg.isEnabled rule.descriptor.id).filterMap
          fun rule => find? (rule.detector cfg) := by
  have parts : allDetectors cfg = (allDetectors cfg).take 2 ++ NodeRule.all.map (·.detector cfg) :=
    rfl
  rw [detectors, parts, List.filter_append, List.filterMap_append, List.filter_map,
    List.filterMap_map]
  rfl

theorem findings_at (p : Program) {t : SyntaxTree × Nat} {x : Place} (hx : x ∈ t.1.places) :
    (detectors cfg).filterMap (findingAt? cfg p t x) =
      ((NodeRule.all.filter fun rule => cfg.isEnabled rule.descriptor.id).filterMap
        (Violation.at? cfg p t x)).map Violation.finding := by
  have quiet : (((allDetectors cfg).take 2).filter fun d => cfg.isEnabled d.rule.id).filterMap
      (findingAt? cfg p t x) = [] := by
    rw [List.filterMap_eq_nil_iff]
    intro d hd
    have whole := (List.mem_filter.mp hd).1
    simp only [allDetectors, List.take_succ_cons, List.take_zero, List.mem_cons, List.not_mem_nil,
      or_false] at whole
    rcases whole with rfl | rfl
    all_goals exact ite_self none
  rw [filterMap_detectors, quiet, List.nil_append, List.map_filterMap]
  exact congrArg (List.filterMap · _) (funext fun rule => (Violation.finding_at? hx rule).symm)

theorem findingAtEnd?_detector (p : Program) (rule : NodeRule) :
    findingAtEnd? cfg p (rule.detector cfg) = none := by
  have other : rule.descriptor.id ≠ nanoService.id := by cases rule <;> decide
  rw [findingAtEnd?, NodeRule.descriptor_eq, if_neg other]
  cases rule <;> rfl

/-- Of the findings about the whole program, one alone is not the endpoint rule's. -/
theorem findings_atEnd (p : Program) :
    let lines := totalOf (·.root.lineBreaks) p.trees
    let most := cfg.thresholds.maxTotalLines
    ((detectors cfg).filterMap (findingAtEnd? cfg p)).filter (·.ruleId != nanoService.id) =
      if cfg.isEnabled monolith.id = true ∧ most < lines then
        [monolith.finding .none [toString lines, toString most]]
      else [] := by
  intro lines most
  have nodes : (NodeRule.all.filter fun rule => cfg.isEnabled rule.descriptor.id).filterMap
      (fun rule => findingAtEnd? cfg p (rule.detector cfg)) = [] :=
    List.filterMap_eq_nil_iff.mpr fun rule _ => findingAtEnd?_detector cfg p rule
  rw [filterMap_detectors, nodes, List.append_nil, List.filterMap_filter, List.filter_filterMap,
    allDetectors, List.take_succ_cons, List.take_succ_cons, List.take_zero, List.filterMap_cons_none,
    List.filterMap_cons, List.filterMap_nil]
  · have judged : findingAtEnd? cfg p (monolithDetector most) =
        if most < lines then some (monolith.finding .none [toString lines, toString most])
        else none := by
      simp only [lines, ← p.endOfLineCount_eq]
      exact Verdict.finding?_ofOption _
    have rule : (monolithDetector most).rule.id = monolith.id := rfl
    rw [judged, rule]
    by_cases enabled : cfg.isEnabled monolith.id = true
    · by_cases long : most < lines
      · simp only [enabled, long, and_self, if_true]
        rfl
      · simp [enabled, long]
    · simp [enabled]
  · -- what the endpoint rule finds, if anything, is left out
    rw [Option.filter_eq_none_iff]
    intro f found
    rw [Option.ite_none_right_eq_some] at found
    have own := (ruleId_of_verdict found.2).1
    rw [own]
    decide

theorem findings_found (p : Program) :
    let lines := totalOf (·.root.lineBreaks) p.trees
    let most := cfg.thresholds.maxTotalLines
    ((found cfg p).map (·.finding)).filter (·.ruleId != nanoService.id) =
      (Violation.ofProgram cfg p).map Violation.finding ++
        if cfg.isEnabled monolith.id = true ∧ most < lines then
          [monolith.finding .none [toString lines, toString most]]
        else [] := by
  intro lines most
  have located : (p.trees.zipIdx.flatMap fun t => t.1.places.flatMap fun x =>
        Tagged.ofDetectors (detectors cfg) (fun _ => t.2) (findingAt? cfg p t x)).map
          (·.finding) =
      (Violation.ofProgram cfg p).map Violation.finding := by
    rw [Violation.ofProgram, List.map_flatMap, List.map_flatMap, List.flatMap_def, List.flatMap_def]
    refine congrArg List.flatten (List.map_congr_left fun t _ => ?_)
    rw [List.map_flatMap, List.map_flatMap, List.flatMap_def, List.flatMap_def]
    refine congrArg List.flatten (List.map_congr_left fun x hx => ?_)
    rw [Tagged.finding_ofDetectors, findings_at cfg p hx]
  have others : ((Violation.ofProgram cfg p).map Violation.finding).filter
      (·.ruleId != nanoService.id) = (Violation.ofProgram cfg p).map Violation.finding := by
    rw [List.filter_eq_self]
    intro f hf
    obtain ⟨x, -, rfl⟩ := List.mem_map.mp hf
    have other : x.rule.descriptor.id ≠ nanoService.id := by cases x.rule <;> decide
    exact bne_iff_ne.mpr other
  rw [found, List.map_append, List.filter_append, located, others, Tagged.finding_ofDetectors,
    findings_atEnd]

end Rule

namespace Runner

/-- Every violation of an enabled rule on nodes is reported or suppressed as one finding, a program
that is too large as one more, and apart from the endpoint rule's finding there is nothing else. -/
theorem violations_of_run (cfg : Settings) (p : Program) (mode : Mode)
    (finishes : (ofSettings cfg).Finishes p mode {}) :
    let result := ((ofSettings cfg).runIn p mode {}).1
    let lines := totalOf (·.root.lineBreaks) p.trees
    let most := cfg.thresholds.maxTotalLines
    ∃ violations : List Violation,
      (∀ x, x ∈ violations ↔ x.Stands cfg p) ∧ violations.Pairwise Violation.Apart ∧
      ((result.findings ++ result.suppressed.map (·.finding)).filter
          (·.ruleId != Rule.nanoService.id)).Perm
        ((violations.map Violation.finding ++
          if cfg.isEnabled Rule.monolith.id = true ∧ most < lines then
            [Rule.monolith.finding .none [toString lines, toString most]]
          else []).map (ofSettings cfg).effective) := by
  intro result lines most
  refine ⟨Violation.ofProgram cfg p, fun x => Violation.mem_ofProgram_iff,
    Violation.ofProgram_apart cfg p, ?_⟩
  have kept := ((ofSettings cfg).split_perm p.trees (Rule.found cfg p)).filter
    (·.ruleId != Rule.nanoService.id)
  rw [withOverride_eq] at kept
  have run : result = _ := result_ofSettings cfg p mode finishes
  rw [run]
  refine kept.trans (.of_eq ?_)
  rw [← Rule.findings_found cfg p, List.filter_map, List.filter_map, List.map_map]
  rfl

end Runner

/-- A class with a constructor of two parameters in a generated file of two lines. -/
def Program.injected : Program where
  trees :=
    [{ path := "a.cs", generated := true
       root :=
        { kind := .compilationUnit, trailing := [.lineBreak]
          children :=
            [{ kind := .classDeclaration, trailing := [.lineBreak]
               children :=
                [{ kind := .constructorDeclaration, span := .onLine 10 20 1 11
                   children :=
                    [{ kind := .token },
                      { kind := .parameterList
                        children := [{ kind := .parameter }, { kind := .parameter }] }] }] }] } }]

namespace Runner

theorem violations_of_run_injected :
    let cfg : Settings :=
      { thresholds := { maxConstructorParameters := 1, maxTotalLines := 1, maxClassLines := 0 }
        rules := [("AP_3", { severity := some .error }), ("AP_6", { enabled := false })] }
    let mode := Mode.parallel [0, 0, 0, 0]
    let result := ((ofSettings cfg).runIn .injected mode {}).1
    let reported := (result.findings ++ result.suppressed.map (·.finding)).filter
      (·.ruleId != Rule.nanoService.id)
    (ofSettings cfg).Finishes .injected mode {} ∧
      reported.Perm
        [{ Rule.complexity.finding (.source "a.cs" 1 11 10 20) ["2", "1"] with severity := .error },
          Rule.monolith.finding .none ["2", "1"]] := by
  intro cfg mode result reported
  have finishes : (ofSettings cfg).Finishes .injected mode {} :=
    finishes_of_turns _ _ _ _ (by decide +kernel)
  obtain ⟨violations, stands, apart, perm⟩ := violations_of_run cfg .injected mode finishes
  have listed : violations.Perm (Violation.ofProgram cfg .injected) := by
    apply (List.perm_ext_iff_of_nodup (apart.imp Violation.Apart.ne)
      ((Violation.ofProgram_apart cfg _).imp Violation.Apart.ne)).mpr
    intro x
    rw [stands, Violation.mem_ofProgram_iff]
  refine ⟨finishes, perm.trans ((((listed.map _).append_right _).map _).trans (.of_eq ?_))⟩
  decide +kernel

end Runner
end Antipattern
