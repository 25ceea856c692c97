import Antipattern.Proofs.ScheduleIndependence

/-!
The verdict of the endpoint rule. The counter that the walks fill in whatever order ends at the sum,
as a 64-bit word, of the endpoints of the classes that count; the first completion judges it, and
no later one says anything.
-/

namespace Antipattern

/-- The sum of a measure over a list. -/
def totalOf {α : Type} (f : α → Nat) : List α → Nat
  | [] => 0
  | x :: xs => f x + totalOf f xs

theorem totalOf_append {α : Type} (f : α → Nat) (xs ys : List α) :
    totalOf f (xs ++ ys) = totalOf f xs + totalOf f ys := by
  induction xs with
  | nil => simp [totalOf]
  | cons x xs ih => simp [totalOf, ih, Nat.add_assoc]

theorem totalOf_map {α β : Type} (f : β → Nat) (g : α → β) (xs : List α) :
    totalOf f (xs.map g) = totalOf (fun x => f (g x)) xs := by
  induction xs with
  | nil => rfl
  | cons x xs ih => rw [List.map_cons, totalOf, totalOf, ih]

theorem totalOf_eq_zero {α : Type} {f : α → Nat} {xs : List α} (h : ∀ x ∈ xs, f x = 0) :
    totalOf f xs = 0 := by
  induction xs with
  | nil => rfl
  | cons x xs ih =>
      rw [totalOf, h x List.mem_cons_self, ih fun y hy => h y (List.mem_cons_of_mem x hy)]

theorem totalOf_flatMap_congr {α β γ : Type} (xs : List α) (f : α → List β) (g : α → List γ)
    (m : β → Nat) (n : γ → Nat) (same : ∀ x ∈ xs, totalOf m (f x) = totalOf n (g x)) :
    totalOf m (xs.flatMap f) = totalOf n (xs.flatMap g) := by
  induction xs with
  | nil => rfl
  | cons x xs ih =>
      have rest := ih fun y hy => same y (List.mem_cons_of_mem x hy)
      rw [List.flatMap_cons, List.flatMap_cons, totalOf_append, totalOf_append, rest,
        same x List.mem_cons_self]

/-- What is listed place by place is apart if what stands at different places is, and what stands
at the same place. -/
theorem Program.pairwise_places {α : Type} {R : α → α → Prop} (p : Program)
    {f : SyntaxTree × Nat → Place → List α} (tree : α → Nat) (path : α → List Nat)
    (placed : ∀ t, ∀ x ∈ t.1.places, ∀ a ∈ f t x, tree a = t.2 ∧ path a = x.path)
    (apart : ∀ a b, tree a ≠ tree b ∨ path a ≠ path b → R a b)
    (same : ∀ t, ∀ x ∈ t.1.places, (f t x).Pairwise R) :
    (p.trees.zipIdx.flatMap fun t => t.1.places.flatMap (f t)).Pairwise R := by
  rw [List.pairwise_flatMap]
  refine ⟨fun t _ => List.pairwise_flatMap.mpr ⟨same t, ?_⟩, ?_⟩
  · apply (SyntaxNode.places_ordered _ t.1.root).imp_of_mem
    intro x y hx hy before a ha b hb
    refine apart a b (.inr fun equal => ?_)
    rw [Place.Before, ← (placed t x hx a ha).2, ← (placed t y hy b hb).2, equal] at before
    exact List.lex_irrefl Nat.lt_irrefl _ before
  · apply (Runner.zipIdx_ordered p.trees 0).imp
    intro t u before a ha b hb
    obtain ⟨x, hx, ha⟩ := List.mem_flatMap.mp ha
    obtain ⟨y, hy, hb⟩ := List.mem_flatMap.mp hb
    refine apart a b (.inl ?_)
    rw [(placed t x hx a ha).1, (placed u y hy b hb).1]
    exact Nat.ne_of_lt before

/-- A node that declares a class, with the class. -/
structure ClassSite where
  tree : Nat
  path : List Nat
  node : SyntaxNode
  symbol : TypeSymbol

namespace ClassSite

def ref (x : ClassSite) : SyntaxRef :=
  .ofNode x.tree x.node

/-- The node is shown to the endpoint rule and is the first declaration of a controller. -/
structure Counts (cfg : Settings) (p : Program) (x : ClassSite) : Prop where
  shown : ∃ t, p.trees[x.tree]? = some t ∧ t.root.descend? x.path = some x.node ∧
    (¬ t.GeneratedAt x.path ∨ cfg.includeGenerated = true)
  kind : x.node.kind = .classDeclaration
  controller : ∃ id, p.symbols.declaredAt? x.ref = some id ∧
    p.symbols.symbol? id = some x.symbol ∧
    p.symbols.isSubtypeOf (some id) (.named cfg.knownTypes.controller) = true
  first : x.symbol.declared.head? = some x.ref

/-- Members with at least one attribute that provides a route. -/
def endpoints (cfg : Settings) (p : Program) (x : ClassSite) : Nat :=
  x.symbol.members.countP fun m =>
    ∃ a ∈ m.attributes, p.symbols.implements a.classId (.named cfg.knownTypes.routeProvider) = true

/-- Different nodes, not only different entries. -/
def Apart (x y : ClassSite) : Prop :=
  x.tree ≠ y.tree ∨ x.path ≠ y.path

/-- The class that counts at a place of a tree, if one does. -/
def at? (cfg : Settings) (p : Program) (i : Nat) (x : Place) : Option ClassSite :=
  if x.node.kind = .classDeclaration ∧ (x.generated = false ∨ cfg.includeGenerated = true) then
    (p.symbols.declaredAt? (.ofNode i x.node)).bind fun id =>
      (p.symbols.symbol? id).bind fun symbol =>
        if symbol.declared.head? = some (.ofNode i x.node) ∧
            p.symbols.isSubtypeOf (some id) (.named cfg.knownTypes.controller) = true then
          some ⟨i, x.path, x.node, symbol⟩
        else none
  else none

/-- The classes of a program that count, in the order of the trees and of their places. -/
def ofProgram (cfg : Settings) (p : Program) : List ClassSite :=
  p.trees.zipIdx.flatMap fun t => t.1.places.flatMap fun x => (at? cfg p t.2 x).toList

theorem at?_eq_some_iff {cfg : Settings} {p : Program} {i : Nat} {x : Place} {y : ClassSite} :
    at? cfg p i x = some y ↔
      (y.tree = i ∧ y.path = x.path ∧ y.node = x.node) ∧
      (x.generated = false ∨ cfg.includeGenerated = true) ∧
      y.node.kind = .classDeclaration ∧
      (∃ id, p.symbols.declaredAt? y.ref = some id ∧ p.symbols.symbol? id = some y.symbol ∧
        p.symbols.isSubtypeOf (some id) (.named cfg.knownTypes.controller) = true) ∧
      y.symbol.declared.head? = some y.ref := by
  simp only [at?, ref, Option.ite_none_right_eq_some, Option.bind_eq_some_iff, Option.some.injEq]
  constructor
  · rintro ⟨⟨kind, shown⟩, id, declared, symbol, found, ⟨first, controller⟩, rfl⟩
    exact ⟨⟨rfl, rfl, rfl⟩, shown, kind, ⟨id, declared, found, controller⟩, first⟩
  · obtain ⟨tree, path, node, symbol⟩ := y
    rintro ⟨⟨rfl, rfl, rfl⟩, shown, kind, ⟨id, declared, found, controller⟩, first⟩
    exact ⟨⟨kind, shown⟩, id, declared, symbol, found, ⟨first, controller⟩, rfl⟩

theorem mem_ofProgram_iff {cfg : Settings} {p : Program} {y : ClassSite} :
    y ∈ ofProgram cfg p ↔ y.Counts cfg p := by
  simp only [ofProgram, List.mem_flatMap, Option.mem_toList, at?_eq_some_iff]
  constructor
  · rintro ⟨t, ht, x, hx, ⟨tree, path, node⟩, shown, kind, controller, first⟩
    have reached := (SyntaxNode.mem_places_iff.mp hx).1
    have mark := SyntaxTree.places_generated_iff hx
    refine ⟨⟨t.1, ?_, ?_, ?_⟩, kind, controller, first⟩
    · rw [tree]
      exact List.mem_zipIdx_iff_getElem?.mp ht
    · rwa [path, node]
    · rw [path, ← mark]
      simpa using shown
  · rintro ⟨⟨t, ht, reached, shown⟩, kind, controller, first⟩
    obtain ⟨mark, hp⟩ := SyntaxTree.exists_place reached
    refine ⟨(t, y.tree), List.mem_zipIdx_iff_getElem?.mpr ht, _, hp, ⟨rfl, rfl, rfl⟩, ?_, kind,
      controller, first⟩
    rw [← SyntaxTree.places_generated_iff hp] at shown
    simpa using shown

theorem ofProgram_apart (cfg : Settings) (p : Program) : (ofProgram cfg p).Pairwise Apart := by
  refine p.pairwise_places tree path ?_ (fun _ _ apart => apart) ?_
  · intro t x _ a ha
    obtain ⟨⟨tree, path, -⟩, -⟩ := at?_eq_some_iff.mp (Option.mem_toList.mp ha)
    exact ⟨tree, path⟩
  · intro t x _
    cases at? cfg p t.2 x <;> simp

end ClassSite

/-- The endpoints that the rule adds at a place it is shown are those of the class that counts. -/
private theorem endpointsAt_eq (cfg : Settings) (p : Program) (t : SyntaxTree × Nat) (x : Place)
    (shown : x.generated = false ∨ cfg.includeGenerated = true) :
    Rule.endpointsAt (.named cfg.knownTypes.controller) (.named cfg.knownTypes.routeProvider)
        ⟨t.2, t.1, x.node, p.symbols⟩ =
      totalOf (·.endpoints cfg p) (ClassSite.at? cfg p t.2 x).toList := by
  have routed (symbol : TypeSymbol) :
      Rule.routedMembers p.symbols (.named cfg.knownTypes.routeProvider) symbol =
        (⟨t.2, x.path, x.node, symbol⟩ : ClassSite).endpoints cfg p := by
    unfold Rule.routedMembers ClassSite.endpoints
    congr 1
    funext m
    rw [Bool.eq_iff_iff, List.any_eq_true, decide_eq_true_iff]
  simp only [Rule.endpointsAt, ClassSite.at?, shown, and_true, NodeContext.declaredSymbol?,
    NodeContext.place]
  by_cases kind : x.node.kind = .classDeclaration
  · cases declared : p.symbols.declaredAt? (.ofNode t.2 x.node) with
    | none => simp [totalOf]
    | some id =>
        cases found : p.symbols.symbol? id with
        | none => simp [found, totalOf]
        | some symbol =>
            by_cases counts : symbol.declared.head? = some (.ofNode t.2 x.node) ∧
                p.symbols.isSubtypeOf (some id) (.named cfg.knownTypes.controller) = true
            · simp [kind, found, counts, routed, totalOf]
            · have skipped := fun h =>
                counts ((Bool.and_eq_true_iff.mp h).imp_left of_decide_eq_true)
              simp only [kind, found, Option.bind_some, ite_true, if_neg counts]
              exact if_neg skipped
  · simp [kind, totalOf]

namespace Runner

private theorem shows_nanoService (cfg : Settings) (controller routeProvider : KnownType)
    (maxEndpoints : Nat) (kind : NodeKind) (generated : Bool) :
    (ofSettings cfg).shows (Rule.nanoServiceDetector controller routeProvider maxEndpoints) kind
        generated = true ↔
      kind = .classDeclaration ∧ (generated = false ∨ cfg.includeGenerated = true) := by
  rw [shows_iff]
  cases generated <;> simp [ofSettings, Rule.nanoServiceDetector]

section Enabled

variable {cfg : Settings} (enabled : cfg.isEnabled Rule.nanoService.id = true) (p : Program)
include enabled

/-- What the calls at one place add to the counter. -/
private theorem counted_at (t : SyntaxTree × Nat) (x : Place) :
    totalOf (fun v => Rule.counted cfg v.detector ⟨t.2, t.1, v.node, p.symbols⟩)
        ((ofSettings cfg).visitsAt (ofSettings cfg).subscriptions x.node x.generated) =
      totalOf (·.endpoints cfg p) (ClassSite.at? cfg p t.2 x).toList := by
  have registered : (ofSettings cfg).detectors = _ := Rule.detectors_of_enabled enabled
  generalize hrest : (Rule.others cfg).filter (fun d => cfg.isEnabled d.rule.id) = rest
    at registered
  have none : totalOf (fun d => Rule.counted cfg d.1 ⟨t.2, t.1, x.node, p.symbols⟩)
      ((rest.zipIdx 1).filter fun d => (ofSettings cfg).shows d.1 x.node.kind x.generated) = 0 := by
    apply totalOf_eq_zero
    intro d hd
    have other := List.fst_mem_of_mem_zipIdx (List.mem_filter.mp hd).1
    rw [← hrest] at other
    exact if_neg (Rule.id_of_other (List.mem_filter.mp other).1)
  rw [visitsAt_subscriptions, registered, totalOf_map, List.zipIdx_cons, List.filter_cons]
  split
  · next shows =>
      rw [shows_nanoService] at shows
      rw [totalOf, none, ← endpointsAt_eq cfg p t x shows.2]
      rfl
  · next hidden =>
      rw [shows_nanoService] at hidden
      rw [ClassSite.at?, if_neg hidden]
      exact none

/-- The counter ends at the endpoints of the classes that count. -/
theorem counted_total :
    totalOf (fun m => Rule.counted cfg m.visit.detector (m.context p))
        (p.trees.zipIdx.flatMap ((ofSettings cfg).callsIn p {})) =
      totalOf (·.endpoints cfg p) (ClassSite.ofProgram cfg p) := by
  apply totalOf_flatMap_congr
  intro t _
  rw [callsIn, visits_subscriptions, totalOf_map]
  apply totalOf_flatMap_congr
  intro x _
  exact counted_at enabled p t x

end Enabled

private theorem builtin_of_call {cfg : Settings} {p : Program} {s : RunState}
    {t : SyntaxTree × Nat} {m : MadeCall RunState}
    (hm : m ∈ (ofSettings cfg).callsIn p s t) :
    m.visit.detector ∈ Rule.allDetectors cfg ∧
      m.verdict = (m.visit.detector.check (m.context p) s).1 := by
  obtain ⟨v, hv, rfl⟩ := List.mem_map.mp hm
  exact ⟨(List.mem_filter.mp (List.mem_of_getElem? (detector_of_visit hv))).1, rfl⟩

/-- Node calls move the counter and nothing else. -/
private theorem state_after (cfg : Settings) (p : Program) (calls : List (MadeCall RunState))
    (builtin : ∀ m ∈ calls, m.visit.detector ∈ Rule.allDetectors cfg) (s : RunState) :
    let last := calls.foldl (MadeCall.after p) s
    last.endpoints = s.endpoints + UInt64.ofNat
        (totalOf (fun m => Rule.counted cfg m.visit.detector (m.context p)) calls) ∧
      last.tally.latches = s.tally.latches ∧ last.cancelled = s.cancelled := by
  induction calls generalizing s with
  | nil => simp [totalOf]
  | cons m calls ih =>
      have after : m.after p s = s.counting (Rule.counted cfg m.visit.detector (m.context p)) :=
        congrArg Prod.snd (Rule.check_of_builtin (builtin m List.mem_cons_self) _ s)
      obtain ⟨endpoints, latches, cancelled⟩ :=
        ih (fun m' hm => builtin m' (List.mem_cons_of_mem m hm)) (m.after p s)
      rw [after] at endpoints latches cancelled
      simp only [List.foldl_cons, totalOf, after]
      refine ⟨?_, ?_, ?_⟩
      · rw [endpoints, RunState.endpoints_counting, UInt64.ofNat_add, UInt64.add_assoc]
      · rw [latches, RunState.latches_counting]
      · rw [cancelled, RunState.cancelled_counting]

private theorem completePass_others (cfg : Settings) (p : Program)
    (ds : List (Detector RunState × Nat)) (others : ∀ d ∈ ds, d.1 ∈ Rule.others cfg)
    (s : RunState) :
    (completePass p ds s).2 = s ∧
      ∀ t ∈ (completePass p ds s).1.findings, t.finding.ruleId ≠ Rule.nanoService.id := by
  induction ds with
  | nil => exact ⟨rfl, fun t ht => absurd ht List.not_mem_nil⟩
  | cons d ds ih =>
      have other := others d List.mem_cons_self
      obtain ⟨same, named⟩ := Rule.complete_of_other other p s
      obtain ⟨state, rest⟩ := ih fun e he => others e (List.mem_cons_of_mem d he)
      simp only [completePass, same]
      refine ⟨state, fun t ht => ?_⟩
      rcases List.mem_append.mp ht with ht | ht
      · rw [named _ (Yield.verdict_of_mem ht)]
        exact Rule.id_of_other other
      · exact rest t ht

theorem completed {cfg : Settings} (p : Program)
    (enabled : cfg.isEnabled Rule.nanoService.id = true) {s : RunState}
    (free : Rule.verdictLatch ∉ s.tally.latches) :
    let completed := completePass p (ofSettings cfg).detectors.zipIdx s
    completed.2 = Rule.judged s ∧
      (completed.1.findings.map (·.finding)).filter (·.ruleId == Rule.nanoService.id) =
        (Rule.verdict? cfg.thresholds.maxNanoServiceEndpoints s.endpoints.toNat).toList := by
  have registered : (ofSettings cfg).detectors = _ := Rule.detectors_of_enabled enabled
  have others : ∀ d ∈ ((Rule.others cfg).filter fun d => cfg.isEnabled d.rule.id).zipIdx 1,
      d.1 ∈ Rule.others cfg :=
    fun d hd => (List.mem_filter.mp (List.fst_mem_of_mem_zipIdx hd)).1
  obtain ⟨state, rest⟩ := completePass_others cfg p _ others (Rule.judged s)
  rw [registered, List.zipIdx_cons]
  simp only [completePass, Rule.nanoServiceDetector, Rule.judgeEndpoints_first free]
  refine ⟨state, ?_⟩
  generalize completePass p _ (Rule.judged s) = after at rest
  have none : (after.1.findings.map (·.finding)).filter (·.ruleId == Rule.nanoService.id) = [] := by
    rw [List.filter_eq_nil_iff]
    intro f hf
    obtain ⟨t, ht, rfl⟩ := List.mem_map.mp hf
    simpa using rest t ht
  rw [Yield.append, List.map_append, List.filter_append, none, List.append_nil]
  cases verdict : Rule.verdict? cfg.thresholds.maxNanoServiceEndpoints s.endpoints.toNat with
  | none => rfl
  | some f => simp [Verdict.ofOption, Yield.ofVerdict, (Rule.ruleId_of_verdict verdict).1]

/-- No finding of a node call is the endpoint rule's, so what completion brings in is all. -/
private theorem findings_of_completion (cfg : Settings) (p : Program) (s : RunState)
    (ts : List (SyntaxTree × Nat)) (final : Yield) :
    let walked := ts.map fun t =>
      some (Yield.gather (((ofSettings cfg).callsIn p s t).map (·.yield)))
    ((Yield.gather (walked.filterMap id ++ (some final).toList)).findings.map (·.finding)).filter
        (·.ruleId == Rule.nanoService.id) =
      (final.findings.map (·.finding)).filter (·.ruleId == Rule.nanoService.id) := by
  intro walked
  have silent : ((Yield.gather (walked.filterMap id)).findings.map (·.finding)).filter
      (·.ruleId == Rule.nanoService.id) = [] := by
    rw [List.filter_eq_nil_iff]
    intro f hf
    obtain ⟨t, ht, rfl⟩ := List.mem_map.mp hf
    obtain ⟨y, hy, ht⟩ := List.mem_flatMap.mp ht
    obtain ⟨_, hy, rfl⟩ := List.mem_filterMap.mp hy
    obtain ⟨tree, -, walk⟩ := List.mem_map.mp hy
    cases walk
    obtain ⟨_, hy, ht⟩ := List.mem_flatMap.mp ht
    obtain ⟨m, hm, rfl⟩ := List.mem_map.mp hy
    obtain ⟨builtin, verdict⟩ := builtin_of_call hm
    obtain ⟨other, named⟩ := Rule.ruleId_of_check builtin
      (verdict.symm.trans (Yield.verdict_of_mem ht))
    rw [beq_iff_eq, named]
    exact Rule.id_of_other other
  rw [Yield.gather_append, Option.toList_some, Yield.gather_singleton, Yield.append,
    List.map_append, List.filter_append, silent, List.nil_append]

/-- An uncancelled run lets the detectors complete in the state that all node calls leave. -/
theorem runIn_eq_completed (cfg : Settings) (p : Program) (mode : Mode)
    (finishes : (ofSettings cfg).Finishes p mode {}) :
    ∃ last : RunState, Rule.verdictLatch ∉ last.tally.latches ∧
      last.endpoints = UInt64.ofNat
        (totalOf (fun m => Rule.counted cfg m.visit.detector (m.context p))
          (p.trees.zipIdx.flatMap ((ofSettings cfg).callsIn p {}))) ∧
      let final := completePass p (ofSettings cfg).detectors.zipIdx last
      (ofSettings cfg).runIn p mode {} =
        ((ofSettings cfg).conclude p
          (p.trees.zipIdx.map fun t =>
            some (Yield.gather (((ofSettings cfg).callsIn p {} t).map (·.yield))))
          (some final.1), final.2) := by
  obtain ⟨done, same, -⟩ := (ofSettings cfg).runIn_scheduleOf p {} mode finishes
  obtain ⟨endpoints, latches, cancelled⟩ := state_after cfg p
    (p.trees.zipIdx.flatMap ((ofSettings cfg).callsIn p {})) (fun m hm => by
      obtain ⟨t, -, hm⟩ := List.mem_flatMap.mp hm
      exact (builtin_of_call hm).1) {}
  refine ⟨_, ?_, endpoints.trans (UInt64.zero_add _), ?_⟩
  · rw [latches]
    exact List.not_mem_nil
  · have going : (ofSettings cfg).stopped _ = false := cancelled
    rw [same, (orderBlind_ofSettings cfg).runIn done rfl, settle, going]
    rfl

/-- The endpoint rule reports once and only if the endpoints are few, whatever the schedule. -/
theorem nanoService_verdict (cfg : Settings) (p : Program) (mode : Mode)
    (enabled : cfg.isEnabled Rule.nanoService.id = true)
    (finishes : (ofSettings cfg).Finishes p mode {}) :
    let classes := ClassSite.ofProgram cfg p
    let total := totalOf (·.endpoints cfg p) classes % UInt64.size
    let most := cfg.thresholds.maxNanoServiceEndpoints
    let out := (ofSettings cfg).runIn p mode {}
    (∀ x, x ∈ classes ↔ x.Counts cfg p) ∧ classes.Pairwise ClassSite.Apart ∧
      out.1.findings.filter (·.ruleId == Rule.nanoService.id) =
        (if total ≤ most then
          [(ofSettings cfg).effective
            (Rule.nanoService.finding .none [toString total, toString most])]
        else []) ∧
      (∀ x ∈ out.1.suppressed, x.finding.ruleId ≠ Rule.nanoService.id) ∧
      ∀ controller routeProvider limit q,
        (Rule.nanoServiceDetector controller routeProvider limit).complete q out.2 =
          (.nothing, out.2) := by
  refine ⟨fun x => ClassSite.mem_ofProgram_iff, ClassSite.ofProgram_apart cfg p, ?_⟩
  obtain ⟨last, free, endpoints, run⟩ := runIn_eq_completed cfg p mode finishes
  obtain ⟨state, verdict⟩ := completed p enabled free
  have total : last.endpoints.toNat =
      totalOf (·.endpoints cfg p) (ClassSite.ofProgram cfg p) % UInt64.size := by
    rw [endpoints, counted_total enabled p, UInt64.toNat_ofNat']
  rw [total, ← findings_of_completion cfg p {} p.trees.zipIdx] at verdict
  obtain ⟨division, -⟩ := (ofSettings cfg).conclude_of_yield p
    (p.trees.zipIdx.map fun t =>
      some (Yield.gather (((ofSettings cfg).callsIn p {} t).map (·.yield))))
    (some (completePass p (ofSettings cfg).detectors.zipIdx last).1) rfl
  obtain ⟨reported, unsuppressed⟩ := (ofSettings cfg).reported_of_rule p.trees _
    Rule.nanoService.id _ verdict fun f hf => (Rule.ruleId_of_verdict hf).2
  rw [← division] at reported unsuppressed
  simp only [run, state]
  refine ⟨?_, unsuppressed, ?_⟩
  · rw [reported, Rule.verdict?]
    split <;> rfl
  · intro controller routeProvider limit q
    have taken : Rule.verdictLatch ∈ (Rule.judged last).tally.latches := List.mem_cons_self
    simp only [Rule.nanoServiceDetector, Rule.judgeEndpoints_again taken]
    rfl

theorem nanoService_verdict_twoControllers :
    let cfg : Settings := { thresholds := { maxNanoServiceEndpoints := 2 } }
    let mode := Mode.parallel [1, 0, 0, 1, 1, 0, 0, 1]
    let result := ((ofSettings cfg).runIn .twoControllers mode {}).1
    cfg.isEnabled Rule.nanoService.id = true ∧
      (ofSettings cfg).Finishes .twoControllers mode {} ∧
      result.findings.filter (·.ruleId == Rule.nanoService.id) =
        [Rule.nanoService.finding .none ["2", "2"]] := by
  intro cfg mode result
  have enabled : cfg.isEnabled Rule.nanoService.id = true := by decide
  have finishes : (ofSettings cfg).Finishes .twoControllers mode {} :=
    finishes_of_turns _ _ _ _ (by decide +kernel)
  have total : totalOf (·.endpoints cfg .twoControllers)
      (ClassSite.ofProgram cfg .twoControllers) % UInt64.size = 2 := by decide +kernel
  obtain ⟨-, -, reported, -⟩ := nanoService_verdict cfg .twoControllers mode enabled finishes
  rw [total] at reported
  exact ⟨enabled, finishes, reported.trans (by decide +kernel)⟩

end Runner
end Antipattern
