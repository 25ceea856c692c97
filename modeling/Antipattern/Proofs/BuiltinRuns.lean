import Antipattern.Proofs.EndpointVerdict

/-!
What an uncancelled run of the built-in detectors brings in, with no schedule and no state in it.
Every detector says of a node what the node alone decides. At completion the endpoint rule says what
the endpoints of the program decide, and the others what the program alone decides.
-/

namespace Antipattern

namespace Verdict

def finding? : Verdict → Option Finding
  | finding f => some f
  | _ => none

@[simp] theorem finding?_ofOption (o : Option Finding) : (ofOption o).finding? = o := by
  cases o <;> rfl

end Verdict

theorem Yield.ofVerdict_ofOption (index : Nat) (rule : String) (file : Option String)
    (tree : Finding → Nat) (o : Option Finding) :
    ofVerdict index rule file tree (.ofOption o) = ⟨(o.map fun f => ⟨tree f, index, f⟩).toList, []⟩ := by
  cases o <;> rfl

/-- The position that a finding at completion takes among the trees. -/
def Program.treeOf (p : Program) (f : Finding) : Nat :=
  (f.location.file?.bind p.lastIndexOf?).getD p.trees.length

/-- The findings that detectors have about one thing, each with its detector's position. -/
def Tagged.ofDetectors (ds : List (Detector RunState)) (tree : Finding → Nat)
    (find? : Detector RunState → Option Finding) : List Tagged :=
  ds.zipIdx.filterMap fun d => (find? d.1).map fun f => ⟨tree f, d.2, f⟩

namespace Rule

/-- What a detector finds at a place, if it is shown the place. -/
def findingAt? (cfg : Settings) (p : Program) (t : SyntaxTree × Nat) (x : Place)
    (d : Detector RunState) : Option Finding :=
  if (Runner.ofSettings cfg).shows d x.node.kind x.generated then
    (d.check ⟨t.2, t.1, x.node, p.symbols⟩ {}).1.finding?
  else none

/-- The endpoints of a program as the counter holds them. -/
def endpointTotal (cfg : Settings) (p : Program) : Nat :=
  totalOf (·.endpoints cfg p) (ClassSite.ofProgram cfg p) % UInt64.size

/-- What a detector finds about the program as a whole. -/
def findingAtEnd? (cfg : Settings) (p : Program) (d : Detector RunState) : Option Finding :=
  if d.rule.id = nanoService.id then
    verdict? cfg.thresholds.maxNanoServiceEndpoints (endpointTotal cfg p)
  else (d.complete p {}).1.finding?

/-- All findings in a program, by tree and in document order, then those about the whole. -/
def found (cfg : Settings) (p : Program) : List Tagged :=
  (p.trees.zipIdx.flatMap fun t => t.1.places.flatMap fun x =>
      Tagged.ofDetectors (detectors cfg) (fun _ => t.2) (findingAt? cfg p t x)) ++
    Tagged.ofDetectors (detectors cfg) p.treeOf (findingAtEnd? cfg p)

section Builtin

variable {cfg : Settings} {d : Detector RunState}

/-- A node call finds something or nothing, whatever the state; it never breaks down. -/
theorem check_eq_ofOption (hd : d ∈ allDetectors cfg) (c : NodeContext) (s : RunState) :
    (d.check c s).1 = .ofOption (d.check c {}).1.finding? := by
  simp only [allDetectors, List.mem_cons, List.not_mem_nil, or_false] at hd
  rcases hd with rfl | rfl | rfl | rfl | rfl | rfl
  · rfl
  · rfl
  all_goals exact congrArg Verdict.ofOption (Verdict.finding?_ofOption _).symm

theorem complete_eq_ofOption (hd : d ∈ others cfg) (p : Program) (s : RunState) :
    d.complete p s = (.ofOption (findingAtEnd? cfg p d), s) := by
  have other : findingAtEnd? cfg p d = (d.complete p {}).1.finding? := if_neg (id_of_other hd)
  rw [other]
  simp only [others, allDetectors, List.tail_cons, List.mem_cons, List.not_mem_nil, or_false] at hd
  rcases hd with rfl | rfl | rfl | rfl | rfl
  · simp only [monolithDetector, Verdict.finding?_ofOption]
  all_goals rfl

theorem complete_nanoService {s : RunState} (free : verdictLatch ∉ s.tally.latches)
    (controller routeProvider : KnownType) (maxEndpoints : Nat) (p : Program) :
    (nanoServiceDetector controller routeProvider maxEndpoints).complete p s =
      (.ofOption (verdict? maxEndpoints s.endpoints.toNat), judged s) := by
  simp only [nanoServiceDetector, judgeEndpoints_first free]

end Builtin
end Rule

namespace Runner

/-- The calls at a place bring in what the detectors find there. -/
private theorem gather_shown {cfg : Settings} (p : Program) (t : SyntaxTree × Nat) (x : Place)
    (ds : List (Detector RunState × Nat)) (builtin : ∀ d ∈ ds, d.1 ∈ Rule.allDetectors cfg) :
    Yield.gather ((ds.filter fun d => (ofSettings cfg).shows d.1 x.node.kind x.generated).map
        fun d => (MadeCall.ofVisit p t.2 t.1 ⟨d.2, d.1, x.node⟩ {}).yield) =
      ⟨ds.filterMap fun d => (Rule.findingAt? cfg p t x d.1).map fun f => ⟨t.2, d.2, f⟩, []⟩ := by
  induction ds with
  | nil => rfl
  | cons d ds ih =>
      have rest := ih fun e he => builtin e (List.mem_cons_of_mem d he)
      by_cases shown : (ofSettings cfg).shows d.1 x.node.kind x.generated = true
      · have verdict := Rule.check_eq_ofOption (builtin d List.mem_cons_self)
          ⟨t.2, t.1, x.node, p.symbols⟩ {}
        have first : (MadeCall.ofVisit p t.2 t.1 ⟨d.2, d.1, x.node⟩ {}).yield =
            ⟨((Rule.findingAt? cfg p t x d.1).map fun f => ⟨t.2, d.2, f⟩).toList, []⟩ := by
          rw [Rule.findingAt?, if_pos shown, ← Yield.ofVerdict_ofOption, ← verdict]
          rfl
        rw [List.filter_cons, if_pos shown, List.map_cons, ← List.singleton_append,
          Yield.gather_append, Yield.gather_singleton, first, rest, List.filterMap_cons]
        cases Rule.findingAt? cfg p t x d.1 <;> rfl
      · have hidden : Rule.findingAt? cfg p t x d.1 = none := if_neg shown
        rw [List.filter_cons, if_neg shown, rest, List.filterMap_cons, hidden]
        rfl

/-- The walk over a tree brings in what the detectors find at its places. -/
theorem gather_callsIn (cfg : Settings) (p : Program) (t : SyntaxTree × Nat) :
    Yield.gather (((ofSettings cfg).callsIn p {} t).map (·.yield)) =
      ⟨t.1.places.flatMap fun x =>
        Tagged.ofDetectors (Rule.detectors cfg) (fun _ => t.2) (Rule.findingAt? cfg p t x), []⟩ := by
  rw [callsIn, visits_subscriptions, List.map_map]
  induction t.1.places with
  | nil => rfl
  | cons x places ih =>
      rw [List.flatMap_cons, List.map_append, Yield.gather_append, ih, List.flatMap_cons]
      have here := gather_shown p t x (ofSettings cfg).detectors.zipIdx fun d hd =>
        (List.mem_filter.mp (List.fst_mem_of_mem_zipIdx hd)).1
      rw [visitsAt_subscriptions, List.map_map]
      exact congrArg (fun y => Yield.append y _) here

theorem completePass_of_others {cfg : Settings} (p : Program) (ds : List (Detector RunState × Nat))
    (others : ∀ d ∈ ds, d.1 ∈ Rule.others cfg) (s : RunState) :
    completePass p ds s =
      (⟨ds.filterMap fun d => (Rule.findingAtEnd? cfg p d.1).map fun f => ⟨p.treeOf f, d.2, f⟩, []⟩,
        s) := by
  induction ds with
  | nil => rfl
  | cons d ds ih =>
      have rest := ih fun e he => others e (List.mem_cons_of_mem d he)
      rw [completePass, Rule.complete_eq_ofOption (others d List.mem_cons_self)]
      simp only [rest, Yield.ofVerdict_ofOption, Yield.append, List.filterMap_cons]
      cases Rule.findingAtEnd? cfg p d.1 <;> rfl

theorem completePass_ofSettings (cfg : Settings) (p : Program) {s : RunState}
    (free : Rule.verdictLatch ∉ s.tally.latches)
    (total : cfg.isEnabled Rule.nanoService.id = true →
      s.endpoints.toNat = Rule.endpointTotal cfg p) :
    (completePass p (ofSettings cfg).detectors.zipIdx s).1 =
      ⟨Tagged.ofDetectors (Rule.detectors cfg) p.treeOf (Rule.findingAtEnd? cfg p), []⟩ := by
  have others (n : Nat) : ∀ d ∈ ((Rule.others cfg).filter fun d => cfg.isEnabled d.rule.id).zipIdx n,
      d.1 ∈ Rule.others cfg :=
    fun d hd => (List.mem_filter.mp (List.fst_mem_of_mem_zipIdx hd)).1
  cases enabled : cfg.isEnabled Rule.nanoService.id with
  | true =>
      have registered := Rule.detectors_of_enabled enabled
      have verdict : Rule.verdict? cfg.thresholds.maxNanoServiceEndpoints s.endpoints.toNat =
          Rule.findingAtEnd? cfg p (Rule.nanoServiceDetector (.named cfg.knownTypes.controller)
            (.named cfg.knownTypes.routeProvider) cfg.thresholds.maxNanoServiceEndpoints) := by
        rw [total enabled]
        rfl
      rw [Tagged.ofDetectors, ofSettings, registered, List.zipIdx_cons, completePass,
        Rule.complete_nanoService free, List.filterMap_cons, ← verdict]
      simp only [completePass_of_others p _ (others 1), Yield.ofVerdict_ofOption, Yield.append]
      cases Rule.verdict? cfg.thresholds.maxNanoServiceEndpoints s.endpoints.toNat <;> rfl
  | false =>
      have registered : Rule.detectors cfg =
          (Rule.others cfg).filter fun d => cfg.isEnabled d.rule.id :=
        List.filter_cons_of_neg (Bool.eq_false_iff.mp enabled)
      rw [ofSettings, registered, completePass_of_others p _ (others 0)]
      rfl

/-- An uncancelled run reports and suppresses what is found, in order, and has no faults. -/
theorem result_ofSettings (cfg : Settings) (p : Program) (mode : Mode)
    (finishes : (ofSettings cfg).Finishes p mode {}) :
    ((ofSettings cfg).runIn p mode {}).1 =
      let division := Suppression.divide p.trees
        ((Tagged.inOrder (Rule.found cfg p)).map (ofSettings cfg).effective)
      { findings := division.1, suppressed := division.2, filesAnalyzed := p.trees.length } := by
  obtain ⟨last, free, endpoints, run⟩ := runIn_eq_completed cfg p mode finishes
  have total (enabled : cfg.isEnabled Rule.nanoService.id = true) :
      last.endpoints.toNat = Rule.endpointTotal cfg p := by
    rw [endpoints, counted_total enabled p, UInt64.toNat_ofNat']
    rfl
  have walked : (p.trees.zipIdx.map fun t => some (Yield.gather
        (((ofSettings cfg).callsIn p {} t).map (·.yield)))) =
      (p.trees.zipIdx.map fun t => (⟨t.1.places.flatMap fun x => Tagged.ofDetectors
        (Rule.detectors cfg) (fun _ => t.2) (Rule.findingAt? cfg p t x), []⟩ : Yield)).map some := by
    rw [List.map_map]
    exact List.map_congr_left fun t _ => congrArg some (gather_callsIn cfg p t)
  generalize hw : (p.trees.zipIdx.map fun t => (⟨_, []⟩ : Yield)) = ys at walked
  have brought : Yield.gather ((ys.map some).filterMap id ++ (some (⟨Tagged.ofDetectors
      (Rule.detectors cfg) p.treeOf (Rule.findingAtEnd? cfg p), []⟩ : Yield)).toList) =
      ⟨Rule.found cfg p, []⟩ := by
    simp [Yield.gather, ← hw, List.flatMap_map, Rule.found]
  have count : (ys.map some).countP Option.isSome = p.trees.length := by
    have length : ys.length = p.trees.length := by rw [← hw, List.length_map, List.length_zipIdx]
    rw [List.countP_map, ← length]
    exact List.countP_eq_length.mpr fun _ _ => rfl
  rw [run, walked, completePass_ofSettings cfg p free total]
  simp only [conclude, Yield.foldl_append, Yield.empty_append, brought, count,
    Suppression.split_eq_divide, withOverride_eq, Option.isNone_some]

end Runner
end Antipattern
