import Antipattern.Proofs.BuiltinRules
import Antipattern.Proofs.RunCalls

/-!
Runs whose outcome no schedule can change. If the answer of every node call depends on the node
alone, and any two calls leave the same state in either order, then every finished schedule brings
in the same yields and ends in the same state. The built-in detectors are of this kind: their node
calls do no more to the state than add to one counter.
-/

namespace Antipattern

private theorem grouped_perm {α : Type} (f : α → Nat) (n : Nat) (xs : List α)
    (below : ∀ x ∈ xs, f x < n) :
    xs.Perm ((List.range n).flatMap fun i => xs.filter fun x => f x == i) := by
  induction n generalizing xs with
  | zero =>
      rw [List.eq_nil_iff_forall_not_mem.mpr fun x hx => Nat.not_lt_zero _ (below x hx)]
      exact .nil
  | succ n ih =>
      have rest := ih (xs.filter fun x => !(f x == n)) fun x hx => by
        have low := below x (List.mem_filter.mp hx).1
        have other : f x ≠ n := by simpa using (List.mem_filter.mp hx).2
        omega
      have groups : (List.range n).flatMap (fun i =>
            (xs.filter fun x => !(f x == n)).filter fun x => f x == i) =
          (List.range n).flatMap fun i => xs.filter fun x => f x == i := by
        rw [List.flatMap_def, List.flatMap_def]
        congr 1
        apply List.map_congr_left
        intro i hi
        have low := List.mem_range.mp hi
        rw [List.filter_filter]
        apply List.filter_congr
        intro x _
        by_cases h : f x = i
        · simp [h, Nat.ne_of_lt low]
        · simp [h]
      rw [List.range_succ, List.flatMap_append, List.flatMap_singleton, ← groups]
      exact (List.filter_append_perm (fun x => f x == n) xs).symm.trans
        (List.perm_append_comm.trans (rest.append_right _))

namespace Runner

variable {σ : Type}

/-- Node calls that answer from the node alone and whose effects on the state commute. -/
structure OrderBlind (r : Runner σ) : Prop where
  answers : ∀ d ∈ r.detectors, ∀ c s s', (d.check c s).1 = (d.check c s').1
  commute : ∀ d ∈ r.detectors, ∀ e ∈ r.detectors, ∀ c c' s,
    (e.check c' (d.check c s).2).2 = (d.check c (e.check c' s).2).2
  running : ∀ d ∈ r.detectors, ∀ c s, r.stopped (d.check c s).2 = r.stopped s

private theorem exists_state_of_call (r : Runner σ) (p : Program) (schedule : List Nat)
    (pass : NodePass σ) {m : MadeCall σ} (hm : m ∈ r.callsUnder p schedule pass) :
    ∃ s, m = .ofVisit p m.index m.tree m.visit s := by
  induction schedule generalizing pass with
  | nil => cases hm
  | cons index schedule ih =>
      rcases List.mem_append.mp hm with first | later
      · have step := r.stepPass_spec p pass index
        generalize r.stepPass p pass index = next at step
        generalize callAt p pass index = new at step first
        cases step with
        | idle | leave | begin => cases first
        | call t v rest brought m' tree walks made =>
            rw [List.mem_singleton.mp first, made]
            exact ⟨pass.state, rfl⟩
      · exact ih _ later

/-- The calls of one tree, each as it would be made in state `s`. -/
def callsIn (r : Runner σ) (p : Program) (s : σ) (t : SyntaxTree × Nat) : List (MadeCall σ) :=
  (r.visits r.subscriptions t.1).map fun v => .ofVisit p t.2 t.1 v s

section Blind

variable {r : Runner σ} (blind : r.OrderBlind) {p : Program} {schedule : List Nat} {s : σ}
include blind

theorem OrderBlind.sticky : r.Sticky := by
  intro d hd c s h
  rw [blind.running d hd]
  exact h

private theorem stopped_after (made : List (MadeCall σ))
    (registered : ∀ m ∈ made, r.detectors[m.visit.index]? = some m.visit.detector) (s : σ) :
    r.stopped (made.foldl (MadeCall.after p) s) = r.stopped s := by
  induction made generalizing s with
  | nil => rfl
  | cons m made ih =>
      rw [List.foldl_cons, ih fun m' hm => registered m' (List.mem_cons_of_mem m hm)]
      exact blind.running _ (List.mem_of_getElem? (registered m List.mem_cons_self)) _ _

theorem OrderBlind.stopped_under :
    r.stopped (r.passUnder p schedule (.start s)).state = r.stopped s := by
  rw [state_under]
  exact stopped_after blind _ (fun m hm => (r.accounted_under p schedule s).detector hm) s

theorem OrderBlind.inTree_calls (finishes : r.Finishes p (.parallel schedule) s)
    (running : r.stopped s = false) {t : SyntaxTree × Nat} (ht : t ∈ p.trees.zipIdx) :
    MadeCall.inTree t.2 (r.callsUnder p schedule (.start s)) = r.callsIn p s t := by
  have ht := List.mem_zipIdx_iff_getElem?.mp ht
  have account := r.accounted_under p schedule s
  have visits := visits_of_calls blind.sticky finishes (blind.stopped_under.trans running) ht
  have own : ∀ m ∈ MadeCall.inTree t.2 (r.callsUnder p schedule (.start s)),
      m = .ofVisit p t.2 t.1 m.visit s := by
    intro m hm
    obtain ⟨hm, here⟩ := List.mem_filter.mp hm
    have registered := List.mem_of_getElem? (account.detector hm)
    have tree := account.tree m hm
    rw [beq_iff_eq.mp here, ht] at tree
    obtain ⟨s', made⟩ := r.exists_state_of_call p schedule (.start s) hm
    rw [made, MadeCall.ofVisit, MadeCall.ofVisit, blind.answers _ registered _ s' s,
      beq_iff_eq.mp here, ← Option.some.inj tree]
  rw [callsIn, ← visits, List.map_map]
  exact (List.map_id _).symm.trans (List.map_congr_left own)

theorem OrderBlind.brought (finishes : r.Finishes p (.parallel schedule) s)
    (running : r.stopped s = false) :
    broughtIn p (r.passUnder p schedule (.start s)) =
      p.trees.zipIdx.map fun t => some (Yield.gather ((r.callsIn p s t).map (·.yield))) := by
  rw [broughtIn, List.range_eq_range', ← List.zipIdx_map_snd 0 p.trees, List.map_map]
  apply List.map_congr_left
  intro t ht
  have tree := List.mem_zipIdx_iff_getElem?.mp ht
  have account := (r.accounted_under p schedule s).walk t.2 t.1 tree
  obtain ⟨brought, walked⟩ := walked_of_finished blind.sticky finishes
    (blind.stopped_under.trans running) (List.getElem?_eq_some_iff.mp tree).1
  rw [blind.inTree_calls finishes running ht, walked] at account
  rw [Function.comp, walked, Progress.brought?, account.2]

theorem OrderBlind.state (finishes : r.Finishes p (.parallel schedule) s)
    (running : r.stopped s = false) :
    (r.passUnder p schedule (.start s)).state =
      (p.trees.zipIdx.flatMap (r.callsIn p s)).foldl (MadeCall.after p) s := by
  have account := r.accounted_under p schedule s
  have registered : ∀ m ∈ r.callsUnder p schedule (.start s), m.visit.detector ∈ r.detectors :=
    fun m hm => List.mem_of_getElem? (account.detector hm)
  have grouped := grouped_perm (·.index) p.trees.length (r.callsUnder p schedule (.start s))
    fun m hm => (List.getElem?_eq_some_iff.mp (account.tree m hm)).1
  have own : (List.range p.trees.length).flatMap (fun i =>
        MadeCall.inTree i (r.callsUnder p schedule (.start s))) =
      p.trees.zipIdx.flatMap (r.callsIn p s) := by
    rw [List.range_eq_range', ← List.zipIdx_map_snd 0 p.trees, List.flatMap_map]
    rw [List.flatMap_def, List.flatMap_def]
    congr 1
    apply List.map_congr_left
    intro t ht
    exact blind.inTree_calls finishes running ht
  rw [state_under, ← own]
  apply grouped.foldl_eq'
  intro m hm m' hm' s
  exact blind.commute _ (registered m hm) _ (registered m' hm') _ _ s

/-- The run's outcome, with no schedule in it. -/
theorem OrderBlind.runIn (finishes : r.Finishes p (.parallel schedule) s)
    (running : r.stopped s = false) :
    r.runIn p (.parallel schedule) s =
      r.settle p
        (p.trees.zipIdx.map fun t => some (Yield.gather ((r.callsIn p s t).map (·.yield))))
        ((p.trees.zipIdx.flatMap (r.callsIn p s)).foldl (MadeCall.after p) s) := by
  rw [← blind.brought finishes running, ← blind.state finishes running]
  rfl

end Blind

end Runner

namespace Runner

theorem orderBlind_ofSettings (cfg : Settings) : (ofSettings cfg).OrderBlind := by
  have check : ∀ d ∈ (ofSettings cfg).detectors, ∀ c s,
      d.check c s = ((d.check c {}).1, s.counting (Rule.counted cfg d c)) :=
    fun d hd => Rule.check_of_builtin (List.mem_filter.mp hd).1
  have left : ∀ d ∈ (ofSettings cfg).detectors, ∀ c s,
      (d.check c s).2 = s.counting (Rule.counted cfg d c) :=
    fun d hd c s => congrArg Prod.snd (check d hd c s)
  refine ⟨?_, ?_, ?_⟩
  · intro d hd c s s'
    rw [check d hd c s, check d hd c s']
  · intro d hd e he c c' s
    rw [left d hd, left e he, left d hd, left e he]
    exact s.counting_comm _ _
  · intro d hd c s
    rw [left d hd]
    exact s.cancelled_counting _

end Runner

/-- Both classes are controllers with one endpoint. -/
def Program.twoControllers : Program where
  trees := Program.twoClasses.trees
  symbols :=
    let type (id : Nat) (name : String) : TypeSymbol :=
      { id, name, displayName := name, kind := .classType, special := .none }
    let endpoint : MemberSymbol :=
      { name := "Get", kind := .method, attributes := [⟨"HttpGet", some 2⟩] }
    let types : List TypeSymbol := [
        type 0 "Microsoft.AspNetCore.Mvc.ControllerBase",
        type 1 "Microsoft.AspNetCore.Mvc.Routing.IRouteTemplateProvider",
        { type 2 "HttpGet" with allInterfaces := [1] },
        { type 3 "A" with baseType := some 0, members := [endpoint], declared := [⟨0, 0, 0⟩] },
        { type 4 "B" with baseType := some 0, members := [endpoint], declared := [⟨1, 0, 0⟩] }]
    { types.foldl SymbolTable.push {} with
      declarations := [(⟨0, 0, 0⟩, 3), (⟨1, 0, 0⟩, 4)] }

namespace Runner

/-- Whatever the settings and the program, all schedules end in what the sequential run gives. -/
theorem parallel_eq_sequential (cfg : Settings) (p : Program) (schedule : List Nat) (s : RunState)
    (uncancelled : s.cancelled = false)
    (finishes : (ofSettings cfg).Finishes p (.parallel schedule) s) :
    (ofSettings cfg).runIn p (.parallel schedule) s = (ofSettings cfg).runIn p .sequential s := by
  have blind := orderBlind_ofSettings cfg
  obtain ⟨done, same⟩ := (ofSettings cfg).run_eq_treeByTree p s
  calc
    (ofSettings cfg).runIn p (.parallel schedule) s
      = (ofSettings cfg).runIn p (.parallel ((ofSettings cfg).treeByTree p.trees.zipIdx)) s := by
        rw [blind.runIn finishes uncancelled, blind.runIn done uncancelled]
    _ = (ofSettings cfg).runIn p .sequential s := same

theorem parallel_eq_sequential_twoControllers :
    (ofSettings {}).Finishes .twoControllers (.parallel [1, 0, 0, 1, 1, 0, 0, 1]) {} ∧
      (ofSettings {}).runIn .twoControllers (.parallel [1, 0, 0, 1, 1, 0, 0, 1]) {} =
        (ofSettings {}).runIn .twoControllers .sequential {} := by
  have finishes :
      (ofSettings {}).Finishes .twoControllers (.parallel [1, 0, 0, 1, 1, 0, 0, 1]) {} :=
    finishes_of_turns _ _ _ _ (by decide +kernel)
  exact ⟨finishes, parallel_eq_sequential {} .twoControllers _ {} rfl finishes⟩

end Runner
end Antipattern
