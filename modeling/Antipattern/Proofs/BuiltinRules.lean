import Antipattern.Analysis.Runner

/-!
What the calls of the built-in detectors do, whatever the state they meet. A node call answers from
the node alone and at most adds to the endpoint counter. Only the completion of the endpoint rule
reads the state, and every finding carries the id of the rule whose detector returned it.
-/

namespace Antipattern

namespace Tally

private theorem raise_raise (name : String) (a b : UInt64) (cs : List (String × UInt64)) :
    raise name b (raise name a cs) = raise name (a + b) cs := by
  induction cs with
  | nil => rfl
  | cons c cs ih =>
      obtain ⟨n, v⟩ := c
      by_cases h : name = n
      · simp [raise, h, UInt64.add_assoc]
      · simp [raise, h, ih]

/-- Two additions to a counter are one, whether or not the counter existed. -/
theorem add_add (t : Tally) (name : String) (a b : UInt64) :
    (t.add name a).add name b = t.add name (a + b) := by
  simp only [add_eq_createAndRaise]
  by_cases h : (t.counters.lookup name).isSome = true
  · have still : ((raise name a t.counters).lookup name).isSome = true := by
      rw [lookup_raise, Option.isSome_map]
      exact h
    simp [createAndRaise, h, still, raise_raise]
  · simp [createAndRaise, h, raise]

theorem latches_add (t : Tally) (name : String) (delta : UInt64) :
    (t.add name delta).latches = t.latches := by
  rw [add_eq_createAndRaise]
  unfold createAndRaise
  split <;> rfl

end Tally

namespace RunState

/-- Adds to the endpoint counter; nothing to add leaves no counter behind. -/
def counting (s : RunState) (n : Nat) : RunState :=
  if 0 < n then { s with tally := s.tally.add Rule.endpointsCounter (UInt64.ofNat n) } else s

def endpoints (s : RunState) : UInt64 :=
  s.tally.get Rule.endpointsCounter

@[simp] theorem cancelled_counting (s : RunState) (n : Nat) :
    (s.counting n).cancelled = s.cancelled := by
  unfold counting
  split <;> rfl

@[simp] theorem latches_counting (s : RunState) (n : Nat) :
    (s.counting n).tally.latches = s.tally.latches := by
  unfold counting
  split
  · exact Tally.latches_add _ _ _
  · rfl

theorem endpoints_counting (s : RunState) (n : Nat) :
    (s.counting n).endpoints = s.endpoints + UInt64.ofNat n := by
  unfold counting endpoints
  split
  · rw [Tally.get_add]
    simp
  · next h =>
      rw [Nat.eq_zero_of_not_pos h]
      simp

theorem counting_comm (s : RunState) (m n : Nat) :
    (s.counting m).counting n = (s.counting n).counting m := by
  unfold counting
  by_cases hm : 0 < m <;> by_cases hn : 0 < n <;> simp only [hm, hn, ite_true, ite_false]
  rw [Tally.add_add, Tally.add_add, UInt64.add_comm]

end RunState

namespace Rule

/-- What a detector's call on a node adds to the endpoint counter. -/
def counted (cfg : Settings) (d : Detector RunState) (c : NodeContext) : Nat :=
  if d.rule.id = nanoService.id then
    endpointsAt (.named cfg.knownTypes.controller) (.named cfg.knownTypes.routeProvider) c
  else 0

/-- The detectors behind the endpoint rule's. -/
def others (cfg : Settings) : List (Detector RunState) :=
  (allDetectors cfg).tail

theorem detectors_of_enabled {cfg : Settings} (enabled : cfg.isEnabled nanoService.id = true) :
    detectors cfg =
      nanoServiceDetector (.named cfg.knownTypes.controller) (.named cfg.knownTypes.routeProvider)
          cfg.thresholds.maxNanoServiceEndpoints ::
        (others cfg).filter fun d => cfg.isEnabled d.rule.id :=
  List.filter_cons_of_pos enabled

section Builtin

variable {cfg : Settings} {d : Detector RunState}

theorem check_of_builtin (hd : d ∈ allDetectors cfg) (c : NodeContext) (s : RunState) :
    d.check c s = ((d.check c {}).1, s.counting (counted cfg d c)) := by
  simp only [allDetectors, List.mem_cons, List.not_mem_nil, or_false] at hd
  rcases hd with rfl | rfl | rfl | rfl | rfl | rfl <;> rfl

theorem id_of_other (hd : d ∈ others cfg) : d.rule.id ≠ nanoService.id := by
  have ids : (others cfg).map (·.rule.id) = ["AP_2", "AP_3", "AP_4", "AP_5", "AP_6"] := rfl
  have listed := List.mem_map_of_mem (f := (·.rule.id)) hd
  rw [ids] at listed
  intro same
  rw [same] at listed
  exact absurd listed (by decide)

private theorem of_ofOption {o : Option Finding} {f : Finding}
    (h : Verdict.ofOption o = .finding f) : o = some f := by
  cases o with
  | none => cases h
  | some g =>
      cases h
      rfl

private theorem ruleId_of_finding {rule : Descriptor} {location : Location}
    {arguments : List String} {f : Finding} (h : rule.finding location arguments = f) :
    f.ruleId = rule.id := by
  rw [← h, Descriptor.finding]

/-- A node call returns a finding of its own rule, and the endpoint rule's returns none. -/
theorem ruleId_of_check (hd : d ∈ allDetectors cfg) {c : NodeContext} {s : RunState} {f : Finding}
    (h : (d.check c s).1 = .finding f) : d ∈ others cfg ∧ f.ruleId = d.rule.id := by
  rcases List.mem_cons.mp hd with rfl | hd
  · cases h
  · refine ⟨hd, ?_⟩
    simp only [List.mem_cons, List.not_mem_nil, or_false] at hd
    rcases hd with rfl | rfl | rfl | rfl | rfl
    · cases h
    · have found := of_ofOption h
      simp only [checkComplexity, Option.ite_none_right_eq_some, Option.bind_eq_some_iff,
        Option.some.injEq] at found
      obtain ⟨_, _, _, _, found⟩ := found
      exact ruleId_of_finding found
    · have found := of_ofOption h
      simp only [checkNaming, Option.ite_none_right_eq_some, Option.bind_eq_some_iff,
        Option.some.injEq] at found
      obtain ⟨_, _, _, _, found⟩ := found
      exact ruleId_of_finding found
    all_goals
      have found := of_ofOption h
      simp only [checkSize, Option.ite_none_right_eq_some, Option.some.injEq] at found
      obtain ⟨_, _, found⟩ := found
      exact ruleId_of_finding found

theorem complete_of_other (hd : d ∈ others cfg) (p : Program) (s : RunState) :
    (d.complete p s).2 = s ∧
      ∀ f, (d.complete p s).1 = .finding f → f.ruleId = d.rule.id := by
  simp only [others, allDetectors, List.tail_cons, List.mem_cons, List.not_mem_nil, or_false] at hd
  rcases hd with rfl | rfl | rfl | rfl | rfl
  · refine ⟨rfl, fun f h => ?_⟩
    have found := of_ofOption h
    simp only [judgeTotal, Option.ite_none_right_eq_some, Option.some.injEq] at found
    exact ruleId_of_finding found.2
  all_goals exact ⟨rfl, fun f h => by cases h⟩

end Builtin

/-- The state once the verdict was given. -/
def judged (s : RunState) : RunState :=
  { s with tally := { s.tally with latches := verdictLatch :: s.tally.latches } }

/-- The verdict on a total. -/
def verdict? (maxEndpoints total : Nat) : Option Finding :=
  if total ≤ maxEndpoints then
    some (nanoService.finding .none [toString total, toString maxEndpoints])
  else none

theorem judgeEndpoints_first {s : RunState} (free : verdictLatch ∉ s.tally.latches)
    (maxEndpoints : Nat) :
    judgeEndpoints maxEndpoints s = (verdict? maxEndpoints s.endpoints.toNat, judged s) := by
  have won : s.tally.tryLatch verdictLatch = (true, (judged s).tally) := by
    simp [Tally.tryLatch, free, judged]
  have total : (judged s).tally.get endpointsCounter = s.endpoints := rfl
  simp only [judgeEndpoints, won, total, verdict?, ite_true]
  by_cases few : s.endpoints.toNat ≤ maxEndpoints <;> simp only [few, ite_true, ite_false] <;> rfl

theorem ruleId_of_verdict {maxEndpoints total : Nat} {f : Finding}
    (h : verdict? maxEndpoints total = some f) :
    f.ruleId = nanoService.id ∧ f.location = .none := by
  simp only [verdict?, Option.ite_none_right_eq_some, Option.some.injEq] at h
  rw [← h.2]
  exact ⟨rfl, rfl⟩

theorem judgeEndpoints_again {s : RunState} (taken : verdictLatch ∈ s.tally.latches)
    (maxEndpoints : Nat) : judgeEndpoints maxEndpoints s = (none, s) := by
  simp [judgeEndpoints, Tally.tryLatch, taken]

end Rule
end Antipattern
