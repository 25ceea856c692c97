import Antipattern.Proofs.EndpointVerdict

/-!
A tally that threads share. An addition takes one step if its counter exists. Otherwise its first
step only finds that out, and a later one makes the addition and creates the counter, unless
another thread has done so in between. However the steps interleave, every addition counts once
and a latch goes to the first who tries for it.
-/

namespace Antipattern

theorem totalOf_perm {α : Type} (f : α → Nat) {xs ys : List α} (same : xs.Perm ys) :
    totalOf f xs = totalOf f ys := by
  induction same with
  | nil => rfl
  | cons x _ ih => rw [totalOf, totalOf, ih]
  | swap x y xs => simp only [totalOf, Nat.add_left_comm]
  | trans _ _ first second => exact first.trans second

/-- What holds at each place of a list holds at each place of a longer one if it holds at the new
end. -/
theorem forall_split_concat {α : Type} {P : List α → α → Prop} {xs : List α} {last : α}
    (old : ∀ before x after, xs = before ++ x :: after → P before x) (new : P xs last) :
    ∀ before x after, xs ++ [last] = before ++ x :: after → P before x := by
  intro before x after split
  rcases List.eq_nil_or_concat after with rfl | ⟨after, y, rfl⟩
  · obtain ⟨rfl, same⟩ := List.append_inj' split rfl
    exact List.singleton_inj.mp same ▸ new
  · rw [List.concat_eq_append, ← List.cons_append, ← List.append_assoc] at split
    exact old before x after (List.append_inj' split rfl).1

namespace Tally

inductive Request where
  | add (name : String) (delta : UInt64)
  | get (name : String)
  | tryLatch (name : String)

/-- What a step of a thread comes to. -/
inductive Event where
  /-- The thread asked for nothing. -/
  | rested
  /-- An addition was called and found no counter. -/
  | missed (name : String) (delta : UInt64)
  /-- An addition was made, `late` if by its second step. -/
  | added (name : String) (delta : UInt64) (late : Bool)
  | read (name : String) (value : UInt64)
  | latched (name : String) (won : Bool)
deriving DecidableEq

namespace Event

def called? : Event → Option (String × UInt64)
  | .missed name delta | .added name delta false => some (name, delta)
  | _ => none

def made? : Event → Option (String × UInt64)
  | .added name delta _ => some (name, delta)
  | _ => none

/-- The answer to an attempt at the latch. -/
def attempt? (name : String) : Event → Option Bool
  | .latched n won => if n = name then some won else none
  | _ => none

def missed? : Event → Option (String × UInt64)
  | .missed name delta => some (name, delta)
  | _ => none

/-- The addition that a thread with these events still has to make. -/
def owed? (own : List Event) : Option (String × UInt64) :=
  own.getLast?.bind missed?

theorem owed?_append (own : List Event) (e : Event) : owed? (own ++ [e]) = e.missed? := by
  simp [owed?]

end Event

/-- A thread asks by what it has met so far, and may stop. -/
abbrev Thread := List Event → Option Request

/-- What a thread meets next is the answer to what it asks for, unless it still owes an addition. -/
def Event.Answers (thread : Thread) (own : List Event) : Event → Prop
  | .rested => owed? own = none ∧ thread own = none
  | .missed name delta | .added name delta false =>
      owed? own = none ∧ thread own = some (.add name delta)
  | .added name delta true => owed? own = some (name, delta)
  | .read name _ => owed? own = none ∧ thread own = some (.get name)
  | .latched name _ => owed? own = none ∧ thread own = some (.tryLatch name)

/-- The next step of a thread that has met these events. -/
def turn (thread : Thread) (own : List Event) (t : Tally) : Event × Tally :=
  match Event.owed? own, thread own with
  | some (name, delta), _ => (.added name delta true, t.createAndRaise name delta)
  | none, none => (.rested, t)
  | none, some (.add name delta) =>
      match t.raise? name delta with
      | some t => (.added name delta false, t)
      | none => (.missed name delta, t)
  | none, some (.get name) => (.read name (t.get name), t)
  | none, some (.tryLatch name) => (.latched name (t.tryLatch name).1, (t.tryLatch name).2)

/-- What a turn can be, and what it does to the tally. -/
inductive TurnStep (own : List Event) (t : Tally) : Event × Tally → Prop
  | rest (free : Event.owed? own = none) : TurnStep own t (.rested, t)
  | miss (name : String) (delta : UInt64) (free : Event.owed? own = none) :
      TurnStep own t (.missed name delta, t)
  | add (name : String) (delta : UInt64) (late : Bool)
      (due : Event.owed? own = if late then some (name, delta) else none) :
      TurnStep own t (.added name delta late, t.add name delta)
  | read (name : String) (free : Event.owed? own = none) :
      TurnStep own t (.read name (t.get name), t)
  | win (name : String) (free : Event.owed? own = none) (untaken : name ∉ t.latches) :
      TurnStep own t (.latched name true, { t with latches := name :: t.latches })
  | lose (name : String) (free : Event.owed? own = none) (taken : name ∈ t.latches) :
      TurnStep own t (.latched name false, t)

theorem turn_spec (thread : Thread) (own : List Event) (t : Tally) :
    TurnStep own t (turn thread own t) := by
  unfold turn
  split
  · next name delta owed =>
      rw [← add_eq_createAndRaise]
      exact .add name delta true owed
  · next free _ => exact .rest free
  · next name delta free _ =>
      cases quick : t.raise? name delta with
      | none => exact .miss name delta free
      | some after =>
          have same : t.add name delta = after := by rw [add, quick, Option.getD_some]
          rw [← same]
          exact .add name delta false free
  · next name free _ => exact .read name free
  · next name free _ =>
      by_cases taken : name ∈ t.latches
      · simpa [tryLatch, taken] using TurnStep.lose name free taken
      · simpa [tryLatch, taken] using TurnStep.win name free taken

theorem answers_turn (thread : Thread) (own : List Event) (t : Tally) :
    (turn thread own t).1.Answers thread own := by
  unfold turn
  split
  · next owed => exact owed
  · next free asked => exact ⟨free, asked⟩
  · next name delta free asked =>
      cases t.raise? name delta with
      | none => exact ⟨free, asked⟩
      | some after => exact ⟨free, asked⟩
  · next free asked => exact ⟨free, asked⟩
  · next free asked => exact ⟨free, asked⟩

/-- A tally and what its threads did to it so far. -/
structure Sharing where
  tally : Tally := {}
  log : List (Nat × Event) := []

namespace Sharing

/-- The events of one thread. -/
def own (log : List (Nat × Event)) (i : Nat) : List Event :=
  (log.filter (·.1 == i)).map (·.2)

def step (threads : Nat → Thread) (s : Sharing) (i : Nat) : Sharing :=
  let next := turn (threads i) (own s.log i) s.tally
  ⟨next.2, s.log ++ [(i, next.1)]⟩

/-- The threads take their steps in the order of the schedule. -/
def run (threads : Nat → Thread) (schedule : List Nat) : Sharing :=
  schedule.foldl (step threads) {}

def called (log : List (Nat × Event)) : List (String × UInt64) :=
  log.filterMap (·.2.called?)

def made (log : List (Nat × Event)) : List (String × UInt64) :=
  log.filterMap (·.2.made?)

/-- The sum of the additions to one counter. -/
def sumTo (name : String) (additions : List (String × UInt64)) : Nat :=
  totalOf (fun a => if a.1 = name then a.2.toNat else 0) additions

def attempts (name : String) (log : List (Nat × Event)) : List Bool :=
  log.filterMap (·.2.attempt? name)

/-- Who tried for a latch that is taken: the first with success, the others without. -/
def Latching (name : String) (latches : List String) (answers : List Bool) : Prop :=
  (name ∉ latches → answers = []) ∧
    (name ∈ latches → ∃ k, answers = true :: List.replicate k false)

theorem attempts_append (name : String) (log : List (Nat × Event)) (i : Nat) (e : Event) :
    attempts name (log ++ [(i, e)]) = attempts name log ++ (e.attempt? name).toList := by
  cases h : e.attempt? name <;> simp [attempts, h]

theorem made_append (log : List (Nat × Event)) (i : Nat) (e : Event) :
    made (log ++ [(i, e)]) = made log ++ e.made?.toList := by
  cases h : e.made? <;> simp [made, h]

theorem sumTo_append (name : String) (xs ys : List (String × UInt64)) :
    sumTo name (xs ++ ys) = sumTo name xs + sumTo name ys :=
  totalOf_append _ xs ys

section OneTurn

variable {log : List (Nat × Event)} {i : Nat} {t : Tally} {next : Event × Tally}
  (turn : TurnStep (own log i) t next)
include turn

/-- A turn leaves a counter as it is, unless it makes an addition to it. -/
theorem lookup_of_turn {name : String} (other : ∀ delta late, next.1 ≠ .added name delta late) :
    next.2.counters.lookup name = t.counters.lookup name := by
  cases turn with
  | rest | miss | read | win | lose => rfl
  | add n delta late due =>
      have apart : name ≠ n := by
        rintro rfl
        exact other delta late rfl
      rw [add_eq_createAndRaise, createAndRaise]
      split
      · cases h : t.counters.lookup name <;> simp [lookup_raise, h, apart]
      · simp [List.lookup_cons, beq_eq_false_iff_ne.mpr apart]

/-- A turn leaves a latch as it is, unless it tries for it. -/
theorem latch_of_turn {name : String} (other : ∀ won, next.1 ≠ .latched name won) :
    name ∈ next.2.latches ↔ name ∈ t.latches := by
  cases turn with
  | rest | miss | read | lose => rfl
  | add n delta => rw [latches_add]
  | win n =>
      have apart : name ≠ n := by
        rintro rfl
        exact other true rfl
      simp [apart]

theorem counter_of_turn {name : String}
    (exact : (t.get name).toNat = sumTo name (made log) % UInt64.size) :
    (next.2.get name).toNat = sumTo name (made (log ++ [(i, next.1)])) % UInt64.size := by
  rw [made_append]
  cases turn with
  | rest | miss | read | lose | win => simpa [Event.made?, get] using exact
  | add n delta late due =>
      rw [sumTo_append, get_add]
      by_cases h : name = n
      · subst h
        simp [Event.made?, sumTo, totalOf, UInt64.toNat_add, exact, UInt64.size]
      · simpa [Event.made?, sumTo, totalOf, h, Ne.symm h] using exact

theorem latching_of_turn {name : String} (latching : Latching name t.latches (attempts name log)) :
    Latching name next.2.latches (attempts name (log ++ [(i, next.1)])) := by
  rw [attempts_append]
  cases turn with
  | rest | miss | read => simpa [Event.attempt?] using latching
  | add n delta => simpa [Event.attempt?, latches_add] using latching
  | win n _ untaken =>
      by_cases h : n = name
      · subst h
        simp [Latching, Event.attempt?, latching.1 untaken]
      · simpa [Latching, Event.attempt?, h, Ne.symm h] using latching
  | lose n _ taken =>
      by_cases h : n = name
      · subst h
        obtain ⟨k, hk⟩ := latching.2 taken
        refine ⟨fun untaken => absurd taken untaken, fun _ => ⟨k + 1, ?_⟩⟩
        simp [hk, Event.attempt?, List.replicate_succ']
      · simpa [Event.attempt?, h] using latching

/-- Of the additions that a thread called, all are made but the one it owes. -/
theorem called_of_turn
    (paid : (own log i).filterMap Event.called? =
      (own log i).filterMap Event.made? ++ (Event.owed? (own log i)).toList) :
    (own log i ++ [next.1]).filterMap Event.called? =
      (own log i ++ [next.1]).filterMap Event.made? ++
        (Event.owed? (own log i ++ [next.1])).toList := by
  rw [List.filterMap_append, List.filterMap_append, Event.owed?_append, paid]
  cases turn with
  | rest free | read _ free | win _ free | lose _ free | miss _ _ free =>
      simp [free, List.filterMap_cons, Event.called?, Event.made?, Event.missed?]
  | add name delta late due =>
      cases late <;> simp [due, List.filterMap_cons, Event.called?, Event.made?, Event.missed?]

end OneTurn

theorem own_append (log : List (Nat × Event)) (i j : Nat) (e : Event) :
    own (log ++ [(i, e)]) j = own log j ++ if i = j then [e] else [] := by
  by_cases h : i = j <;> simp [own, h]

/-- What a log says about the threads and the tally that their steps have left behind. -/
structure Exact (threads : Nat → Thread) (s : Sharing) : Prop where
  answers : ∀ before x after, s.log = before ++ x :: after →
    x.2.Answers (threads x.1) (own before x.1)
  counter : ∀ name, (s.tally.get name).toNat = sumTo name (made s.log) % UInt64.size
  read : ∀ before x after, s.log = before ++ x :: after → ∀ name value, x.2 = .read name value →
    value.toNat = sumTo name (made before) % UInt64.size
  latching : ∀ name, Latching name s.tally.latches (attempts name s.log)
  paid : ∀ i, (own s.log i).filterMap Event.called? =
    (own s.log i).filterMap Event.made? ++ (Event.owed? (own s.log i)).toList

theorem Exact.step {threads : Nat → Thread} {s : Sharing} (h : Exact threads s) (i : Nat) :
    Exact threads (s.step threads i) := by
  have spec := turn_spec (threads i) (own s.log i) s.tally
  have answers := answers_turn (threads i) (own s.log i) s.tally
  unfold Sharing.step
  generalize turn (threads i) (own s.log i) s.tally = next at spec answers
  refine ⟨forall_split_concat h.answers answers, fun name => counter_of_turn spec (h.counter name),
    forall_split_concat h.read fun name value event => ?_,
    fun name => latching_of_turn spec (h.latching name), fun j => ?_⟩
  · cases spec with
    | read n =>
        cases event
        exact h.counter name
    | rest | miss | add | win | lose => cases event
  · rw [own_append]
    by_cases same : i = j
    · subst same
      simpa only [ite_true] using called_of_turn spec (h.paid i)
    · simpa only [same, ite_false, List.append_nil] using h.paid j

theorem exact_run (threads : Nat → Thread) (schedule : List Nat) :
    Exact threads (run threads schedule) := by
  have start : Exact threads {} := by
    refine ⟨?_, fun _ => rfl, ?_, fun _ => ⟨fun _ => rfl, nofun⟩, fun _ => rfl⟩
    · intro before x after split
      cases before <;> cases split
    · intro before x after split
      cases before <;> cases split
  unfold run
  generalize ({} : Sharing) = s at start
  induction schedule generalizing s with
  | nil => exact start
  | cons i schedule ih => exact ih _ (start.step i)

/-- Every step of the schedule is logged, as one of the thread whose turn it is. -/
theorem threads_of_run (threads : Nat → Thread) (schedule : List Nat) :
    (run threads schedule).log.map (·.1) = schedule := by
  have steps : ∀ s : Sharing, (schedule.foldl (step threads) s).log.map (·.1) =
      s.log.map (·.1) ++ schedule := by
    induction schedule with
    | nil => simp
    | cons i schedule ih =>
        intro s
        rw [List.foldl_cons, ih, Sharing.step, List.map_append, List.append_assoc]
        rfl
  exact steps {}

/-- If each thread made just the additions that it called, so did all of them together. -/
theorem made_perm_called {log : List (Nat × Event)}
    (same : ∀ i, (own log i).filterMap Event.called? = (own log i).filterMap Event.made?) :
    (made log).Perm (called log) := by
  -- With the threads' numbers the two lists hold every addition equally often.
  have tagged : ∀ (f : Event → Option (String × UInt64)) (i : Nat) (a : String × UInt64),
      (log.filterMap fun x => (f x.2).map (x.1, ·)).count (i, a) =
        ((own log i).filterMap f).count a := by
    intro f i a
    clear same
    induction log with
    | nil => rfl
    | cons x log ih =>
        obtain ⟨j, e⟩ := x
        cases hf : f e <;> by_cases h : j = i <;> simp_all [own, List.count_cons]
  have untag : ∀ f : Event → Option (String × UInt64),
      (log.filterMap fun x => (f x.2).map (x.1, ·)).map (·.2) = log.filterMap fun x => f x.2 := by
    intro f
    rw [List.map_filterMap]
    congr 1
    funext x
    cases f x.2 <;> rfl
  rw [made, called, ← untag, ← untag]
  apply List.Perm.map
  apply List.perm_iff_count.mpr
  intro x
  rw [tagged, tagged, same]

/-- Threads that share a tally, whatever they ask for and in whatever order their steps come. -/
theorem tally_of_threads (threads : Nat → Thread) (schedule : List Nat) :
    let s := run threads schedule
    -- The log shows the threads' turns, each with the answer to what the thread asked for.
    s.log.map (·.1) = schedule ∧
    (∀ before i event after, s.log = before ++ (i, event) :: after →
      event.Answers (threads i) (own before i)) ∧
    -- With no addition half done, a counter is the sum of all additions called.
    ((∀ i, Event.owed? (own s.log i) = none) →
      ∀ name, (s.tally.get name).toNat = sumTo name (called s.log) % UInt64.size) ∧
    -- A value read is the sum of the additions made before.
    (∀ before i name value after, s.log = before ++ (i, .read name value) :: after →
      value.toNat = sumTo name (made before) % UInt64.size) ∧
    -- The next step, of whichever thread, changes what its own request names and nothing else.
    (∀ i name, let next := turn (threads i) (own s.log i) s.tally
      ((∀ delta late, next.1 ≠ .added name delta late) →
        next.2.counters.lookup name = s.tally.counters.lookup name) ∧
      ((∀ won, next.1 ≠ .latched name won) →
        (name ∈ next.2.latches ↔ name ∈ s.tally.latches))) ∧
    -- Of the attempts at a latch the first wins and no other.
    ∀ name, attempts name s.log = [] ∨
      ∃ k, attempts name s.log = true :: List.replicate k false := by
  intro s
  have h := exact_run threads schedule
  refine ⟨threads_of_run threads schedule, fun before i event => h.answers before (i, event), ?_,
    fun before i name value after split => h.read before _ after split name value rfl, ?_, ?_⟩
  · intro settled name
    have all : (made s.log).Perm (called s.log) := by
      apply made_perm_called
      intro i
      rw [h.paid i, settled i, Option.toList_none, List.append_nil]
    have total : sumTo name (made s.log) = sumTo name (called s.log) := totalOf_perm _ all
    rw [← total]
    exact h.counter name
  · intro i name
    have spec := turn_spec (threads i) (own s.log i) s.tally
    exact ⟨lookup_of_turn spec, latch_of_turn spec⟩
  · intro name
    by_cases taken : name ∈ s.tally.latches
    · exact .inr ((h.latching name).2 taken)
    · exact .inl ((h.latching name).1 taken)

/-- Two threads that count the same three endpoints and then try for the verdict. -/
def racing (_ : Nat) : Thread := fun own =>
  match own.length with
  | 0 => some (.add "endpoints" 3)
  | 2 => some (.tryLatch "verdict")
  | _ => none

theorem tally_of_threads_racing :
    let s := run racing [0, 1, 1, 0, 1, 0]
    (∀ i, Event.owed? (own s.log i) = none) ∧ (s.tally.get "endpoints").toNat = 6 ∧
      attempts "verdict" s.log = [true, false] := by
  intro s
  have log : s.log = [(0, .missed "endpoints" 3), (1, .missed "endpoints" 3),
      (1, .added "endpoints" 3 true), (0, .added "endpoints" 3 true), (1, .latched "verdict" true),
      (0, .latched "verdict" false)] := by
    decide +kernel
  have settled : ∀ i, Event.owed? (own s.log i) = none := by
    intro i
    rw [log]
    rcases i with _ | _ | i <;> rfl
  have sum := (tally_of_threads racing [0, 1, 1, 0, 1, 0]).2.2.1 settled "endpoints"
  refine ⟨settled, ?_, ?_⟩
  · rw [sum, log]
    decide +kernel
  · rw [log]
    decide +kernel

end Sharing
end Tally
end Antipattern
