/-!
Counters and latches that the rules of one run share. Counters are 64-bit words and wrap; a latch
can be taken once.
-/

namespace Antipattern

structure Tally where
  counters : List (String × UInt64) := []
  latches : List String := []
deriving DecidableEq, Inhabited

namespace Tally

def get (t : Tally) (name : String) : UInt64 :=
  (t.counters.lookup name).getD 0

/-- Adds to a counter that exists. -/
def raise (name : String) (delta : UInt64) : List (String × UInt64) → List (String × UInt64)
  | [] => []
  | (n, v) :: rest => if name = n then (n, v + delta) :: rest else (n, v) :: raise name delta rest

/-- The quick step of an addition: it succeeds only if the counter exists. -/
def raise? (t : Tally) (name : String) (delta : UInt64) : Option Tally :=
  if (t.counters.lookup name).isSome then
    some { t with counters := raise name delta t.counters }
  else none

/-- The slow step of an addition: creates the counter at zero if it is missing, then adds. -/
def createAndRaise (t : Tally) (name : String) (delta : UInt64) : Tally :=
  if (t.counters.lookup name).isSome then
    { t with counters := raise name delta t.counters }
  else { t with counters := (name, delta) :: t.counters }

def add (t : Tally) (name : String) (delta : UInt64) : Tally :=
  (t.raise? name delta).getD (t.createAndRaise name delta)

/-- Takes a latch; true for the first taker only. -/
def tryLatch (t : Tally) (name : String) : Bool × Tally :=
  if t.latches.contains name then (false, t)
  else (true, { t with latches := name :: t.latches })

theorem add_eq_createAndRaise (t : Tally) (name : String) (delta : UInt64) :
    t.add name delta = t.createAndRaise name delta := by
  unfold add raise? createAndRaise
  split <;> rfl

theorem lookup_raise (name other : String) (delta : UInt64) (cs : List (String × UInt64)) :
    (raise name delta cs).lookup other =
      (cs.lookup other).map fun v => if other = name then v + delta else v := by
  induction cs with
  | nil => rfl
  | cons c cs ih =>
      obtain ⟨n, v⟩ := c
      by_cases hn : name = n
      · subst hn
        by_cases ho : other = name
        · subst ho
          simp [raise]
        · simp [raise, List.lookup_cons, beq_eq_false_iff_ne.mpr ho]
          cases cs.lookup other <;> simp [ho]
      · by_cases ho : other = n
        · subst ho
          simp [raise, hn, Ne.symm hn]
        · simp [raise, hn, List.lookup_cons, beq_eq_false_iff_ne.mpr ho, ih]

theorem get_add (t : Tally) (name other : String) (delta : UInt64) :
    (t.add name delta).get other = if other = name then t.get other + delta else t.get other := by
  rw [add_eq_createAndRaise]
  unfold createAndRaise get
  split
  · next h =>
      simp only [lookup_raise]
      by_cases ho : other = name
      · subst ho
        obtain ⟨v, hv⟩ := Option.isSome_iff_exists.mp h
        simp [hv]
      · cases t.counters.lookup other <;> simp [ho]
  · next h =>
      by_cases ho : other = name
      · subst ho
        have hnone : t.counters.lookup other = none := Option.not_isSome_iff_eq_none.mp h
        simp [hnone]
      · simp [List.lookup_cons, beq_eq_false_iff_ne.mpr ho, ho]

end Tally
end Antipattern
