/-!
Sorting does not move ties past each other: whatever holds between the members of a list in their
order still holds between those that the order of the sort does not tell apart.
-/

namespace Antipattern

section

variable {α : Type} {le : α → α → Bool}
  (trans : ∀ a b c, le a b = true → le b c = true → le a c = true)
  (total : ∀ a b, (le a b || le b a) = true)
include trans total

/-- Members that stand in order already are not moved past each other. -/
theorem filter_mergeSort {l : List α} {keep : α → Bool}
    (h : (l.filter keep).Pairwise fun a b => le a b = true) :
    (l.mergeSort le).filter keep = l.filter keep := by
  have kept := (List.sublist_mergeSort trans total h List.filter_sublist).filter keep
  rw [List.filter_filter, show (fun x => keep x && keep x) = keep by simp] at kept
  exact (kept.eq_of_length (((List.mergeSort_perm l le).filter keep).length_eq).symm).symm

theorem pairwise_mergeSort_stable {R : α → α → Prop} {l : List α} (h : l.Pairwise R) :
    (l.mergeSort le).Pairwise fun a b => le a b = true ∧ (le b a = true → R a b) := by
  rw [List.pairwise_iff_forall_sublist]
  intro a b hab
  have sorted := List.pairwise_iff_forall_sublist.mp (List.pairwise_mergeSort trans total l) hab
  refine ⟨sorted, fun tie => ?_⟩
  -- the members that tie with `a` stand in the sorted list as they stand in `l`
  let tied (x : α) : Bool := le a x && le x a
  have same : (l.mergeSort le).filter tied = l.filter tied := by
    apply filter_mergeSort trans total
    rw [List.pairwise_iff_forall_sublist]
    intro x y hxy
    have hx := List.mem_filter.mp (hxy.subset List.mem_cons_self)
    have hy := List.mem_filter.mp (hxy.subset (List.mem_cons_of_mem x List.mem_cons_self))
    exact trans x a y (Bool.and_eq_true_iff.mp hx.2).2 (Bool.and_eq_true_iff.mp hy.2).1
  have pair : [a, b].Sublist (l.filter tied) := by
    have both := hab.filter tied
    rw [same] at both
    have self : le a a = true := by simpa using total a a
    simpa [tied, self, sorted, tie] using both
  exact List.pairwise_iff_forall_sublist.mp h (pair.trans List.filter_sublist)

/-- Sorting gives the arrangement that is strictly in order, if there is one. -/
theorem mergeSort_eq_of_perm {l m : List α} (perm : l.Perm m)
    (strict : m.Pairwise fun a b => le a b = true ∧ le b a = false) : l.mergeSort le = m := by
  have sorted := List.pairwise_mergeSort trans total l
  have same := (List.mergeSort_perm l le).trans perm
  have alike {a b : α} (ha : a ∈ m) (hb : b ∈ m) : le a b = true → le b a = true → a = b := by
    refine List.Pairwise.forall_of_forall_of_flip
      (R := fun a b => le a b = true → le b a = true → a = b) (fun _ _ _ _ => rfl) ?_ ?_ ha hb
    · exact strict.imp fun order _ back => by simp [order.2] at back
    · exact strict.imp fun order forth => by simp [order.2] at forth
  exact same.eq_of_pairwise (fun a b ha hb => alike (same.mem_iff.mp ha) hb) sorted
    (strict.imp And.left)

/-- The first member comes to stand between those that it does not precede and all others. -/
theorem mergeSort_cons_parts (a : α) (l : List α) :
    let low := (l.mergeSort le).filter fun b => !le a b
    let high := (l.mergeSort le).filter (le a)
    l.mergeSort le = low ++ high ∧ (a :: l).mergeSort le = low ++ a :: high := by
  obtain ⟨before, behind, sorted, rest, apart⟩ := List.mergeSort_cons trans total a l
  have follows : ∀ b ∈ behind, le a b = true := by
    have order := List.pairwise_mergeSort trans total (a :: l)
    rw [sorted, List.pairwise_append, List.pairwise_cons] at order
    exact order.2.1.1
  have low : (l.mergeSort le).filter (fun b => !le a b) = before := by
    rw [rest, List.filter_append, List.filter_eq_self.mpr apart,
      List.filter_eq_nil_iff.mpr fun b hb => by simp [follows b hb], List.append_nil]
  have high : (l.mergeSort le).filter (le a) = behind := by
    rw [rest, List.filter_append, List.filter_eq_self.mpr follows,
      List.filter_eq_nil_iff.mpr fun b hb => by simpa using apart b hb, List.nil_append]
  simp only [low, high]
  exact ⟨rest, sorted⟩

/-- A part of a list, sorted, is that part of the sorted list. -/
theorem mergeSort_filter (keep : α → Bool) (l : List α) :
    (l.filter keep).mergeSort le = (l.mergeSort le).filter keep := by
  induction l with
  | nil => simp
  | cons a l ih =>
      have swap (q : α → Bool) :
          ((l.mergeSort le).filter q).filter keep = ((l.filter keep).mergeSort le).filter q := by
        rw [ih]
        simp only [List.filter_filter, Bool.and_comm]
      obtain ⟨rest, sorted⟩ := mergeSort_cons_parts trans total a l
      by_cases kept : keep a = true
      · rw [List.filter_cons_of_pos kept, sorted, List.filter_append, List.filter_cons_of_pos kept,
          swap, swap]
        exact (mergeSort_cons_parts trans total a (l.filter keep)).2
      · rw [List.filter_cons_of_neg kept, sorted, List.filter_append, List.filter_cons_of_neg kept,
          ← List.filter_append, ← rest, ih]

end

end Antipattern
