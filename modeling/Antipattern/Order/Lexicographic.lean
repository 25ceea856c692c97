/-!
The order of lists by their first difference. A list stands before the lists that continue it.
-/

namespace Antipattern

def lexLE {α : Type} [DecidableEq α] (lt : α → α → Bool) : List α → List α → Bool
  | [], _ => true
  | _ :: _, [] => false
  | a :: as, b :: bs => if a = b then lexLE lt as bs else lt a b

@[simp] theorem lexLE_self {α : Type} [DecidableEq α] (lt : α → α → Bool) (as : List α) :
    lexLE lt as as = true := by
  induction as with
  | nil => rfl
  | cons a as ih => simp [lexLE, ih]

theorem lexLE_iff_not_lex (as bs : List Nat) :
    lexLE Nat.blt as bs = true ↔ ¬ List.Lex (· < ·) bs as := by
  induction as generalizing bs with
  | nil => simp [lexLE]
  | cons a as ih =>
      cases bs with
      | nil => simp [lexLE]
      | cons b bs =>
          rw [List.not_cons_lex_cons_iff, ← ih bs, lexLE]
          by_cases h : a = b
          · simp [h]
          · simp [h, Ne.symm h, Nat.blt_eq]
            omega

/-- The order of texts by code points. -/
def textLE (a b : String) : Bool :=
  lexLE Nat.blt (a.toList.map Char.toNat) (b.toList.map Char.toNat)

/-- Puts a text into texts that stand in order, unless it is there. -/
def insertText (s : String) : List String → List String
  | [] => [s]
  | t :: ts =>
      if s = t then t :: ts
      else if textLE s t then s :: t :: ts
      else t :: insertText s ts

end Antipattern
