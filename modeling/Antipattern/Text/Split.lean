/-!
Cutting text at characters and at leading words. Nothing is lost: each cut states how its parts
give the text back.
-/

namespace Antipattern.Text

/-- The pieces between the separators; there is one piece more than there are separators. -/
def pieces (sep : Char) : List Char → List (List Char)
  | [] => [[]]
  | c :: cs =>
      if c = sep then [] :: pieces sep cs
      else match pieces sep cs with
        | [] => [[c]]
        | p :: ps => (c :: p) :: ps

/-- What follows the leading word `w`, if the text starts with it. -/
def after? : List Char → List Char → Option (List Char)
  | [], cs => some cs
  | w :: ws, c :: cs => if w = c then after? ws cs else none
  | _ :: _, [] => none

/-- Whether the text ends with the given ending. -/
def endsWith (ending cs : List Char) : Bool :=
  ending.reverse.isPrefixOf cs.reverse

/-- Whether `w` occurs somewhere in the text. -/
def occurs (w : List Char) : List Char → Bool
  | [] => w.isEmpty
  | c :: cs => w.isPrefixOf (c :: cs) || occurs w cs

/-- The text after the last separator; the whole text if there is none. -/
def afterLast (sep : Char) (cs : List Char) : List Char :=
  (cs.reverse.takeWhile (· ≠ sep)).reverse

/-- The text before the last separator; none if there is no separator. -/
def beforeLast? (sep : Char) (cs : List Char) : Option (List Char) :=
  match cs.reverse.dropWhile (· ≠ sep) with
  | [] => none
  | _ :: rest => some rest.reverse

/-- The lines of a text, each with the `\n` that ends it. -/
def linesKept : List Char → List (List Char)
  | [] => []
  | c :: cs =>
      if c = '\n' then [c] :: linesKept cs
      else match linesKept cs with
        | [] => [[c]]
        | l :: ls => (c :: l) :: ls

/-- Bytes of the text when it is stored as UTF-8. -/
def byteLength (cs : List Char) : Nat :=
  cs.foldr (fun c n => c.utf8Size + n) 0

@[simp] theorem byteLength_nil : byteLength [] = 0 := rfl

@[simp] theorem byteLength_cons (c : Char) (cs : List Char) :
    byteLength (c :: cs) = c.utf8Size + byteLength cs := rfl

@[simp] theorem byteLength_append (xs ys : List Char) :
    byteLength (xs ++ ys) = byteLength xs + byteLength ys := by
  induction xs with
  | nil => simp
  | cons x xs ih => simp [ih, Nat.add_assoc]

/-- Cuts a text after `n` bytes; a character that reaches beyond them stays in the rest. -/
def splitBytes : Nat → List Char → List Char × List Char
  | _, [] => ([], [])
  | n, c :: cs =>
      if c.utf8Size ≤ n then
        let (taken, rest) := splitBytes (n - c.utf8Size) cs
        (c :: taken, rest)
      else ([], c :: cs)

theorem splitBytes_byteLength (xs ys : List Char) :
    splitBytes (byteLength xs) (xs ++ ys) = (xs, ys) := by
  induction xs with
  | nil =>
      cases ys with
      | nil => rfl
      | cons y ys =>
          have hy := Char.utf8Size_pos y
          simp [splitBytes, show ¬ y.utf8Size ≤ 0 by omega]
  | cons x xs ih => simp [splitBytes, ih]

theorem linesKept_flatten (cs : List Char) : (linesKept cs).flatten = cs := by
  induction cs with
  | nil => rfl
  | cons c cs ih =>
      simp only [linesKept]
      split
      · simp [ih]
      · split <;> simp_all

theorem after?_eq_some_iff {w cs rest : List Char} :
    after? w cs = some rest ↔ cs = w ++ rest := by
  induction w generalizing cs with
  | nil => simp [after?, eq_comm]
  | cons x w ih =>
      cases cs with
      | nil => simp [after?]
      | cons c cs =>
          by_cases h : x = c
          · simp [after?, h, ih]
          · simp [after?, h, Ne.symm h]

end Antipattern.Text
