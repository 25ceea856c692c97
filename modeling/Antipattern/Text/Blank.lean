/-!
Blank characters and the text operations that depend on them. Texts are lists of characters here;
the wrappers on `String` stand beside each operation that names and settings need.
-/

namespace Antipattern.Text

/-- Blank characters: tab to carriage return, the space, the next-line and no-break characters and
the wide, thin and separating spaces. -/
def isBlank (c : Char) : Bool :=
  let n := c.toNat
  (0x9 ≤ n && n ≤ 0xD) || n == 0x20 || n == 0x85 || n == 0xA0 || n == 0x1680 ||
    (0x2000 ≤ n && n ≤ 0x200A) || n == 0x2028 || n == 0x2029 || n == 0x202F || n == 0x205F ||
    n == 0x3000

def trimStart (cs : List Char) : List Char :=
  cs.dropWhile isBlank

def trimEnd (cs : List Char) : List Char :=
  (cs.reverse.dropWhile isBlank).reverse

def trim (cs : List Char) : List Char :=
  trimEnd (trimStart cs)

def removeBlanks (cs : List Char) : List Char :=
  cs.filter fun c => !isBlank c

/-- The name without its blanks. -/
def withoutBlanks (s : String) : String :=
  String.ofList (removeBlanks s.toList)

@[simp] theorem toList_withoutBlanks (s : String) :
    (withoutBlanks s).toList = removeBlanks s.toList := by
  simp [withoutBlanks]

theorem removeBlanks_append (xs ys : List Char) :
    removeBlanks (xs ++ ys) = removeBlanks xs ++ removeBlanks ys := by
  simp [removeBlanks]

end Antipattern.Text
