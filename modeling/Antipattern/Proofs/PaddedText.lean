import Antipattern.Text.Blank
import Antipattern.Text.Split

/-!
Words between blanks. Trimming takes exactly the blanks around a word away, and cutting at a
separator gives back the words that were joined with it. The blanks that a text may have at a place,
and the items that a separator joins, are values of their own, so that a written text is a function
of them.
-/

namespace Antipattern.Text

def AllBlank (cs : List Char) : Prop :=
  ∀ c ∈ cs, isBlank c = true

theorem allBlank_nil : AllBlank [] :=
  nofun

theorem AllBlank.append {xs ys : List Char} (hx : AllBlank xs) (hy : AllBlank ys) :
    AllBlank (xs ++ ys) := by
  intro c hc
  exact (List.mem_append.mp hc).elim (hx c) (hy c)

/-- A text that neither begins nor ends with a blank. -/
structure Snug (cs : List Char) : Prop where
  head : ∀ c ∈ cs.head?, isBlank c = false
  last : ∀ c ∈ cs.getLast?, isBlank c = false

/-- Characters of one kind, none or more. -/
structure Padding (kind : Char → Bool) where
  chars : List Char
  only : ∀ c ∈ chars, kind c = true

/-- At least one character of a kind. -/
structure Gap (kind : Char → Bool) extends Padding kind where
  nonempty : chars ≠ []

/-- A further item of a list, with what stands around the separator before it. -/
structure Further (kind : Char → Bool) (α : Type) where
  before : Padding kind
  behind : Padding kind
  item : α

def Further.text {kind : Char → Bool} {α : Type} (sep : Char) (itemText : α → List Char)
    (f : Further kind α) : List Char :=
  f.before.chars ++ sep :: (f.behind.chars ++ itemText f.item)

variable {cs pad : List Char}

theorem Snug.reverse (h : Snug cs) : Snug cs.reverse where
  head c hc := h.last c (by simpa using hc)
  last c hc := h.head c (by simpa using hc)

theorem trimStart_pad (blank : AllBlank pad) (cs : List Char) :
    trimStart (pad ++ cs) = trimStart cs :=
  List.dropWhile_append_of_pos blank

theorem trimStart_of_head (head : ∀ c ∈ cs.head?, isBlank c = false) : trimStart cs = cs := by
  cases cs with
  | nil => rfl
  | cons c cs => exact List.dropWhile_cons_of_neg (by simp [head c rfl])

theorem trimEnd_eq (cs : List Char) : trimEnd cs = (trimStart cs.reverse).reverse := rfl

theorem trimEnd_pad (blank : AllBlank pad) (cs : List Char) :
    trimEnd (cs ++ pad) = trimEnd cs := by
  have reversed : AllBlank pad.reverse := fun c hc => blank c (List.mem_reverse.mp hc)
  rw [trimEnd_eq, List.reverse_append, trimStart_pad reversed, ← trimEnd_eq]

theorem Snug.trimEnd_eq (h : Snug cs) : trimEnd cs = cs := by
  rw [Text.trimEnd_eq, trimStart_of_head h.reverse.head, List.reverse_reverse]

theorem trim_blank (blank : AllBlank pad) : trim pad = [] := by
  have whole : trimStart (pad ++ []) = [] := trimStart_pad blank []
  rw [List.append_nil] at whole
  rw [trim, whole]
  rfl

/-- Trimming takes the blanks around a text away and no more. -/
theorem Snug.trim_padded (h : Snug cs) {before behind : List Char} (hb : AllBlank before)
    (ha : AllBlank behind) : trim (before ++ cs ++ behind) = cs := by
  cases cs with
  | nil =>
      rw [List.append_nil]
      exact trim_blank (hb.append ha)
  | cons c cs =>
      have head : ∀ d ∈ (c :: cs ++ behind).head?, isBlank d = false := h.head
      rw [trim, List.append_assoc, trimStart_pad hb, trimStart_of_head head, trimEnd_pad ha,
        h.trimEnd_eq]

theorem Snug.trim_append (h : Snug cs) (blank : AllBlank pad) : trim (cs ++ pad) = cs :=
  h.trim_padded allBlank_nil blank

theorem removeBlanks_blank (blank : AllBlank pad) : removeBlanks pad = [] := by
  rw [removeBlanks, List.filter_eq_nil_iff]
  intro c hc
  simp [blank c hc]

theorem removeBlanks_of_not_blank (h : ∀ c ∈ cs, isBlank c = false) : removeBlanks cs = cs := by
  rw [removeBlanks, List.filter_eq_self]
  intro c hc
  simp [h c hc]

theorem after?_append (w rest : List Char) : after? w (w ++ rest) = some rest :=
  after?_eq_some_iff.mpr rfl

theorem pieces_of_not_mem {sep : Char} (h : sep ∉ cs) : pieces sep cs = [cs] := by
  induction cs with
  | nil => rfl
  | cons c cs ih =>
      rw [List.mem_cons, not_or] at h
      rw [pieces, if_neg (Ne.symm h.1), ih h.2]

theorem pieces_append_sep {sep : Char} (h : sep ∉ cs) (rest : List Char) :
    pieces sep (cs ++ sep :: rest) = cs :: pieces sep rest := by
  induction cs with
  | nil => rw [List.nil_append, pieces, if_pos rfl]
  | cons c cs ih =>
      rw [List.mem_cons, not_or] at h
      rw [List.cons_append, pieces, if_neg (Ne.symm h.1), ih h.2]

end Antipattern.Text
