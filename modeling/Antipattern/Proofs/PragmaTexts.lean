import Antipattern.Proofs.PaddedText
import Antipattern.Syntax.Pragma

/-!
Warning pragmas as they are written. However a pragma is spaced, and whatever comment follows it,
reading it gives its action and the rules it names in their order. So a pragma that names a rule is
never taken for one that names none and so means all.
-/

namespace Antipattern.Pragma

open Text

def isSpaceOrTab (c : Char) : Bool :=
  c = ' ' || c = '\t'

/-- A rule id as a pragma can name it. -/
structure RuleName where
  text : String
  nonempty : text.toList ≠ []
  snug : Snug text.toList
  plain : ∀ c ∈ text.toList, c ≠ ',' ∧ c ≠ '/' ∧ c ≠ '\r' ∧ c ≠ '\n'

inductive NameList where
  | none
  | names (gap : Gap isSpaceOrTab) (first : RuleName)
      (others : List (Further isSpaceOrTab RuleName))

/-- A rule id with the comma before it. -/
def furtherText : Further isSpaceOrTab RuleName → List Char :=
  Further.text ',' (·.text.toList)

namespace NameList

def rules : NameList → List String
  | none => []
  | names _ first others => first.text :: others.map (·.item.text)

def text : NameList → List Char
  | none => []
  | names gap first others => gap.chars ++ first.text.toList ++ others.flatMap furtherText

end NameList

/-- The line breaks of C#. -/
inductive LineBreak where
  | lineFeed
  | carriageReturn
  | both
  | nextLine
  | lineSeparator
  | paragraphSeparator

def LineBreak.text : LineBreak → List Char
  | lineFeed => ['\n']
  | carriageReturn => ['\r']
  | both => ['\r', '\n']
  | nextLine => ['\u0085']
  | lineSeparator => ['\u2028']
  | paragraphSeparator => ['\u2029']

/-- A warning pragma with all that is free in writing it. -/
structure Written where
  indent : Padding isSpaceOrTab
  behindHash : Padding isSpaceOrTab
  behindPragma : Gap isSpaceOrTab
  behindWarning : Gap isSpaceOrTab
  action : PragmaAction
  list : NameList
  trailing : Padding isSpaceOrTab
  comment : Option (List Char)
  lineBreak : Option LineBreak

namespace Written

/-- What follows the rule ids and the blanks behind them. -/
def ending (w : Written) : List Char :=
  (w.comment.map fun text => '/' :: '/' :: text).getD [] ++ (w.lineBreak.map LineBreak.text).getD []

/-- What follows the action. -/
def tail (w : Written) : List Char :=
  w.list.text ++ (w.trailing.chars ++ w.ending)

def text (w : Written) : List Char :=
  w.indent.chars ++ ('#' :: (w.behindHash.chars ++ ("pragma".toList ++ (w.behindPragma.chars ++
    ("warning".toList ++ (w.behindWarning.chars ++ (w.action.text.toList ++ w.tail)))))))

/-- What a pragma on a line means. -/
def pragma (line : Nat) (w : Written) : Pragma where
  line := line
  action := w.action
  rules := w.list.rules

end Written

section

variable (p : Padding isSpaceOrTab)

theorem forall_spaces {P : Char → Prop} (space : P ' ') (tab : P '\t') : ∀ c ∈ p.chars, P c := by
  intro c hc
  have kind := p.only c hc
  simp only [isSpaceOrTab, Bool.or_eq_true, decide_eq_true_eq] at kind
  rcases kind with rfl | rfl
  · exact space
  · exact tab

theorem spaces_blank : AllBlank p.chars :=
  forall_spaces p (by decide) (by decide)

theorem spaces_not_word : ∀ c ∈ p.chars.head?, isWordChar c = false :=
  fun c hc => forall_spaces p (P := (isWordChar · = false)) (by decide) (by decide) c
    (List.mem_of_mem_head? hc)

end

theorem spacedWord?_append (word : List Char) (g : Gap isSpaceOrTab) {rest : List Char}
    (head : ∀ c ∈ rest.head?, isBlank c = false) :
    spacedWord? word (word ++ (g.chars ++ rest)) = some rest := by
  have blank := spaces_blank g.toPadding
  have trimmed : trimStart (g.chars ++ rest) = rest := by
    rw [trimStart_pad blank, trimStart_of_head head]
  obtain ⟨c, cs, eq⟩ := List.exists_cons_of_ne_nil g.nonempty
  have first : isBlank c = true := blank c (eq ▸ List.mem_cons_self)
  rw [eq, List.cons_append] at trimmed
  rw [spacedWord?, after?_append, Option.bind_some, eq, List.cons_append]
  simp only [first, if_true, trimmed]

theorem head_append {P : Char → Prop} {xs ys : List Char} (hx : ∀ c ∈ xs.head?, P c)
    (hy : ∀ c ∈ ys.head?, P c) : ∀ c ∈ (xs ++ ys).head?, P c := by
  cases xs with
  | nil => exact hy
  | cons x xs => exact hx

theorem LineBreak.head (b : LineBreak) : ∀ c ∈ b.text.head?, isWordChar c = false := by
  cases b with
  | lineFeed | carriageReturn | both => rintro c ⟨⟩; decide
  | nextLine | lineSeparator | paragraphSeparator =>
      rintro c ⟨⟩
      rw [isWordChar, if_neg (by decide), ← Array.any_toList]
      decide +kernel

/-- The action is a word of its own. -/
theorem Written.not_word_tail (w : Written) : ∀ c ∈ w.tail.head?, isWordChar c = false := by
  have list : ∀ c ∈ w.list.text.head?, isWordChar c = false := by
    cases w.list with
    | none => nofun
    | names gap first others =>
        obtain ⟨c, cs, eq⟩ := List.exists_cons_of_ne_nil gap.nonempty
        have head := spaces_not_word gap.toPadding
        rw [eq] at head
        rw [NameList.text, eq]
        exact head
  have ending : ∀ c ∈ w.ending.head?, isWordChar c = false := by
    apply head_append
    · cases w.comment with
      | none => nofun
      | some text =>
          rintro c ⟨⟩
          decide
    · cases w.lineBreak with
      | none => nofun
      | some b => exact b.head
  exact head_append list (head_append (spaces_not_word w.trailing) ending)

theorem action?_append (action : PragmaAction) {rest : List Char}
    (head : ∀ c ∈ rest.head?, isWordChar c = false) :
    action? (action.text.toList ++ rest) = some (action, rest) := by
  have ends : ((rest.head?.map isWordChar).getD false == false) = true := by
    cases rest with
    | nil => rfl
    | cons c cs => simp [head c rfl]
  cases action with
  | disable =>
      rw [action?, PragmaAction.text, after?_append]
      simp only [ends, if_true]
  | restore =>
      have other : after? "disable".toList ("restore".toList ++ rest) = none := rfl
      rw [action?, PragmaAction.text, other, after?_append]
      simp only [ends, if_true]

/-- The rule id that a piece of the list is, if it is not empty. -/
def ruleOf? (piece : List Char) : Option String :=
  if piece.isEmpty then none else some (String.ofList piece)

/-- The rule ids between the commas of a text. -/
def named (cs : List Char) : List String :=
  ((pieces ',' cs).map trim).filterMap ruleOf?

def isListed (c : Char) : Bool :=
  c ≠ '/' && c ≠ '\r' && c ≠ '\n'

theorem ruleList_eq (cs : List Char) : ruleList cs = named (cs.takeWhile isListed) := rfl

theorem comma_not_mem_blank {pad : List Char} (blank : AllBlank pad) : ',' ∉ pad := by
  intro comma
  have := blank ',' comma
  revert this
  decide

theorem RuleName.comma_not_mem (r : RuleName) {before behind : List Char} (hb : AllBlank before)
    (ha : AllBlank behind) : ',' ∉ before ++ r.text.toList ++ behind := by
  simp only [List.mem_append, not_or]
  exact ⟨⟨comma_not_mem_blank hb, fun comma => (r.plain _ comma).1 rfl⟩, comma_not_mem_blank ha⟩

theorem named_blank {pad : List Char} (blank : AllBlank pad) : named pad = [] := by
  rw [named, pieces_of_not_mem (comma_not_mem_blank blank), List.map_singleton, trim_blank blank]
  rfl

theorem RuleName.ruleOf?_padded (r : RuleName) {before behind : List Char} (hb : AllBlank before)
    (ha : AllBlank behind) : ruleOf? (trim (before ++ r.text.toList ++ behind)) = some r.text := by
  rw [r.snug.trim_padded hb ha, ruleOf?, if_neg (by simpa using r.nonempty), String.ofList_toList]

/-- The ids are read back in order. The induction is over the further ids; what stands before the
first one and behind the last one may be any blanks. -/
theorem named_names (others : List (Further isSpaceOrTab RuleName)) (first : RuleName)
    {before behind : List Char} (hb : AllBlank before) (ha : AllBlank behind) :
    named (before ++ first.text.toList ++ others.flatMap furtherText ++ behind) =
      first.text :: others.map (·.item.text) := by
  induction others generalizing first before with
  | nil =>
      rw [List.flatMap_nil, List.append_nil, named, pieces_of_not_mem (first.comma_not_mem hb ha),
        List.map_singleton, List.filterMap_cons_some (first.ruleOf?_padded hb ha)]
      rfl
  | cons next others ih =>
      have cut : before ++ first.text.toList ++ (next :: others).flatMap furtherText ++ behind =
          (before ++ first.text.toList ++ next.before.chars) ++ ',' :: (next.behind.chars ++
            next.item.text.toList ++ others.flatMap furtherText ++ behind) := by
        simp [furtherText, Further.text]
      have blank := spaces_blank next.before
      rw [cut, named, pieces_append_sep (first.comma_not_mem hb blank), List.map_cons,
        List.filterMap_cons_some (first.ruleOf?_padded hb blank), ← named,
        ih next.item (spaces_blank next.behind), List.map_cons]

theorem spaces_listed (p : Padding isSpaceOrTab) : ∀ c ∈ p.chars, isListed c = true :=
  forall_spaces p (by decide) (by decide)

theorem RuleName.listed (r : RuleName) : ∀ c ∈ r.text.toList, isListed c = true := by
  intro c hc
  simp [isListed, r.plain c hc]

theorem NameList.listed (l : NameList) : ∀ c ∈ l.text, isListed c = true := by
  cases l with
  | none => nofun
  | names gap first others =>
      intro c hc
      simp only [text, furtherText, Further.text, List.mem_append, List.mem_flatMap,
        List.mem_cons] at hc
      rcases hc with (hc | hc) | ⟨next, -, hc | rfl | hc | hc⟩
      · exact spaces_listed _ c hc
      · exact first.listed c hc
      · exact spaces_listed _ c hc
      · decide
      · exact spaces_listed _ c hc
      · exact next.item.listed c hc

/-- Of what follows the rule ids, blanks at most are read as part of the list. -/
theorem Written.ending_blank (w : Written) : AllBlank (w.ending.takeWhile isListed) := by
  rw [Written.ending]
  cases w.comment with
  | some text => nofun
  | none =>
      cases w.lineBreak with
      | none => nofun
      | some b => exact List.all_eq_true.mp (by cases b <;> decide)

theorem Written.ruleList_tail (w : Written) : ruleList w.tail = w.list.rules := by
  rw [ruleList_eq, Written.tail, List.takeWhile_append_of_pos w.list.listed,
    List.takeWhile_append_of_pos (spaces_listed w.trailing)]
  have behind : AllBlank (w.trailing.chars ++ w.ending.takeWhile isListed) :=
    (spaces_blank w.trailing).append w.ending_blank
  cases w.list with
  | none => exact named_blank behind
  | names gap first others => exact named_names others first (spaces_blank gap.toPadding) behind

/-- Reading a pragma undoes writing it. It switches the rules that it names or, if it names none,
all. -/
theorem parse?_written (line : Nat) (w : Written) :
    parse? line w.text = some (w.pragma line) ∧
      ∀ rule, (w.pragma line).concerns rule ↔ w.list = .none ∨ rule ∈ w.list.rules := by
  refine ⟨?_, fun rule => ?_⟩
  · have hash : ∀ rest, trimStart ('#' :: rest) = '#' :: rest := fun rest =>
      trimStart_of_head (by rintro c ⟨⟩; decide)
    have pragma (rest : List Char) : ∀ c ∈ ("pragma".toList ++ rest).head?, isBlank c = false :=
      by rintro c ⟨⟩; decide
    have warning (rest : List Char) : ∀ c ∈ ("warning".toList ++ rest).head?, isBlank c = false :=
      by rintro c ⟨⟩; decide
    have action : ∀ c ∈ (w.action.text.toList ++ w.tail).head?, isBlank c = false := by
      cases w.action <;> rintro c ⟨⟩ <;> decide
    rw [parse?, Written.text, trimStart_pad (spaces_blank w.indent), hash]
    simp only [after?, if_true, Option.bind_eq_bind, Option.bind_some, Option.pure_def,
      trimStart_pad (spaces_blank w.behindHash), trimStart_of_head (pragma _),
      spacedWord?_append _ w.behindPragma (warning _), spacedWord?_append _ w.behindWarning action,
      action?_append w.action w.not_word_tail, w.ruleList_tail, Written.pragma]
  · rw [Written.pragma]
    cases w.list with
    | none => simp [concerns, NameList.rules]
    | names gap first others => simp [concerns, NameList.rules]

end Antipattern.Pragma
