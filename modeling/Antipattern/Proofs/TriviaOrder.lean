import Antipattern.Proofs.DirectiveLines
import Antipattern.Proofs.GapBreaks

/-!
The order in which trivia is listed. Below the root only tokens carry trivia, and a token lists what
stands before it and then what stands behind it; so a node lists its trivia in the order of the
source. The root alone has children and trivia of its own: what stands behind the last token, which
it lists first.
-/

namespace Antipattern

namespace Text

/-- The characters of a text from a byte on whose bytes are not taken. -/
def charsOutside (taken : Nat → Bool) : Nat → List Char → List Char
  | _, [] => []
  | pos, c :: cs =>
      if taken pos then charsOutside taken (pos + c.utf8Size) cs
      else c :: charsOutside taken (pos + c.utf8Size) cs

theorem charsOutside_append (taken : Nat → Bool) (pos : Nat) (xs ys : List Char) :
    charsOutside taken pos (xs ++ ys) =
      charsOutside taken pos xs ++ charsOutside taken (pos + byteLength xs) ys := by
  induction xs generalizing pos with
  | nil => rfl
  | cons x xs ih =>
      rw [List.cons_append, charsOutside, charsOutside, ih, byteLength_cons, Nat.add_assoc]
      split <;> rfl

theorem charsOutside_of_free {taken : Nat → Bool} {pos : Nat} {cs : List Char}
    (h : ∀ b, pos ≤ b → b < pos + byteLength cs → taken b = false) :
    charsOutside taken pos cs = cs := by
  induction cs generalizing pos with
  | nil => rfl
  | cons c cs ih =>
      have wide := c.utf8Size_pos
      rw [byteLength_cons] at h
      rw [charsOutside, h pos (Nat.le_refl _) (by omega), ih]
      · simp
      · intro b low high
        exact h b (by omega) (by omega)

theorem charsOutside_of_taken {taken : Nat → Bool} {pos : Nat} {cs : List Char}
    (h : ∀ b, pos ≤ b → b < pos + byteLength cs → taken b = true) :
    charsOutside taken pos cs = [] := by
  induction cs generalizing pos with
  | nil => rfl
  | cons c cs ih =>
      have wide := c.utf8Size_pos
      rw [byteLength_cons] at h
      rw [charsOutside, if_pos (h pos (Nat.le_refl _) (by omega))]
      apply ih
      intro b low high
      exact h b (by omega) (by omega)

end Text

open Text

/-- Trivia with the byte of the source where it starts. -/
structure PlacedTrivia where
  start : Nat
  trivia : Trivia

namespace PlacedTrivia

def stop (p : PlacedTrivia) : Nat :=
  p.start + byteLength p.trivia.text.toList

/-- Trivia that follows one another from a byte on. -/
def along (start : Nat) : List Trivia → List PlacedTrivia
  | [] => []
  | t :: ts => ⟨start, t⟩ :: along (start + byteLength t.text.toList) ts

@[simp] theorem map_trivia_along (start : Nat) (ts : List Trivia) :
    (along start ts).map (·.trivia) = ts := by
  induction ts generalizing start with
  | nil => rfl
  | cons t ts ih => rw [along, List.map_cons, ih]

end PlacedTrivia

namespace SyntaxNode

/-- The trivia of a token: what ends where the token starts, and what starts where it ends. -/
def around (n : SyntaxNode) : List PlacedTrivia :=
  PlacedTrivia.along (n.span.startByte - byteLength (triviaText n.leading)) n.leading ++
    PlacedTrivia.along n.span.endByte n.trailing

@[simp] theorem map_trivia_around (n : SyntaxNode) :
    n.around.map (·.trivia) = n.ownTrivia := by
  simp [around, ownTrivia]

theorem map_trivia_flatMap_around (tokens : List SyntaxNode) :
    (tokens.flatMap around).map (·.trivia) = tokens.flatMap ownTrivia := by
  simp [List.map_flatMap]

/-- The trivia of a root: what stands at the end of the source, behind all tokens. -/
def behind (source : List Char) (n : SyntaxNode) : List PlacedTrivia :=
  PlacedTrivia.along (byteLength source - byteLength (triviaText n.trailing)) n.trailing

@[simp] theorem map_trivia_behind (source : List Char) (n : SyntaxNode) :
    (n.behind source).map (·.trivia) = n.trailing :=
  PlacedTrivia.map_trivia_along _ _

/-- Whether some token of the node has this byte. -/
def tokenHas (n : SyntaxNode) (b : Nat) : Bool :=
  n.tokens.any fun t => t.span.startByte ≤ b && b < t.span.endByte

theorem tokenHas_iff {n : SyntaxNode} {b : Nat} :
    n.tokenHas b = true ↔ ∃ t ∈ n.tokens, t.span.startByte ≤ b ∧ b < t.span.endByte := by
  simp [tokenHas]

theorem tokenHas_eq_false {n : SyntaxNode} {before after : List SyntaxNode} {b : Nat}
    (split : n.tokens = before ++ after) (past : ∀ t ∈ before, t.span.endByte ≤ b)
    (ahead : ∀ t ∈ after, b < t.span.startByte) : n.tokenHas b = false := by
  rw [Bool.eq_false_iff, Ne, tokenHas_iff]
  intro ⟨t, ht, low, high⟩
  rw [split, List.mem_append] at ht
  cases ht with
  | inl first =>
      have := past t first
      omega
  | inr second =>
      have := ahead t second
      omega

end SyntaxNode

namespace CSharp

/-- Each piece of trivia stands in the source where it is placed, and each ends before the next
starts. -/
structure InOrder (source : List Char) (ps : List PlacedTrivia) : Prop where
  stands : ∀ p ∈ ps, StandsAt source p.start p.stop p.trivia.text.toList
  ordered : ps.Pairwise fun p q => p.stop ≤ q.start

/-- Trivia in order that keeps to a stretch of the source. -/
structure InStretch (source : List Char) (start stop : Nat) (ps : List PlacedTrivia) : Prop
    extends InOrder source ps where
  le : start ≤ stop
  within : ∀ p ∈ ps, start ≤ p.start ∧ p.stop ≤ stop

section

variable {source : List Char} {start stop : Nat} {ps qs : List PlacedTrivia}

theorem InStretch.nil (source : List Char) {start stop : Nat} (le : start ≤ stop) :
    InStretch source start stop [] where
  stands := List.forall_mem_nil _
  ordered := .nil
  le := le
  within := List.forall_mem_nil _

theorem InStretch.append {mid next : Nat} (first : InStretch source start mid ps) (le : mid ≤ next)
    (second : InStretch source next stop qs) : InStretch source start stop (ps ++ qs) := by
  have low := first.le
  have high := second.le
  refine { stands := ?_, ordered := ?_, le := by omega, within := ?_ }
  · exact List.forall_mem_append.mpr ⟨first.stands, second.stands⟩
  · refine List.pairwise_append.mpr ⟨first.ordered, second.ordered, ?_⟩
    intro p hp q hq
    have := first.within p hp
    have := second.within q hq
    omega
  · intro p hp
    cases List.mem_append.mp hp with
    | inl hp =>
        have := first.within p hp
        omega
    | inr hp =>
        have := second.within p hp
        omega

theorem StandsAt.of_append {xs ys : List Char} (h : StandsAt source start stop (xs ++ ys)) :
    StandsAt source start (start + byteLength xs) xs ∧
      StandsAt source (start + byteLength xs) stop ys := by
  obtain ⟨before, behind, cut, place, width⟩ := h
  rw [List.append_assoc] at cut
  rw [byteLength_append, ← Nat.add_assoc] at width
  refine ⟨⟨before, ys ++ behind, cut, place, rfl⟩, before ++ xs, behind, ?_, ?_, width⟩
  · rw [cut, List.append_assoc]
  · rw [byteLength_append, place]

/-- Trivia whose text stands in the source is in order there. -/
theorem StandsAt.inStretch {ts : List Trivia} (h : StandsAt source start stop (triviaText ts)) :
    InStretch source start stop (PlacedTrivia.along start ts) := by
  induction ts generalizing start with
  | nil =>
      obtain ⟨_, _, -, -, width⟩ := h
      exact .nil source (Nat.le.intro width)
  | cons t ts ih =>
      rw [triviaText_cons] at h
      obtain ⟨here, rest⟩ := h.of_append
      have first : InStretch source start (start + byteLength t.text.toList) [⟨start, t⟩] :=
        { stands := fun p hp => List.mem_singleton.mp hp ▸ here
          ordered := List.pairwise_singleton _ _
          le := Nat.le_add_right _ _
          within := fun p hp => List.mem_singleton.mp hp ▸ ⟨Nat.le_refl _, Nat.le_refl _⟩ }
      exact first.append (Nat.le_refl _) (ih rest)

/-- Two runs of trivia that are in order both ways round: one of them has no text. -/
theorem InOrder.text_eq_nil_of_swap (one : InOrder source (ps ++ qs))
    (other : InOrder source (qs ++ ps)) :
    triviaText (ps.map (·.trivia)) = [] ∨ triviaText (qs.map (·.trivia)) = [] := by
  -- trivia with text cannot both end before other such trivia starts and start behind its end
  have blank : ∀ p ∈ ps, ∀ q ∈ qs, p.trivia.text.toList = [] ∨ q.trivia.text.toList = [] := by
    intro p hp q hq
    have first := (List.pairwise_append.mp one.ordered).2.2 p hp q hq
    have second := (List.pairwise_append.mp other.ordered).2.2 q hq p hp
    rw [PlacedTrivia.stop] at first second
    by_cases empty : byteLength p.trivia.text.toList = 0
    · exact .inl (byteLength_eq_zero empty)
    · exact .inr (byteLength_eq_zero (by omega))
  simp only [triviaText, List.flatMap_eq_nil_iff, List.forall_mem_map]
  by_cases empty : ∀ p ∈ ps, p.trivia.text.toList = []
  · exact .inl empty
  · simp only [Classical.not_forall] at empty
    obtain ⟨p, hp, full⟩ := empty
    exact .inr fun q hq => (blank p hp q hq).resolve_left full

end

namespace ConcreteFile.Over

variable {file : ConcreteFile} {source : List Char} (h : file.Over source)
include h

section

variable {path : String} {before tokens after : List SyntaxNode} {n t : SyntaxNode}

theorem endByte_le_of_mem (split : (file.syntaxTree path source).root.tokens = before ++ after)
    (ht : t ∈ before) : t.span.endByte ≤ byteLength (before.flatMap SyntaxNode.fullText) := by
  obtain ⟨first, rest, rfl⟩ := List.append_of_mem ht
  rw [List.append_assoc, List.cons_append] at split
  obtain ⟨text, _, whole, -, start, stop⟩ := h.parts_of_split split
  rw [List.flatMap_append, List.flatMap_cons, whole]
  simp only [byteLength_append]
  omega

theorem le_startByte_of_mem (split : (file.syntaxTree path source).root.tokens = before ++ after)
    (ht : t ∈ after) : byteLength (before.flatMap SyntaxNode.fullText) ≤ t.span.startByte := by
  obtain ⟨first, rest, rfl⟩ := List.append_of_mem ht
  rw [← List.append_assoc] at split
  obtain ⟨text, _, -, -, start, -⟩ := h.parts_of_split split
  rw [← start, List.flatMap_append, byteLength_append]
  omega

/-- Tokens up to one of them end no later than it does. -/
theorem endByte_le_endByte
    (split : (file.syntaxTree path source).root.tokens = before ++ n :: after)
    (ht : t ∈ before ++ [n]) : t.span.endByte ≤ n.span.endByte := by
  cases List.mem_append.mp ht with
  | inl first =>
      obtain ⟨text, _, -, -, start, stop⟩ := h.parts_of_split split
      have := h.endByte_le_of_mem split first
      omega
  | inr own =>
      obtain rfl := List.mem_singleton.mp own
      exact Nat.le_refl _

/-- Tokens from one of them on start no earlier than it does. -/
theorem startByte_le_startByte
    (split : (file.syntaxTree path source).root.tokens = before ++ n :: after)
    (ht : t ∈ n :: after) : n.span.startByte ≤ t.span.startByte := by
  cases List.mem_cons.mp ht with
  | inl own =>
      obtain rfl := own
      exact Nat.le_refl _
  | inr rest =>
      obtain ⟨text, _, -, -, start, stop⟩ := h.parts_of_split split
      rw [List.append_cons] at split
      have := h.endByte_le_of_mem split (List.mem_append_right before List.mem_cons_self)
      have := h.le_startByte_of_mem split rest
      omega

/-- A token with its trivia keeps to its stretch of the source. -/
theorem inStretch_around
    (split : (file.syntaxTree path source).root.tokens = before ++ n :: after) :
    InStretch source (byteLength (before.flatMap SyntaxNode.fullText))
      (byteLength ((before ++ [n]).flatMap SyntaxNode.fullText)) n.around := by
  obtain ⟨text, _, -, -, start, stop⟩ := h.parts_of_split split
  have place : n.span.startByte - byteLength (triviaText n.leading) =
      byteLength (before.flatMap SyntaxNode.fullText) := by omega
  rw [SyntaxNode.around, place]
  exact (h.standsAt_leading split).inStretch.append (by omega) (h.standsAt_trailing split).inStretch

theorem inStretch_tokens
    (split : (file.syntaxTree path source).root.tokens = before ++ (tokens ++ after)) :
    InStretch source (byteLength (before.flatMap SyntaxNode.fullText))
      (byteLength ((before ++ tokens).flatMap SyntaxNode.fullText))
      (tokens.flatMap SyntaxNode.around) := by
  induction tokens generalizing before with
  | nil =>
      rw [List.append_nil]
      exact .nil source (Nat.le_refl _)
  | cons n tokens ih =>
      -- the first token is done; it moves to the tokens before the stretch
      rw [List.cons_append] at split
      have first := h.inStretch_around split
      rw [List.append_cons] at split
      rw [List.flatMap_cons, List.append_cons]
      exact first.append (Nat.le_refl _) (ih split)

/-- Of the stretch of a token, all but the token is its trivia. -/
theorem charsOutside_token
    (split : (file.syntaxTree path source).root.tokens = before ++ n :: after) :
    charsOutside (file.syntaxTree path source).root.tokenHas
        (byteLength (before.flatMap SyntaxNode.fullText)) n.fullText =
      triviaText n.ownTrivia := by
  have behind := split
  rw [List.append_cons] at behind
  obtain ⟨text, _, whole, -, start, stop⟩ := h.parts_of_split split
  rw [whole, charsOutside_append, charsOutside_append, start, stop, charsOutside_of_free,
    charsOutside_of_taken, charsOutside_of_free, SyntaxNode.ownTrivia, triviaText_append]
  · rfl
  · intro b low high
    refine SyntaxNode.tokenHas_eq_false behind ?_ ?_
    · intro t ht
      exact Nat.le_trans (h.endByte_le_endByte split ht) low
    · intro t ht
      obtain ⟨_, _, -, -, width⟩ := h.standsAt_trailing split
      have := h.le_startByte_of_mem behind ht
      omega
  · intro b low high
    rw [SyntaxNode.tokenHas_iff]
    exact ⟨n, by simp [split], low, by omega⟩
  · intro b low high
    refine SyntaxNode.tokenHas_eq_false split ?_ ?_
    · intro t ht
      exact Nat.le_trans (h.endByte_le_of_mem split ht) low
    · intro t ht
      have := h.startByte_le_startByte split ht
      omega

theorem charsOutside_tokens
    (split : (file.syntaxTree path source).root.tokens = before ++ (tokens ++ after)) :
    charsOutside (file.syntaxTree path source).root.tokenHas
        (byteLength (before.flatMap SyntaxNode.fullText)) (tokens.flatMap SyntaxNode.fullText) =
      triviaText (tokens.flatMap SyntaxNode.ownTrivia) := by
  induction tokens generalizing before with
  | nil => rfl
  | cons n tokens ih =>
      rw [List.cons_append] at split
      have own := h.charsOutside_token split
      rw [List.append_cons] at split
      have rest := ih split
      rw [List.flatMap_append, List.flatMap_singleton, byteLength_append] at rest
      rw [List.flatMap_cons, charsOutside_append, own, rest, List.flatMap_cons, triviaText_append]

end

theorem charsOutside_source (path : String) :
    let root := (file.syntaxTree path source).root
    charsOutside root.tokenHas 0 source =
      triviaText (root.tokens.flatMap SyntaxNode.ownTrivia ++ root.trailing) := by
  intro root
  have split : root.tokens = [] ++ (root.tokens ++ []) := by simp
  have inside := h.charsOutside_tokens split
  have all : root.tokens = root.tokens ++ [] := by simp
  have atEnd : charsOutside root.tokenHas
      (byteLength (root.tokens.flatMap SyntaxNode.fullText)) (triviaText root.trailing) =
        triviaText root.trailing := by
    refine charsOutside_of_free fun b low _ => SyntaxNode.tokenHas_eq_false all ?_ ?_
    · intro t ht
      exact Nat.le_trans (h.endByte_le_of_mem all ht) low
    · exact List.forall_mem_nil _
  rw [List.flatMap_nil, byteLength_nil] at inside
  conv => lhs; rw [h.source_eq path]
  rw [charsOutside_append, Nat.zero_add, inside, atEnd, triviaText_append]

/-- The root lists its own trivia before that of the tokens. -/
theorem listed_root (path : String) :
    let root := (file.syntaxTree path source).root
    root.descendantTrivia = root.trailing ++ root.tokens.flatMap SyntaxNode.ownTrivia := by
  intro root
  rw [trailing_eq]
  exact descendantTrivia_root h path

theorem inOrder_root (path : String) :
    let root := (file.syntaxTree path source).root
    InOrder source (root.tokens.flatMap SyntaxNode.around ++ root.behind source) := by
  intro root
  have split : root.tokens = [] ++ (root.tokens ++ []) := by simp
  have inside := h.inStretch_tokens split
  have text : source = root.tokens.flatMap SyntaxNode.fullText ++ triviaText root.trailing :=
    h.source_eq path
  have size := congrArg byteLength text
  rw [byteLength_append] at size
  have stands : StandsAt source (byteLength source - byteLength (triviaText root.trailing))
      (byteLength source) (triviaText root.trailing) := by
    refine ⟨_, [], by rw [List.append_nil]; exact text, ?_, ?_⟩ <;> omega
  exact (inside.append (by rw [List.nil_append]; omega) stands.inStretch).toInOrder

theorem inOrder_node {path : String} {child n : SyntaxNode}
    (below : child ∈ (file.syntaxTree path source).root.children) (hn : n ∈ child.descendants) :
    n.descendantTrivia = (n.tokens.flatMap SyntaxNode.around).map (·.trivia) ∧
      InOrder source (n.tokens.flatMap SyntaxNode.around) := by
  obtain ⟨bare, before, after, split⟩ := h.tokens_of_mem below hn
  refine ⟨?_, (h.inStretch_tokens split).toInOrder⟩
  rw [bare.descendantTrivia, SyntaxNode.map_trivia_flatMap_around]

end ConcreteFile.Over

/-- Each node below the root lists its trivia as the source has it. The root lists first what stands
behind the last token; the other way round its trivia is in order too, and is all of the source but
the tokens. So the root is in order only if nothing stands behind the last token or no token has
trivia. -/
theorem descendantTrivia_order (file : ConcreteFile) (path : String) (source : List Char)
    (h : file.Over source) :
    let root := (file.syntaxTree path source).root
    let inside := root.tokens.flatMap SyntaxNode.around
    let behind := root.behind source
    (∀ child ∈ root.children, ∀ n ∈ child.descendants,
      n.descendantTrivia = (n.tokens.flatMap SyntaxNode.around).map (·.trivia) ∧
        InOrder source (n.tokens.flatMap SyntaxNode.around)) ∧
    root.descendantTrivia = (behind ++ inside).map (·.trivia) ∧
    InOrder source (inside ++ behind) ∧
    triviaText ((inside ++ behind).map (·.trivia)) = charsOutside root.tokenHas 0 source ∧
    (behind = [] ∨ inside = [] → InOrder source (behind ++ inside) ∧
      triviaText root.descendantTrivia = charsOutside root.tokenHas 0 source) ∧
    (InOrder source (behind ++ inside) →
      triviaText (behind.map (·.trivia)) = [] ∨ triviaText (inside.map (·.trivia)) = []) := by
  intro root inside behind
  have ordered : InOrder source (inside ++ behind) := h.inOrder_root path
  have listed : root.descendantTrivia = (behind ++ inside).map (·.trivia) := by
    rw [List.map_append, SyntaxNode.map_trivia_flatMap_around, SyntaxNode.map_trivia_behind]
    exact h.listed_root path
  have text : triviaText ((inside ++ behind).map (·.trivia)) =
      charsOutside root.tokenHas 0 source := by
    rw [List.map_append, SyntaxNode.map_trivia_flatMap_around, SyntaxNode.map_trivia_behind]
    exact (h.charsOutside_source path).symm
  refine ⟨fun child below n hn => h.inOrder_node below hn, listed, ordered, text, ?_, ?_⟩
  · intro empty
    have same : behind ++ inside = inside ++ behind := by
      cases empty with
      | inl empty => rw [empty, List.append_nil, List.nil_append]
      | inr empty => rw [empty, List.append_nil, List.nil_append]
    rw [listed, same]
    exact ⟨ordered, text⟩
  · exact fun swapped => swapped.text_eq_nil_of_swap ordered

theorem order_spacedBranches :
    ConcreteFile.spacedBranches.Over spacedBranchesText ∧
      let root := (ConcreteFile.spacedBranches.syntaxTree "A.cs" spacedBranchesText).root
      let inside := root.tokens.flatMap SyntaxNode.around
      let behind := root.behind spacedBranchesText
      root.descendantTrivia = (behind ++ inside).map (·.trivia) ∧
        InOrder spacedBranchesText (inside ++ behind) ∧
        triviaText ((inside ++ behind).map (·.trivia)) =
          charsOutside root.tokenHas 0 spacedBranchesText := by
  obtain ⟨-, listed, ordered, text, -⟩ :=
    descendantTrivia_order _ "A.cs" _ over_spacedBranches
  exact ⟨over_spacedBranches, listed, ordered, text⟩

mutual
def Concrete.decProper : (c : Concrete) → Decidable c.Proper
  | .token _ _ => .isTrue trivial
  | .node _ _ _ children => @instDecidableAnd _ _ _ (Concrete.decForestProper children)
  | .usingDirective _ _ children => Concrete.decForestProper children

def Concrete.decForestProper : (cs : List Concrete) → Decidable (ForestProper cs)
  | [] => .isTrue trivial
  | c :: cs => @instDecidableAnd _ _ c.decProper (Concrete.decForestProper cs)
end

instance (c : Concrete) : Decidable c.Proper := c.decProper

/-- A class and a comment behind it. -/
def commentBehindText : List Char :=
  "class A \x7b \x7d\n// end\n".toList

def ConcreteFile.commentBehind : ConcreteFile where
  root := .node .compilationUnit none ⟨0, 19, 1, 1, 3, 1⟩
    [.node .classDeclaration (some "A") (.onLine 0 11 1 1)
      [.token "class" (.onLine 0 5 1 1), .token "A" (.onLine 6 7 1 7),
       .node .other none (.onLine 8 11 1 9)
        [.token "\x7b" (.onLine 8 9 1 9), .token "\x7d" (.onLine 10 11 1 11)]]]
  islands := [⟨.onLine 12 18 2 1, .singleLineComment⟩]

theorem over_commentBehind : ConcreteFile.commentBehind.Over commentBehindText := by
  have placed : ∀ x ∈ ConcreteFile.commentBehind.root.tokens,
      commentBehindText = commentBehindText.take x.2.startByte ++
          (x.1.toList ++ commentBehindText.drop x.2.endByte) ∧
        byteLength (commentBehindText.take x.2.startByte) = x.2.startByte ∧
        x.2.startByte + byteLength x.1.toList = x.2.endByte := by decide
  exact
    { root := fun text span same => nomatch same
      proper := by decide
      nested := by decide
      texts := fun x hx => ⟨_, _, placed x hx⟩
      breaks := by decide
      ordered := by decide
      islands := by
        intro i hi
        obtain rfl := List.mem_singleton.mp hi
        exact ⟨⟨commentBehindText.take 12, _, rfl, by decide⟩,
          ⟨commentBehindText.take 18, _, rfl, by decide⟩, by decide⟩
      apart := by decide
      cuts := by decide +kernel }

/-- The comment at the end of a file is the first trivia that the root lists. -/
theorem last_comment_listed_first :
    let file := ConcreteFile.commentBehind
    let source := commentBehindText
    let root := (file.syntaxTree "A.cs" source).root
    file.Over source ∧
      triviaText root.descendantTrivia = "// end\n   \n".toList ∧
      charsOutside root.tokenHas 0 source = "   \n// end\n".toList ∧
      ¬ InOrder source (root.behind source ++ root.tokens.flatMap SyntaxNode.around) := by
  intro file source root
  have h : file.Over source := over_commentBehind
  have layout : file.layout source = Layout.ofPieces source (file.pieces source) := by
    rw [h.layout_eq, List.mergeSort_of_pairwise]
    decide +kernel
  have behind : triviaText root.trailing = "// end\n".toList := by
    rw [show root.trailing = _ from ConcreteFile.trailing_eq _ "A.cs" source, layout]
    decide +kernel
  have inside : triviaText (root.tokens.flatMap SyntaxNode.ownTrivia) = "   \n".toList := by
    rw [show root.tokens = _ from h.tokens_eq "A.cs", layout]
    decide +kernel
  have listed : root.descendantTrivia =
      root.trailing ++ root.tokens.flatMap SyntaxNode.ownTrivia := h.listed_root "A.cs"
  have outside : charsOutside root.tokenHas 0 source =
      triviaText (root.tokens.flatMap SyntaxNode.ownTrivia ++ root.trailing) :=
    h.charsOutside_source "A.cs"
  refine ⟨h, ?_, ?_, ?_⟩
  · rw [listed, triviaText_append, behind, inside]
    decide
  · rw [outside, triviaText_append, behind, inside]
    decide
  · intro swapped
    have empty := swapped.text_eq_nil_of_swap (h.inOrder_root "A.cs")
    rw [SyntaxNode.map_trivia_behind, SyntaxNode.map_trivia_flatMap_around, behind, inside] at empty
    simp at empty

end CSharp
end Antipattern
