import Antipattern.Proofs.OpenBlocks
import Antipattern.Proofs.SourceText

/-!
Which tokens conditional compilation takes out of a tree. The directives are read off the lines of
the text: a line inside a string or a comment that looks like a directive counts as one. With the
directives so read, a token is in the tree if and only if part of it stands on a line that is
compiled.
-/

namespace Antipattern

/-- Whether a byte lies behind the first of a stretch. -/
def Span.holds (s : Span) (b : Nat) : Bool :=
  s.startByte < b && b < s.endByte

/-- The node is the leaf with this text at this place. -/
def SyntaxNode.IsLeaf (n : SyntaxNode) (x : String × Span) : Prop :=
  n.kind = .token ∧ n.name = some x.1 ∧ n.span = x.2

def SyntaxTree.HasToken (t : SyntaxTree) (x : String × Span) : Prop :=
  ∃ n ∈ t.root.descendants, n.IsLeaf x

namespace CSharp

open Text

/-- The directive that a line of the text holds by its looks. -/
def directiveAt (source : List Char) (k : Nat) : Option Conditional :=
  (linesKept source)[k]?.bind Conditional.ofLine?

/-- The byte stands on a line that these directives take out. -/
def TakenOut (source : List Char) (d : Nat → Option Conditional) (b : Nat) : Prop :=
  ∃ k, lineStart (linesKept source) k ≤ b ∧ b < lineStart (linesKept source) (k + 1) ∧ LineTaken d k

theorem exists_role_of_lt {ls : List (List Char)} {k : Nat}
    (lt : lineStart ls k < lineStart ls (k + 1)) (blocks : List Bool) :
    ∃ role, roleAt? (scanLines blocks ls) k = some role := by
  have length : (scanLines blocks ls).length = ls.length := by
    rw [← List.length_map (·.text), map_text_scanLines]
  have here : k < ls.length := by
    apply Nat.lt_of_not_le
    intro le
    rw [lineStart, lineStart, List.take_of_length_le le, List.take_of_length_le (by omega)] at lt
    exact Nat.lt_irrefl _ lt
  rw [← length] at here
  exact ⟨_, by rw [roleAt?, List.getElem?_eq_getElem here]; rfl⟩

theorem takenOut_iff_role {source : List Char} {b : Nat} :
    TakenOut source (directiveAt source) b ↔
      ∃ k role, roleAt? (scanLines [] (linesKept source)) k = some role ∧ role ≠ .code ∧
        lineStart (linesKept source) k ≤ b ∧ b < lineStart (linesKept source) (k + 1) := by
  have taken {k : Nat} {role : LineRole}
      (here : roleAt? (scanLines [] (linesKept source)) k = some role) :
      role ≠ .code ↔ LineTaken (directiveAt source) k := by
    have roles := stacked_start.role_scanLines
      (fun k => congrArg (directiveAt source) (Nat.zero_add k)) here
    rwa [Nat.zero_add] at roles
  constructor
  · intro h
    obtain ⟨k, le, lt, line⟩ := h
    obtain ⟨role, here⟩ := exists_role_of_lt (Nat.lt_of_le_of_lt le lt) []
    exact ⟨k, role, here, (taken here).mpr line, le, lt⟩
  · intro h
    obtain ⟨k, role, here, cut, le, lt⟩ := h
    exact ⟨k, le, lt, (taken here).mp cut⟩

theorem dropped_iff {source : List Char} {span : Span} (full : span.startByte < span.endByte) :
    dropped source span = true ↔
      ∀ b, span.startByte ≤ b → b < span.endByte → TakenOut source (directiveAt source) b := by
  rw [dropped, covers_iff_lines source full]
  simp only [takenOut_iff_role]

namespace Concrete

@[simp] theorem markGenerated_span (n : SyntaxNode) : (markGenerated n).span = n.span := by
  unfold markGenerated
  split <;> rfl

/-- No node that holds a leaf that stays is dropped. -/
theorem drop_of_kept {drop : Span → Bool} (inner : DropsInner drop) {span : Span}
    {leaves : List (String × Span)} (holds : Holds span leaves) {x : String × Span}
    (stays : kept drop x = true) (h : x ∈ leaves) : drop span = false := by
  apply eq_false_of_ne_true
  intro dropped
  have listed := List.mem_filter.mpr ⟨h, stays⟩
  rw [filter_kept_of_dropped inner dropped holds] at listed
  cases listed

mutual
/-- Conversion keeps the leaves that stay. -/
theorem exists_leaf_convert {drop : Span → Bool} (inner : DropsInner drop) {x : String × Span}
    (stays : kept drop x = true) :
    (c : Concrete) → c.Nested → x ∈ c.leaves → ∀ ts : List TokenTrivia,
      ∃ m ∈ (c.convert drop ts).1, ∃ n ∈ m.preorder, n.IsLeaf x
  | token text span, _, h, ts => by
      rw [leaves, List.mem_singleton] at h
      rw [h, kept, Bool.not_eq_true'] at stays
      rw [h, convert, stays]
      exact ⟨_, rfl, _, SyntaxNode.mem_preorder_self _, rfl, rfl, rfl⟩
  | node kind name span children, nested, h, ts => by
      obtain ⟨m, child, n, below, leaf⟩ :=
        exists_leaf_convertAll inner stays children nested.2 h ts
      rw [convert, drop_of_kept inner nested.1 stays h]
      refine ⟨_, rfl, n, SyntaxNode.mem_preorder_of_child ?_ below, leaf⟩
      rw [markGenerated_children]
      exact child
  | usingDirective text span children, nested, h, ts => by
      obtain ⟨m, child, n, below, leaf⟩ :=
        exists_leaf_convertAll inner stays children nested.2 h ts
      rw [convert, drop_of_kept inner nested.1 stays h]
      exact ⟨_, rfl, n, SyntaxNode.mem_preorder_of_child child below, leaf⟩

theorem exists_leaf_convertAll {drop : Span → Bool} (inner : DropsInner drop)
    {x : String × Span} (stays : kept drop x = true) :
    (cs : List Concrete) → ForestNested cs → x ∈ forestLeaves cs → ∀ ts : List TokenTrivia,
      ∃ m ∈ (convertAll drop cs ts).1, ∃ n ∈ m.preorder, n.IsLeaf x
  | [], _, h, _ => nomatch h
  | c :: cs, nested, h, ts => by
      rw [forestLeaves, List.mem_append] at h
      simp only [convertAll]
      cases h with
      | inl first =>
          obtain ⟨m, child, found⟩ := exists_leaf_convert inner stays c nested.1 first ts
          exact ⟨m, List.mem_append_left _ (Option.mem_toList.mpr child), found⟩
      | inr later =>
          obtain ⟨m, child, found⟩ :=
            exists_leaf_convertAll inner stays cs nested.2 later (c.convert drop ts).2
          exact ⟨m, List.mem_append_right _ child, found⟩
end

mutual
/-- No node of a converted tree lies in what is dropped. -/
theorem drop_of_mem_convert {drop : Span → Bool} :
    (c : Concrete) → ∀ ts : List TokenTrivia, ∀ m ∈ (c.convert drop ts).1,
      ∀ n ∈ m.preorder, drop n.span = false
  | token text span, ts, m, made, n, h => by
      rw [convert] at made
      split at made
      · cases made
      · next kept =>
          cases made
          rw [SyntaxNode.preorder_eq] at h
          rw [List.mem_singleton.mp h]
          simp only [Bool.or_eq_true, not_or, Bool.not_eq_true] at kept
          exact kept.1
  | node kind name span children, ts, m, made, n, h => by
      rw [convert] at made
      split at made
      · cases made
      · next kept =>
          cases made
          rw [SyntaxNode.preorder_eq, List.mem_cons, markGenerated_children, List.mem_flatMap] at h
          cases h with
          | inl own =>
              rw [own, markGenerated_span]
              exact eq_false_of_ne_true kept
          | inr below =>
              obtain ⟨child, among, h⟩ := below
              exact drop_of_mem_convertAll children ts child among n h
  | usingDirective text span children, ts, m, made, n, h => by
      rw [convert] at made
      split at made
      · cases made
      · next kept =>
          cases made
          rw [SyntaxNode.preorder_eq, List.mem_cons, List.mem_flatMap] at h
          cases h with
          | inl own =>
              rw [own]
              exact eq_false_of_ne_true kept
          | inr below =>
              obtain ⟨child, among, h⟩ := below
              exact drop_of_mem_convertAll children ts child among n h

theorem drop_of_mem_convertAll {drop : Span → Bool} :
    (cs : List Concrete) → ∀ ts : List TokenTrivia, ∀ m ∈ (convertAll drop cs ts).1,
      ∀ n ∈ m.preorder, drop n.span = false
  | [], _, _, made, _, _ => nomatch made
  | c :: cs, ts, m, made, n, h => by
      simp only [convertAll, List.mem_append] at made
      cases made with
      | inl first => exact drop_of_mem_convert c ts m (Option.mem_toList.mp first) n h
      | inr later => exact drop_of_mem_convertAll cs _ m later n h
end

end Concrete

theorem exists_leaf_trailing {n : SyntaxNode} {x : String × Span} {rest : List Trivia} :
    (∃ m ∈ ({ n with trailing := rest } : SyntaxNode).preorder, m.IsLeaf x) ↔
      ∃ m ∈ n.preorder, m.IsLeaf x := by
  simp only [SyntaxNode.preorder_eq, List.mem_cons, exists_eq_or_imp]
  rfl

/-- A token of the concrete tree is in the syntax tree if and only if it is not dropped. -/
theorem hasToken_iff {file : ConcreteFile} {source : List Char} (nested : file.root.Nested)
    {x : String × Span} (hx : x ∈ file.root.tokens) (path : String) :
    (file.syntaxTree path source).HasToken x ↔ dropped source x.2 = false := by
  rw [SyntaxTree.HasToken, SyntaxNode.descendants_eq, ConcreteFile.root_eq, exists_leaf_trailing,
    ConcreteFile.bareRoot]
  constructor
  · intro found
    obtain ⟨n, listed, kind, -, place⟩ := found
    cases made : (file.root.convert (dropped source) (file.layout source).tokens).1 with
    | none =>
        rw [made, SyntaxNode.preorder_eq] at listed
        rw [List.mem_singleton.mp listed] at kind
        cases kind
    | some m =>
        rw [made] at listed
        rw [← place]
        exact Concrete.drop_of_mem_convert file.root _ m made n listed
  · intro stays
    have kept : x ∈ file.root.leaves.filter (Concrete.kept (dropped source)) := by
      rw [file.root.filter_kept, List.mem_filter, stays]
      exact ⟨hx, rfl⟩
    obtain ⟨leaf, kept⟩ := List.mem_filter.mp kept
    obtain ⟨m, made, found⟩ := Concrete.exists_leaf_convert (dropsInner_dropped source) kept
      file.root nested leaf (file.layout source).tokens
    rw [Option.mem_def.mp made]
    exact found

/-- The text of a string: verbatim, raw, interpolated or none of these. -/
def isStringLiteral (text : List Char) : Bool :=
  (text.dropWhile fun c => c = '$' || c = '@').head? = some '"'

namespace ConcreteFile

/-- Whether what stands at a byte stands inside a string or a comment. -/
def hides (file : ConcreteFile) (b : Nat) : Bool :=
  file.root.tokens.any (fun x => isStringLiteral x.1.toList && x.2.holds b) ||
    file.islands.any fun i => i.kind.isComment && i.span.holds b

/-- The directive that a line holds outside strings and comments. -/
def directiveAt (file : ConcreteFile) (source : List Char) (k : Nat) : Option Conditional :=
  if file.hides (lineStart (linesKept source) k) then none else CSharp.directiveAt source k

/-- A line inside a string or a comment looks like a directive. -/
def Misleads (file : ConcreteFile) (source : List Char) (k : Nat) : Prop :=
  file.hides (lineStart (linesKept source) k) = true ∧ (CSharp.directiveAt source k).isSome = true

instance (file : ConcreteFile) (source : List Char) (k : Nat) :
    Decidable (file.Misleads source k) :=
  inferInstanceAs (Decidable (_ ∧ _))

end ConcreteFile

/-- Up to the first misleading line, nothing is taken out but what the directives outside strings
and comments take out. -/
theorem TakenOut.of_looks {file : ConcreteFile} {source : List Char} {b : Nat}
    (later : ∀ k, file.Misleads source k → b < lineStart (linesKept source) k) :
    TakenOut source (directiveAt source) b → TakenOut source (file.directiveAt source) b := by
  intro taken
  obtain ⟨k, le, lt, line⟩ := taken
  refine ⟨k, le, lt, line.congr ?_⟩
  intro m earlier
  have before := lineStart_mono (linesKept source) earlier
  rw [ConcreteFile.directiveAt]
  split
  · next hidden =>
      cases read : directiveAt source m with
      | none => rfl
      | some c =>
          have behind := later m ⟨hidden, by rw [read]; rfl⟩
          omega
  · rfl

/-- A token of a file is in its tree if and only if one of its bytes is not taken out, by the
directives as they look. So it is in the tree if it has a byte that the directives outside strings
and comments do not take out, and no misleading line stands before that byte. -/
theorem hasToken_iff_not_takenOut (file : ConcreteFile) (source : List Char) (path : String)
    (nested : file.root.Nested) (x : String × Span) (hx : x ∈ file.root.tokens) :
    ((file.syntaxTree path source).HasToken x ↔
        ∃ b, x.2.startByte ≤ b ∧ b < x.2.endByte ∧ ¬ TakenOut source (directiveAt source) b) ∧
      ∀ b, x.2.startByte ≤ b → b < x.2.endByte →
        ¬ TakenOut source (file.directiveAt source) b →
        (∀ k, file.Misleads source k → b < lineStart (linesKept source) k) →
        (file.syntaxTree path source).HasToken x := by
  have full : x.2.startByte < x.2.endByte := by simpa using (List.mem_filter.mp hx).2
  have bytes : (file.syntaxTree path source).HasToken x ↔
      ∃ b, x.2.startByte ≤ b ∧ b < x.2.endByte ∧ ¬ TakenOut source (directiveAt source) b := by
    rw [hasToken_iff nested hx, ← Bool.not_eq_true, dropped_iff full]
    simp only [Classical.not_forall, exists_prop]
  refine ⟨bytes, ?_⟩
  intro b le lt stays later
  exact bytes.mpr ⟨b, le, lt, fun taken => stays (taken.of_looks later)⟩

mutual
def Concrete.decNested : (c : Concrete) → Decidable c.Nested
  | .token _ _ => .isTrue trivial
  | .node _ _ _ children | .usingDirective _ _ children =>
      @instDecidableAnd _ _ (List.decidableBAll _ (forestLeaves children))
        (Concrete.decForestNested children)

def Concrete.decForestNested : (cs : List Concrete) → Decidable (ForestNested cs)
  | [] => .isTrue trivial
  | c :: cs => @instDecidableAnd _ _ c.decNested (Concrete.decForestNested cs)
end

instance (c : Concrete) : Decidable c.Nested := c.decNested

/-- Without directives nothing is taken out. -/
theorem not_takenOut {source : List Char} {d : Nat → Option Conditional} (none : ∀ k, d k = none)
    (b : Nat) : ¬ TakenOut source d b := by
  intro taken
  obtain ⟨k, -, -, line⟩ := taken
  cases line with
  | inl directive => simp [none] at directive
  | inr inside =>
      obtain ⟨i, j, -, ends, -⟩ := inside
      have read := ends.1
      rw [none] at read
      cases read

/-- A string with two lines in it that look like directives, and a class behind it. -/
def templateText : List Char :=
  ("class Template \x7b\n  string text = @\"\n#if A\n#else\n\";\n\x7d\n" ++
    "class Orders \x7b \x7d\n").toList

def ConcreteFile.template : ConcreteFile where
  root := .node .compilationUnit none ⟨0, 70, 1, 1, 8, 1⟩
    [.node .classDeclaration (some "Template") ⟨0, 52, 1, 1, 6, 2⟩
      [.token "class" (.onLine 0 5 1 1), .token "Template" (.onLine 6 14 1 7),
       .node .other none ⟨15, 52, 1, 16, 6, 2⟩
        [.token "\x7b" (.onLine 15 16 1 16),
         .node .other none ⟨19, 50, 2, 3, 5, 3⟩
          [.token "string" (.onLine 19 25 2 3), .token "text" (.onLine 26 30 2 10),
           .token "=" (.onLine 31 32 2 15), .token "@\"\n#if A\n#else\n\"" ⟨33, 49, 2, 17, 5, 2⟩,
           .token ";" (.onLine 49 50 5 2)],
         .token "\x7d" (.onLine 51 52 6 1)]],
     .node .classDeclaration (some "Orders") (.onLine 53 69 7 1)
      [.token "class" (.onLine 53 58 7 1), .token "Orders" (.onLine 59 65 7 7),
       .node .other none (.onLine 66 69 7 14)
        [.token "\x7b" (.onLine 66 67 7 14), .token "\x7d" (.onLine 68 69 7 16)]]]
  islands := []

theorem nested_template : ConcreteFile.template.root.Nested := by
  decide +kernel

theorem directiveAt_template (k : Nat) :
    ConcreteFile.template.directiveAt templateText k = none := by
  have lines : (linesKept templateText).length = 7 := by decide +kernel
  by_cases lt : k < 7
  · have all : ∀ k, k < 7 → ConcreteFile.template.directiveAt templateText k = none := by
      decide +kernel
    exact all k lt
  · rw [ConcreteFile.directiveAt, directiveAt, List.getElem?_eq_none (by omega), Option.bind_none,
      ite_self]

/-- The string that holds the misleading lines is in the tree. -/
theorem hasToken_template :
    let file := ConcreteFile.template
    let literal := ("@\"\n#if A\n#else\n\"", (⟨33, 49, 2, 17, 5, 2⟩ : Span))
    file.root.Nested ∧ literal ∈ file.root.tokens ∧ file.Misleads templateText 2 ∧
      (file.syntaxTree "Orders.cs" templateText).HasToken literal := by
  intro file literal
  have token : literal ∈ file.root.tokens := by decide +kernel
  refine ⟨nested_template, token, by decide +kernel, ?_⟩
  apply (hasToken_iff_not_takenOut file templateText "Orders.cs" nested_template literal
    token).2 33
  · decide
  · decide
  · exact not_takenOut directiveAt_template 33
  · intro k misleads
    by_cases behind : 2 ≤ k
    · have start : lineStart (linesKept templateText) 2 = 36 := by decide +kernel
      have le := lineStart_mono (linesKept templateText) behind
      omega
    · have plain : ∀ k, k < 2 → directiveAt templateText k = none := by decide +kernel
      rw [ConcreteFile.Misleads, plain k (by omega)] at misleads
      cases misleads.2

/-- A string takes the class behind it out of the tree. -/
theorem orders_taken_out_by_string :
    let file := ConcreteFile.template
    let orders := ("Orders", Span.onLine 59 65 7 7)
    file.root.Nested ∧ orders ∈ file.root.tokens ∧
      (∀ b, ¬ TakenOut templateText (file.directiveAt templateText) b) ∧
      ¬ (file.syntaxTree "Orders.cs" templateText).HasToken orders := by
  intro file orders
  have token : orders ∈ file.root.tokens := by decide +kernel
  refine ⟨nested_template, token, not_takenOut directiveAt_template, ?_⟩
  intro found
  have stays := (hasToken_iff nested_template token "Orders.cs").mp found
  have taken : dropped templateText orders.2 = true := by decide +kernel
  rw [taken] at stays
  cases stays

end CSharp
end Antipattern
