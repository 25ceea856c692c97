import Antipattern.CSharp.File
import Antipattern.Order.StableSort
import Antipattern.Proofs.DocumentOrder
import Antipattern.Proofs.TriviaLayout

/-!
The syntax tree of a file holds its text, all of it and nothing else. The layout cuts the source
into tokens and trivia without leaving anything out. The conversion skips what the layout skips, so
it hands the trivia to the same tokens in the same order. What a `#if` block takes out comes back as
trivia.
-/

namespace Antipattern

/-- The text of a token between its trivia. -/
def SyntaxNode.fullText (n : SyntaxNode) : List Char :=
  triviaText n.leading ++ (n.name.getD "").toList ++ triviaText n.trailing

/-- The tokens of a tree with their trivia in document order, and what stands behind the last. -/
def SyntaxTree.fullText (t : SyntaxTree) : List Char :=
  (t.root.descendants.filter SyntaxNode.isToken).flatMap SyntaxNode.fullText ++
    triviaText t.root.trailing

/-- The tokens of a subtree in document order. -/
def SyntaxNode.tokens (n : SyntaxNode) : List SyntaxNode :=
  n.descendants.filter SyntaxNode.isToken

namespace SyntaxNode

theorem tokens_eq (n : SyntaxNode) : n.tokens = n.preorder.filter isToken := by
  rw [tokens, descendants_eq]

theorem tokens_of_node {n : SyntaxNode} (h : n.kind ≠ .token) :
    n.tokens = n.children.flatMap tokens := by
  have noToken : n.isToken = false := by simpa [isToken] using h
  rw [tokens_eq, preorder_eq, List.filter_cons_of_neg (by simp [noToken]), List.filter_flatMap]
  rw [show tokens = fun c => c.preorder.filter isToken from funext tokens_eq]

end SyntaxNode

namespace CSharp

open Text

/-- The stretches meet, and neither holds the other. -/
def PartlyOverlap (a b : Nat × Nat) : Prop :=
  a.1 < b.2 ∧ b.1 < a.2 ∧ ¬ (a.1 ≤ b.1 ∧ b.2 ≤ a.2) ∧ ¬ (b.1 ≤ a.1 ∧ a.2 ≤ b.2)

instance (a b : Nat × Nat) : Decidable (PartlyOverlap a b) :=
  inferInstanceAs (Decidable (_ ∧ _ ∧ _ ∧ _))

namespace Concrete

mutual
/-- Leaves with their texts, in document order. -/
def leaves : Concrete → List (String × Span)
  | token text span => [(text, span)]
  | node _ _ _ children => forestLeaves children
  | usingDirective _ _ children => forestLeaves children

def forestLeaves : List Concrete → List (String × Span)
  | [] => []
  | c :: cs => c.leaves ++ forestLeaves cs
end

/-- The leaves that are not empty. -/
def tokens (c : Concrete) : List (String × Span) :=
  c.leaves.filter fun x => x.2.startByte < x.2.endByte

/-- The stretch holds all leaves that are not empty. -/
def Holds (span : Span) (leaves : List (String × Span)) : Prop :=
  ∀ x ∈ leaves, x.2.startByte < x.2.endByte →
    span.startByte ≤ x.2.startByte ∧ x.2.endByte ≤ span.endByte

mutual
/-- Only leaves are of the kind of tokens. -/
def Proper : Concrete → Prop
  | token _ _ => True
  | node kind _ _ children => kind ≠ .token ∧ ForestProper children
  | usingDirective _ _ children => ForestProper children

def ForestProper : List Concrete → Prop
  | [] => True
  | c :: cs => c.Proper ∧ ForestProper cs
end

mutual
/-- The span of a node holds what stands below the node. -/
def Nested : Concrete → Prop
  | token _ _ => True
  | node _ _ span children | usingDirective _ span children =>
      Holds span (forestLeaves children) ∧ ForestNested children

def ForestNested : List Concrete → Prop
  | [] => True
  | c :: cs => c.Nested ∧ ForestNested cs
end

end Concrete

/-- The file's concrete tree and its islands are cut out of the source: tokens and islands start
and end between characters and do not overlap, and no token straddles the edge of a directive line
or of a disabled run. -/
structure ConcreteFile.Over (file : ConcreteFile) (source : List Char) : Prop where
  root : ∀ text span, file.root ≠ .token text span
  proper : file.root.Proper
  nested : file.root.Nested
  texts : ∀ x ∈ file.root.tokens, StandsAt source x.2.startByte x.2.endByte x.1.toList
  breaks : ∀ x ∈ file.root.tokens, startsWithBreak x.1.toList = false
  ordered : file.root.tokens.Pairwise fun x y => x.2.endByte ≤ y.2.startByte
  islands : ∀ i ∈ file.islands, Boundary source i.span.startByte ∧
    Boundary source i.span.endByte ∧ i.span.startByte ≤ i.span.endByte
  apart : ∀ x ∈ file.root.tokens, ∀ i ∈ file.islands,
    x.2.endByte ≤ i.span.startByte ∨ i.span.endByte ≤ x.2.startByte
  cuts : ∀ x ∈ file.root.tokens, ∀ r ∈ cutRanges source,
    ¬ PartlyOverlap (x.2.startByte, x.2.endByte) (r.start, r.stop)

namespace Concrete

/-- A leaf that stays in the tree. -/
def kept (drop : Span → Bool) (x : String × Span) : Bool :=
  !(drop x.2 || x.2.endByte ≤ x.2.startByte)

/-- What lies in a dropped stretch is dropped. -/
def DropsInner (drop : Span → Bool) : Prop :=
  ∀ outer span : Span, drop outer = true → span.startByte < span.endByte →
    outer.startByte ≤ span.startByte ∧ span.endByte ≤ outer.endByte → drop span = true

theorem filter_kept_of_dropped {drop : Span → Bool} (inner : DropsInner drop) {span : Span}
    {leaves : List (String × Span)} (dropped : drop span = true) (holds : Holds span leaves) :
    leaves.filter (kept drop) = [] := by
  rw [List.filter_eq_nil_iff]
  intro x hx
  by_cases empty : x.2.endByte ≤ x.2.startByte
  · simp [kept, empty]
  · have full : x.2.startByte < x.2.endByte := by omega
    simp [kept, inner span x.2 dropped full (holds x hx full)]

mutual
/-- The layout takes up the leaves that stay. -/
theorem tokenSpans_eq {drop : Span → Bool} (inner : DropsInner drop) :
    (c : Concrete) → c.Nested → c.tokenSpans drop = (c.leaves.filter (kept drop)).map (·.2)
  | token text span, _ => by
      rw [tokenSpans, leaves, List.filter_cons, List.filter_nil]
      cases dropped : drop span with
      | true => simp [kept, dropped]
      | false =>
          by_cases full : span.startByte < span.endByte
          · simp [kept, dropped, full]
          · simp [kept, dropped, full, Nat.le_of_not_lt full]
  | node _ _ span children, h | usingDirective _ span children, h => by
      rw [tokenSpans, leaves]
      cases dropped : drop span with
      | true =>
          rw [filter_kept_of_dropped inner dropped h.1]
          rfl
      | false => exact forestTokenSpans_eq inner children h.2

theorem forestTokenSpans_eq {drop : Span → Bool} (inner : DropsInner drop) :
    (cs : List Concrete) → ForestNested cs →
      forestTokenSpans drop cs = ((forestLeaves cs).filter (kept drop)).map (·.2)
  | [], _ => rfl
  | c :: cs, h => by
      rw [forestTokenSpans, forestLeaves, List.filter_append, List.map_append,
        tokenSpans_eq inner c h.1, forestTokenSpans_eq inner cs h.2]
end

end Concrete

/-- The token of a leaf with its share of the trivia. -/
def tokenOf (x : String × Span) (t : TokenTrivia) : SyntaxNode :=
  { kind := .token, span := x.2, name := some x.1, leading := t.leading, trailing := t.trailing }

/-- The shares are those of the leaves, one each. -/
def Shares (leaves : List (String × Span)) (ts : List TokenTrivia) : Prop :=
  ts.map (·.start) = leaves.map (·.2.startByte)

theorem Shares.length {leaves : List (String × Span)} {ts : List TokenTrivia}
    (h : Shares leaves ts) : leaves.length = ts.length := by
  simpa using (congrArg List.length h).symm

theorem Shares.split {first rest : List (String × Span)} {ts : List TokenTrivia}
    (h : Shares (first ++ rest) ts) :
    ∃ us vs, ts = us ++ vs ∧ Shares first us ∧ Shares rest vs := by
  rw [Shares, List.map_append] at h
  exact List.map_eq_append_iff.mp h

theorem flatMap_fullText {texts : Nat → List Char} {leaves : List (String × Span)}
    {ts : List TokenTrivia} (h : Shares leaves ts)
    (named : ∀ x ∈ leaves, texts x.2.startByte = x.1.toList) :
    (List.zipWith tokenOf leaves ts).flatMap SyntaxNode.fullText =
      ts.flatMap (TokenTrivia.text texts) := by
  induction leaves generalizing ts with
  | nil =>
      obtain rfl := List.map_eq_nil_iff.mp h
      rfl
  | cons x leaves ih =>
      obtain ⟨t, ts, rfl, start, rest⟩ := List.map_eq_cons_iff.mp h
      obtain ⟨own, named⟩ := List.forall_mem_cons.mp named
      rw [List.zipWith_cons_cons, List.flatMap_cons, List.flatMap_cons, ih rest named,
        TokenTrivia.text, start, own]
      rfl

namespace Concrete

@[simp] theorem markGenerated_kind (n : SyntaxNode) : (markGenerated n).kind = n.kind := by
  unfold markGenerated
  split <;> rfl

@[simp] theorem markGenerated_children (n : SyntaxNode) :
    (markGenerated n).children = n.children := by
  unfold markGenerated
  split <;> rfl

mutual
/-- The conversion keeps the leaves that stay, and each takes the next share of the trivia. -/
theorem tokens_convert {drop : Span → Bool} (inner : DropsInner drop) (more : List TokenTrivia) :
    (c : Concrete) → c.Proper → c.Nested → ∀ ts : List TokenTrivia,
      Shares (c.leaves.filter (kept drop)) ts →
      (c.convert drop (ts ++ more)).1.toList.flatMap SyntaxNode.tokens =
          List.zipWith tokenOf (c.leaves.filter (kept drop)) ts ∧
        (c.convert drop (ts ++ more)).2 = more
  | token text span, _, _, ts, shares => by
      rw [leaves, List.filter_cons, List.filter_nil] at shares ⊢
      rw [convert]
      cases skipped : drop span || decide (span.endByte ≤ span.startByte) with
      | true =>
          rw [kept, skipped] at shares ⊢
          obtain rfl := List.map_eq_nil_iff.mp shares
          exact ⟨rfl, rfl⟩
      | false =>
          rw [kept, skipped] at shares ⊢
          obtain ⟨t, rfl, start⟩ := List.map_eq_singleton_iff.mp shares
          simp only [List.singleton_append, takeTrivia, start, ite_true]
          exact ⟨(List.flatMap_singleton _ _).trans (SyntaxNode.tokens_eq _), rfl⟩
  | node kind name span children, proper, nested, ts, shares => by
      rw [leaves] at shares ⊢
      rw [convert]
      cases dropped : drop span with
      | true =>
          rw [filter_kept_of_dropped inner dropped nested.1] at shares ⊢
          obtain rfl := List.map_eq_nil_iff.mp shares
          exact ⟨rfl, rfl⟩
      | false =>
          obtain ⟨tokens, left⟩ :=
            tokens_convertAll inner more children proper.2 nested.2 ts shares
          refine ⟨?_, left⟩
          rw [← tokens]
          exact (List.flatMap_singleton _ _).trans <|
            (SyntaxNode.tokens_of_node (by simpa using proper.1)).trans
              (by rw [markGenerated_children])
  | usingDirective text span children, proper, nested, ts, shares => by
      rw [leaves] at shares ⊢
      rw [convert]
      cases dropped : drop span with
      | true =>
          rw [filter_kept_of_dropped inner dropped nested.1] at shares ⊢
          obtain rfl := List.map_eq_nil_iff.mp shares
          exact ⟨rfl, rfl⟩
      | false =>
          obtain ⟨tokens, left⟩ := tokens_convertAll inner more children proper nested.2 ts shares
          refine ⟨?_, left⟩
          rw [← tokens]
          exact (List.flatMap_singleton _ _).trans (SyntaxNode.tokens_of_node (by simp))

theorem tokens_convertAll {drop : Span → Bool} (inner : DropsInner drop)
    (more : List TokenTrivia) :
    (cs : List Concrete) → ForestProper cs → ForestNested cs → ∀ ts : List TokenTrivia,
      Shares ((forestLeaves cs).filter (kept drop)) ts →
      (convertAll drop cs (ts ++ more)).1.flatMap SyntaxNode.tokens =
          List.zipWith tokenOf ((forestLeaves cs).filter (kept drop)) ts ∧
        (convertAll drop cs (ts ++ more)).2 = more
  | [], _, _, ts, shares => by
      obtain rfl := List.map_eq_nil_iff.mp shares
      exact ⟨rfl, rfl⟩
  | c :: cs, proper, nested, ts, shares => by
      rw [forestLeaves, List.filter_append] at shares ⊢
      obtain ⟨first, rest, rfl, firstShares, restShares⟩ := shares.split
      obtain ⟨tokens, left⟩ :=
        tokens_convert inner (rest ++ more) c proper.1 nested.1 first firstShares
      obtain ⟨others, leftAll⟩ :=
        tokens_convertAll inner more cs proper.2 nested.2 rest restShares
      simp only [convertAll, List.append_assoc, left, leftAll, List.flatMap_append, tokens, others,
        and_true]
      exact (List.zipWith_append firstShares.length).symm
end

end Concrete

theorem exists_texts {ts : List (String × Span)}
    (distinct : ts.Pairwise fun x y => x.2.startByte ≠ y.2.startByte) :
    ∃ texts : Nat → List Char, ∀ x ∈ ts, texts x.2.startByte = x.1.toList := by
  induction ts with
  | nil => exact ⟨fun _ => [], fun x hx => nomatch hx⟩
  | cons x ts ih =>
      obtain ⟨apart, distinct⟩ := List.pairwise_cons.mp distinct
      obtain ⟨texts, named⟩ := ih distinct
      refine ⟨fun start => if start = x.2.startByte then x.1.toList else texts start, ?_⟩
      rw [List.forall_mem_cons]
      exact ⟨if_pos rfl, fun y hy => (if_neg (apart y hy).symm).trans (named y hy)⟩

theorem StandsAt.boundaries {source text : List Char} {start stop : Nat}
    (h : StandsAt source start stop text) : Boundary source start ∧ Boundary source stop := by
  obtain ⟨before, behind, split, rfl, rfl⟩ := h
  refine ⟨⟨before, _, split, rfl⟩, before ++ text, behind, ?_, byteLength_append before text⟩
  rw [split, List.append_assoc]

theorem Concrete.filter_kept (c : Concrete) (drop : Span → Bool) :
    c.leaves.filter (kept drop) = c.tokens.filter fun x => !drop x.2 := by
  rw [tokens, List.filter_filter]
  apply List.filter_congr
  intro x _
  have nonempty : (!decide (x.2.endByte ≤ x.2.startByte)) = decide (x.2.startByte < x.2.endByte) := by
    rw [← decide_not]
    exact decide_eq_decide.mpr Nat.not_le
  rw [kept, Bool.not_or, nonempty]

/-- Whether conditional compilation takes a stretch out of the source. -/
def dropped (source : List Char) (span : Span) : Bool :=
  covers (coveredRanges (cutRanges source)) span.startByte span.endByte

theorem dropsInner_dropped (source : List Char) : Concrete.DropsInner (dropped source) :=
  fun _ _ outer full inside => covers_mono full inside outer

namespace ConcreteFile

/-- The tokens that conditional compilation leaves in the tree. -/
def keptTokens (file : ConcreteFile) (source : List Char) : List (String × Span) :=
  file.root.tokens.filter fun x => !dropped source x.2

/-- The pieces of the file before they are sorted. -/
def pieces (file : ConcreteFile) (source : List Char) : List Piece :=
  (file.keptTokens source).map (fun x => Piece.ofSpan x.2) ++
    (file.islands.filter fun i => !dropped source i.span).map Piece.ofIsland ++
    (cutRanges source).map Piece.ofCut

namespace Over

variable {file : ConcreteFile} {source : List Char}

theorem full_of_kept {x : String × Span} (hx : x ∈ file.keptTokens source) :
    x ∈ file.root.tokens ∧ x.2.startByte < x.2.endByte ∧ dropped source x.2 = false := by
  obtain ⟨token, kept⟩ := List.mem_filter.mp hx
  exact ⟨token, by simpa using (List.mem_filter.mp token).2, by simpa using kept⟩

theorem eq_of_mem_pieces {p : Piece} (hp : p ∈ file.pieces source) :
    (∃ x ∈ file.keptTokens source, p = .ofSpan x.2) ∨
      (∃ i ∈ file.islands, p = .ofIsland i) ∨ ∃ r ∈ cutRanges source, p = .ofCut r := by
  simp only [pieces, List.mem_append, List.mem_map, or_assoc] at hp
  rcases hp with ⟨x, hx, rfl⟩ | ⟨i, hi, rfl⟩ | ⟨r, hr, rfl⟩
  · exact .inl ⟨x, hx, rfl⟩
  · exact .inr (.inl ⟨i, (List.mem_filter.mp hi).1, rfl⟩)
  · exact .inr (.inr ⟨r, hr, rfl⟩)

theorem filter_pieces :
    (file.pieces source).filter (·.content = .token) =
      (file.keptTokens source).map fun x => Piece.ofSpan x.2 := by
  have tokens : ∀ p ∈ (file.keptTokens source).map (fun x => Piece.ofSpan x.2),
      decide (p.content = .token) = true := by
    intro p hp
    obtain ⟨x, -, rfl⟩ := List.mem_map.mp hp
    rfl
  rw [pieces, List.append_assoc, List.filter_append, List.filter_eq_self.mpr tokens,
    List.filter_eq_nil_iff.mpr, List.append_nil]
  intro p hp
  rcases List.mem_append.mp hp with hp | hp
  · obtain ⟨i, -, rfl⟩ := List.mem_map.mp hp
    simp [Piece.ofIsland]
  · obtain ⟨r, -, rfl⟩ := List.mem_map.mp hp
    simp [Piece.ofCut]

variable (h : file.Over source)
include h

theorem kept_ordered :
    (file.keptTokens source).Pairwise fun x y => x.2.endByte ≤ y.2.startByte :=
  h.ordered.filter _

theorem kept_distinct :
    (file.keptTokens source).Pairwise fun x y => x.2.startByte ≠ y.2.startByte := by
  refine h.kept_ordered.imp_of_mem fun {x y} hx _ ordered same => ?_
  have := (full_of_kept hx).2.1
  omega

theorem placed_of_mem {texts : Nat → List Char}
    (named : ∀ x ∈ file.keptTokens source, texts x.2.startByte = x.1.toList) {p : Piece}
    (hp : p ∈ file.pieces source) : p.Placed texts source := by
  rcases eq_of_mem_pieces hp with ⟨x, hx, rfl⟩ | ⟨i, hi, rfl⟩ | ⟨r, hr, rfl⟩
  · obtain ⟨token, full, -⟩ := full_of_kept hx
    have stands := h.texts x token
    have nonempty : x.1.toList ≠ [] := by
      intro empty
      obtain ⟨_, _, -, -, bytes⟩ := stands
      rw [empty, byteLength_nil] at bytes
      omega
    have named := named x hx
    refine ⟨stands.boundaries.1, stands.boundaries.2, Nat.le_of_lt full, fun _ => ?_⟩
    simp only [Piece.ofSpan, named]
    exact ⟨stands, nonempty, h.breaks x token⟩
  · obtain ⟨start, stop, le⟩ := h.islands i hi
    exact ⟨start, stop, le, fun token => nomatch token⟩
  · have within := within_of_mem_cutRanges hr
    exact ⟨within.start, within.stop, Nat.le_of_lt within.proper, fun token => nomatch token⟩

/-- A piece that starts before a token ends before it. -/
theorem before_of_lt {p q : Piece} (hp : p ∈ file.pieces source) (hq : q ∈ file.pieces source)
    (lt : p.start < q.start) : p.Before q := by
  intro token
  rcases eq_of_mem_pieces hq with ⟨y, hy, rfl⟩ | ⟨_, _, rfl⟩ | ⟨_, _, rfl⟩
  · obtain ⟨tokenY, full, stays⟩ := full_of_kept hy
    rcases eq_of_mem_pieces hp with ⟨x, hx, rfl⟩ | ⟨i, hi, rfl⟩ | ⟨r, hr, rfl⟩
    · refine List.Pairwise.forall_of_forall_of_flip
        (R := fun x y : String × Span => x.2.startByte < y.2.startByte →
          x.2.endByte ≤ y.2.startByte)
        (fun x _ lt => absurd lt (Nat.lt_irrefl _)) ?_ ?_ hx hy lt
      · refine h.kept_ordered.imp ?_
        intro a b le _
        exact le
      · refine h.kept_ordered.imp_of_mem fun {a b} ha _ le lt => ?_
        have := (full_of_kept ha).2.1
        omega
    · have := h.apart y tokenY i hi
      simp only [Piece.ofSpan, Piece.ofIsland] at lt ⊢
      omega
    · simp only [Piece.ofSpan, Piece.ofCut] at lt ⊢
      have whole := h.cuts y tokenY r hr
      by_cases inside : y.2.endByte ≤ r.stop
      · have := covers_of_mem_cutRanges hr full ⟨Nat.le_of_lt lt, inside⟩
        rw [dropped, this] at stays
        cases stays
      · simp only [PartlyOverlap] at whole
        omega
  · cases token
  · cases token

theorem pieces_ordered : (file.pieces source).Pairwise Piece.Before := by
  rw [pieces, List.append_assoc, List.pairwise_append]
  have trivia : ∀ q ∈ (file.islands.filter fun i => !dropped source i.span).map Piece.ofIsland ++
      (cutRanges source).map Piece.ofCut, q.content ≠ .token := by
    intro q hq token
    rcases List.mem_append.mp hq with hq | hq
    · obtain ⟨i, -, rfl⟩ := List.mem_map.mp hq
      cases token
    · obtain ⟨r, -, rfl⟩ := List.mem_map.mp hq
      cases token
  refine ⟨?_, ?_, fun p _ q hq token => absurd token (trivia q hq)⟩
  · rw [List.pairwise_map]
    refine h.kept_ordered.imp ?_
    intro a b le _
    exact le
  · exact List.pairwise_of_forall_mem_list fun p _ q hq token => absurd token (trivia q hq)

/-- The sorted pieces: tokens in the order of the tree, and none of them reached into. -/
theorem sorted_pieces :
    let sorted := (file.pieces source).mergeSort fun p q => p.start ≤ q.start
    sorted.Pairwise Piece.Before ∧
      (sorted.filter (·.content = .token)).map (·.start) =
        (file.keptTokens source).map (·.2.startByte) := by
  intro sorted
  have same {p : Piece} : p ∈ sorted ↔ p ∈ file.pieces source :=
    (List.mergeSort_perm _ _).mem_iff
  constructor
  · refine (pairwise_mergeSort_stable Piece.start_le_trans Piece.start_le_total
      h.pieces_ordered).imp_of_mem ?_
    intro p q hp hq ⟨le, tie⟩
    by_cases lt : p.start < q.start
    · exact h.before_of_lt (same.mp hp) (same.mp hq) lt
    · exact tie (by simpa using lt)
  · rw [filter_mergeSort Piece.start_le_trans Piece.start_le_total, filter_pieces, List.map_map]
    · rfl
    · rw [filter_pieces, List.pairwise_map]
      refine h.kept_ordered.imp_of_mem fun {x y} hx _ le => ?_
      have := (full_of_kept hx).2.1
      rw [decide_eq_true_eq]
      show x.2.startByte ≤ y.2.startByte
      omega

end Over
end ConcreteFile

/-- What a node that is no leaf becomes is no token. -/
theorem Concrete.kind_convert {c : Concrete} {drop : Span → Bool} (proper : c.Proper)
    (noToken : ∀ text span, c ≠ .token text span) (ts : List TokenTrivia) :
    ∀ n ∈ (c.convert drop ts).1, n.kind ≠ .token := by
  cases c with
  | token text span => exact absurd rfl (noToken text span)
  | node kind name span children =>
      rw [convert]
      cases drop span with
      | true => simp
      | false => simpa using proper.1
  | usingDirective text span children =>
      rw [convert]
      cases drop span <;> simp

namespace ConcreteFile

/-- Where the trivia of the file goes. -/
def layout (file : ConcreteFile) (source : List Char) : Layout :=
  Layout.ofPieces source (Piece.ofFile file (dropped source) (cutRanges source))

/-- The root of the tree before it takes the trivia at the end of the file. -/
def bareRoot (file : ConcreteFile) (source : List Char) : SyntaxNode :=
  (file.root.convert (dropped source) (file.layout source).tokens).1.getD
    { kind := .compilationUnit, span := file.root.span }

theorem root_eq (file : ConcreteFile) (path : String) (source : List Char) :
    (file.syntaxTree path source).root =
      { file.bareRoot source with trailing := (file.layout source).endOfFile } :=
  rfl

namespace Over

variable {file : ConcreteFile} {source : List Char} (h : file.Over source)
include h

theorem kind_bareRoot : (file.bareRoot source).kind ≠ .token := by
  rw [bareRoot]
  cases converted : (file.root.convert (dropped source) (file.layout source).tokens).1 with
  | none => simp
  | some n => exact Concrete.kind_convert h.proper h.root _ n converted

theorem layout_eq :
    file.layout source = Layout.ofPieces source
      ((file.pieces source).mergeSort fun p q => p.start ≤ q.start) := by
  rw [layout, Piece.ofFile, Concrete.tokenSpans_eq (dropsInner_dropped source) _ h.nested,
    file.root.filter_kept, List.map_map]
  rfl

/-- Some texts are those of the tokens by their starts, and with them all pieces are in place. -/
theorem exists_placed :
    ∃ texts : Nat → List Char, (∀ x ∈ file.keptTokens source, texts x.2.startByte = x.1.toList) ∧
      ∀ p ∈ (file.pieces source).mergeSort (fun p q => p.start ≤ q.start),
        p.Placed texts source := by
  obtain ⟨texts, named⟩ := exists_texts h.kept_distinct
  exact ⟨texts, named, fun p hp =>
    h.placed_of_mem named ((List.mergeSort_perm _ _).mem_iff.mp hp)⟩

theorem shares : Shares (file.keptTokens source) (file.layout source).tokens := by
  obtain ⟨texts, -, placed⟩ := h.exists_placed
  obtain ⟨ordered, starts⟩ := h.sorted_pieces
  rw [Shares, h.layout_eq, (ofPieces_spec texts placed ordered).2, starts]

theorem tokens_bareRoot :
    (file.bareRoot source).tokens =
      List.zipWith tokenOf (file.keptTokens source) (file.layout source).tokens := by
  have shares := h.shares
  rw [keptTokens, ← file.root.filter_kept] at shares ⊢
  have tokens := (Concrete.tokens_convert (dropsInner_dropped source) [] file.root h.proper
    h.nested _ shares).1
  rw [List.append_nil] at tokens
  rw [← tokens, bareRoot]
  cases (file.root.convert (dropped source) (file.layout source).tokens).1 with
  | none => exact SyntaxNode.tokens_of_node (by simp)
  | some n => exact (List.flatMap_singleton _ _).symm

/-- The tokens of the tree are those that stay, each with its share of the trivia. -/
theorem tokens_eq (path : String) :
    (file.syntaxTree path source).root.tokens =
      List.zipWith tokenOf (file.keptTokens source) (file.layout source).tokens := by
  rw [← h.tokens_bareRoot, SyntaxNode.tokens_of_node h.kind_bareRoot, root_eq]
  exact SyntaxNode.tokens_of_node h.kind_bareRoot

theorem source_eq (path : String) :
    let root := (file.syntaxTree path source).root
    source = root.tokens.flatMap SyntaxNode.fullText ++ triviaText root.trailing := by
  intro root
  obtain ⟨texts, named, placed⟩ := h.exists_placed
  have text := (ofPieces_spec texts placed h.sorted_pieces.1).1
  rw [← h.layout_eq, ← flatMap_fullText h.shares named, ← h.tokens_eq path] at text
  exact text.symm

end Over
end ConcreteFile

/-- The tokens of a converted file, their trivia and what stands behind them give the source. -/
theorem fullText_syntaxTree (file : ConcreteFile) (path : String) (source : List Char)
    (h : file.Over source) : (file.syntaxTree path source).fullText = source :=
  (h.source_eq path).symm

/-- A documentation comment before a block with two branches; the second is disabled. -/
def twoBranchesText : List Char :=
  "/// é\r\n#if A\nx;\n#else\ny;\n#endif\n".toList

def ConcreteFile.twoBranches : ConcreteFile where
  root := .node .compilationUnit none (.onLine 8 33 2 1)
    [.node .other none (.onLine 14 16 3 1)
      [.token "x" (.onLine 14 15 3 1), .token ";" (.onLine 15 16 3 2)],
     .node .other none (.onLine 23 25 5 1)
      [.token "y" (.onLine 23 24 5 1), .token ";" (.onLine 24 25 5 2)]]
  islands := [⟨.onLine 0 6 1 1, .documentationComment⟩]

theorem fullText_twoBranches :
    ConcreteFile.twoBranches.Over twoBranchesText ∧
      (ConcreteFile.twoBranches.syntaxTree "A.cs" twoBranchesText).fullText = twoBranchesText := by
  -- one character before the tokens takes two bytes
  have placed : ∀ x ∈ ConcreteFile.twoBranches.root.tokens,
      twoBranchesText = twoBranchesText.take (x.2.startByte - 1) ++
          (x.1.toList ++ twoBranchesText.drop (x.2.endByte - 1)) ∧
        byteLength (twoBranchesText.take (x.2.startByte - 1)) = x.2.startByte ∧
        x.2.startByte + byteLength x.1.toList = x.2.endByte := by decide
  have file : ConcreteFile.twoBranches.Over twoBranchesText :=
    { root := fun text span same => nomatch same
      proper := by simp [ConcreteFile.twoBranches, Concrete.Proper, Concrete.ForestProper]
      nested := by
        simp [ConcreteFile.twoBranches, Concrete.Nested, Concrete.ForestNested, Concrete.Holds,
          Concrete.forestLeaves, Concrete.leaves, Span.onLine]
      texts := fun x hx => ⟨_, _, placed x hx⟩
      breaks := by decide
      ordered := by decide
      islands := by
        intro i hi
        obtain rfl := List.mem_singleton.mp hi
        exact ⟨⟨[], _, rfl, rfl⟩, ⟨twoBranchesText.take 5, _, rfl, by decide⟩, by decide⟩
      apart := by decide
      cuts := by decide +kernel }
  exact ⟨file, fullText_syntaxTree _ _ _ file⟩

end CSharp
end Antipattern
