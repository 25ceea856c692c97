import Antipattern.Proofs.SourceText
import Antipattern.Proofs.StrandPlaces

/-!
The tokens of a converted tree. They are the leaves that stay with their shares of the trivia in
order; so each stands in the source between its trivia, and what a node of the tree holds is a
stretch of the leaves with a stretch of the shares. All other nodes below the root are bare.
-/

namespace Antipattern

namespace SyntaxNode

theorem firstToken?_eq (n : SyntaxNode) : n.firstToken? = n.tokens.head? := by
  rw [firstToken?, tokens, List.head?_filter]

theorem infix_preorder {n root : SyntaxNode} (h : n ∈ root.preorder) :
    n.preorder <:+: root.preorder := by
  induction root using childInduction with
  | step root ih =>
      rw [preorder_eq root, List.mem_cons, List.mem_flatMap] at h
      rcases h with rfl | ⟨c, hc, hn⟩
      · exact List.infix_rfl
      · obtain ⟨before, after, split⟩ := List.append_of_mem hc
        have below : c.preorder <:+: root.children.flatMap preorder := by
          rw [split, List.flatMap_append, List.flatMap_cons, ← List.append_assoc]
          exact List.infix_append _ _ _
        rw [preorder_eq root]
        exact (ih c hc hn).trans (below.trans (List.suffix_cons _ _).isInfix)

/-- The tokens of a node stand together in the tree. -/
theorem infix_tokens {n root : SyntaxNode} (h : n ∈ root.preorder) : n.tokens <:+: root.tokens := by
  rw [tokens_eq, tokens_eq]
  exact (infix_preorder h).filter _

/-- Only tokens carry trivia. -/
def Bare (n : SyntaxNode) : Prop :=
  ∀ m ∈ n.preorder, m.isToken = false → m.ownTrivia = []

theorem flatMap_ownTrivia {ns : List SyntaxNode}
    (h : ∀ n ∈ ns, n.isToken = false → n.ownTrivia = []) :
    ns.flatMap ownTrivia = (ns.filter isToken).flatMap ownTrivia := by
  induction ns with
  | nil => rfl
  | cons n ns ih =>
      obtain ⟨own, others⟩ := List.forall_mem_cons.mp h
      rw [List.flatMap_cons, ih others, List.filter_cons]
      split
      · rfl
      · next noToken => rw [own (by simpa using noToken), List.nil_append]

theorem Bare.descendantTrivia {n : SyntaxNode} (h : n.Bare) :
    n.descendantTrivia = n.tokens.flatMap ownTrivia := by
  rw [SyntaxNode.descendantTrivia, tokens_eq, descendants_eq]
  exact flatMap_ownTrivia h

theorem Bare.of_children {n : SyntaxNode} (own : n.isToken = false → n.ownTrivia = [])
    (children : ∀ c ∈ n.children, c.Bare) : n.Bare := by
  intro m hm
  rw [preorder_eq, List.mem_cons, List.mem_flatMap] at hm
  rcases hm with rfl | ⟨c, hc, hm⟩
  · exact own
  · exact children c hc m hm

end SyntaxNode

namespace CSharp

open Text

/-- A cut between tokens is one in the leaves and one in the shares. -/
theorem Shares.of_append {leaves : List (String × Span)} {ts : List TokenTrivia}
    {before after : List SyntaxNode} (h : Shares leaves ts)
    (split : List.zipWith tokenOf leaves ts = before ++ after) :
    ∃ xs ys us vs, leaves = xs ++ ys ∧ ts = us ++ vs ∧ Shares xs us ∧ Shares ys vs ∧
      before = List.zipWith tokenOf xs us ∧ after = List.zipWith tokenOf ys vs := by
  obtain ⟨xs, ys, us, vs, same, rfl, rfl, first, rest⟩ := List.zipWith_eq_append_iff.mp split
  rw [Shares, List.map_append, List.map_append] at h
  obtain ⟨before, after⟩ := List.append_inj h (by simpa using same.symm)
  exact ⟨xs, ys, us, vs, rfl, rfl, before, after, first, rest⟩

theorem Shares.of_split {leaves : List (String × Span)} {ts : List TokenTrivia}
    {before after : List SyntaxNode} {n : SyntaxNode} (h : Shares leaves ts)
    (split : List.zipWith tokenOf leaves ts = before ++ n :: after) :
    ∃ xs x ys us u vs, leaves = xs ++ x :: ys ∧ ts = us ++ u :: vs ∧ Shares xs us ∧
      u.start = x.2.startByte ∧ Shares ys vs ∧ before = List.zipWith tokenOf xs us ∧
      n = tokenOf x u ∧ after = List.zipWith tokenOf ys vs := by
  obtain ⟨xs, _, us, _, rfl, rfl, before, rest, first, found⟩ := h.of_append split
  obtain ⟨x, ys, u, vs, rfl, rfl, own, others⟩ := List.zipWith_eq_cons_iff.mp found.symm
  obtain ⟨start, after⟩ := List.cons.inj rest
  exact ⟨xs, x, ys, us, u, vs, rfl, rfl, before, start, after, first, own, others⟩

namespace Concrete

@[simp] theorem markGenerated_ownTrivia (n : SyntaxNode) :
    (markGenerated n).ownTrivia = n.ownTrivia := by
  unfold markGenerated
  split <;> rfl

mutual
theorem bare_convert {drop : Span → Bool} : (c : Concrete) → c.Proper → ∀ ts : List TokenTrivia,
    ∀ n ∈ (c.convert drop ts).1, n.Bare
  | token text span, _, ts => by
      rw [convert]
      cases drop span || decide (span.endByte ≤ span.startByte) with
      | true => exact fun n none => nomatch none
      | false =>
          intro n made
          cases made
          exact .of_children (fun noToken => nomatch noToken) fun c child => nomatch child
  | node kind name span children, h, ts => by
      rw [convert]
      cases drop span with
      | true => exact fun n none => nomatch none
      | false =>
          intro n made
          cases made
          refine .of_children (fun _ => by rw [markGenerated_ownTrivia]; rfl) ?_
          rw [markGenerated_children]
          exact bare_convertAll children h.2 ts
  | usingDirective text span children, h, ts => by
      rw [convert]
      cases drop span with
      | true => exact fun n none => nomatch none
      | false =>
          intro n made
          cases made
          exact .of_children (fun _ => rfl) (bare_convertAll children h ts)

theorem bare_convertAll {drop : Span → Bool} : (cs : List Concrete) → ForestProper cs →
    ∀ ts : List TokenTrivia, ∀ n ∈ (convertAll drop cs ts).1, n.Bare
  | [], _, _ => fun n child => nomatch child
  | c :: cs, h, ts => by
      simp only [convertAll]
      rw [List.forall_mem_append]
      refine ⟨?_, bare_convertAll cs h.2 _⟩
      intro n child
      exact bare_convert c h.1 ts n (Option.mem_toList.mp child)
end

end Concrete

namespace ConcreteFile

theorem trailing_eq (file : ConcreteFile) (path : String) (source : List Char) :
    (file.syntaxTree path source).root.trailing = (file.layout source).endOfFile :=
  rfl

namespace Over

variable {file : ConcreteFile} {source : List Char} (h : file.Over source)
include h

theorem bare_bareRoot : (file.bareRoot source).Bare := by
  rw [bareRoot]
  cases converted : (file.root.convert (dropped source) (file.layout source).tokens).1 with
  | none => exact .of_children (fun _ => rfl) (List.forall_mem_nil _)
  | some n => exact Concrete.bare_convert file.root h.proper _ n converted

/-- A token stands in the source between its trivia, behind all tokens that come first. -/
theorem parts_of_split {path : String} {before after : List SyntaxNode} {n : SyntaxNode}
    (split : (file.syntaxTree path source).root.tokens = before ++ n :: after) :
    ∃ text rest, n.fullText = triviaText n.leading ++ (text ++ triviaText n.trailing) ∧
      source = before.flatMap SyntaxNode.fullText ++
        (triviaText n.leading ++ (text ++ (triviaText n.trailing ++ rest))) ∧
      byteLength (before.flatMap SyntaxNode.fullText) + byteLength (triviaText n.leading) =
        n.span.startByte ∧
      n.span.startByte + byteLength text = n.span.endByte := by
  obtain ⟨texts, named, placed⟩ := h.exists_placed
  rw [h.tokens_eq] at split
  obtain ⟨xs, x, ys, us, u, vs, leaves, shares, first, start, -, rfl, rfl, rfl⟩ :=
    h.shares.of_split split
  have kept : x ∈ file.keptTokens source := by simp [leaves]
  obtain ⟨_, _, -, -, stop⟩ := h.texts x (full_of_kept kept).1
  have own := named x kept
  rw [leaves] at named
  have along : Strand.Along texts Strand.AtPlace 0 (file.layout source).strands := by
    rw [h.layout_eq]
    refine along_ofPieces ?_ (atPlace_strands placed (List.nil_append source).symm)
    intro pos s atPlace
    cases s with
    | island => exact fun start same => nomatch same
    | _ => exact atPlace
  have atPlace := Layout.along_stretch along us [u] vs shares
  rw [List.flatMap_singleton, TokenTrivia.strands, Strand.along_append,
    Strand.extent_gaps] at atPlace
  have text := (ofPieces_spec texts placed h.sorted_pieces.1).1
  rw [← h.layout_eq, shares, List.flatMap_append, List.flatMap_cons, TokenTrivia.text, start,
    own] at text
  simp only [List.append_assoc] at text
  rw [flatMap_fullText first fun x hx => named x (List.mem_append_left _ hx)]
  refine ⟨x.1.toList, _, ?_, text.symm, (atPlace.2.1 u.start rfl).symm.trans start, stop⟩
  exact List.append_assoc _ _ _

theorem standsAt_leading {path : String} {before after : List SyntaxNode} {n : SyntaxNode}
    (split : (file.syntaxTree path source).root.tokens = before ++ n :: after) :
    StandsAt source (byteLength (before.flatMap SyntaxNode.fullText)) n.span.startByte
      (triviaText n.leading) := by
  obtain ⟨text, rest, -, cut, start, -⟩ := h.parts_of_split split
  exact ⟨_, _, cut, rfl, start⟩

theorem standsAt_trailing {path : String} {before after : List SyntaxNode} {n : SyntaxNode}
    (split : (file.syntaxTree path source).root.tokens = before ++ n :: after) :
    StandsAt source n.span.endByte (byteLength ((before ++ [n]).flatMap SyntaxNode.fullText))
      (triviaText n.trailing) := by
  obtain ⟨text, rest, whole, cut, start, stop⟩ := h.parts_of_split split
  refine ⟨before.flatMap SyntaxNode.fullText ++ (triviaText n.leading ++ text), rest, ?_, ?_, ?_⟩
  · rw [cut, List.append_assoc, List.append_assoc]
  · rw [byteLength_append, byteLength_append, ← Nat.add_assoc, start, stop]
  · rw [List.flatMap_append, List.flatMap_singleton, whole, ← stop, ← start]
    simp only [byteLength_append, Nat.add_assoc]

/-- Below the root only tokens carry trivia. -/
theorem bare_children (path : String) :
    ∀ c ∈ (file.syntaxTree path source).root.children, c.Bare := by
  intro c child m hm
  rw [root_eq] at child
  exact h.bare_bareRoot m (SyntaxNode.mem_preorder_of_child child hm)

/-- A node below the root has its trivia at its tokens, and they stand together in the tree. -/
theorem tokens_of_mem {path : String} {child n : SyntaxNode}
    (below : child ∈ (file.syntaxTree path source).root.children) (hn : n ∈ child.descendants) :
    n.Bare ∧ ∃ before after,
      (file.syntaxTree path source).root.tokens = before ++ (n.tokens ++ after) := by
  rw [SyntaxNode.descendants_eq] at hn
  have bare : n.Bare := fun m hm =>
    h.bare_children path child below m ((SyntaxNode.infix_preorder hn).subset hm)
  obtain ⟨before, after, split⟩ :=
    SyntaxNode.infix_tokens (SyntaxNode.mem_preorder_of_child below hn)
  rw [List.append_assoc] at split
  exact ⟨bare, before, after, split.symm⟩

end Over
end ConcreteFile
end CSharp
end Antipattern
