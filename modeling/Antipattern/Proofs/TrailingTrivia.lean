import Antipattern.Proofs.ConvertedTokens

/-!
The trivia behind a token. It ends with the first line break or before the first directive,
documentation comment or disabled text, whichever comes first; all that follows stands before the
next token or at the end of the file.
-/

namespace Antipattern

theorem TriviaKind.startsLeading_iff (k : TriviaKind) :
    k.startsLeading = true ↔ k ∈ [directive, documentationComment, disabledText] := by
  cases k <;> simp [startsLeading]

theorem Trivia.isEndOfLine_iff (t : Trivia) : t.isEndOfLine = true ↔ t.kind = .endOfLine := by
  rw [isEndOfLine, beq_iff_eq]

/-- The trivia behind a token and what follows that trivia. -/
structure Trails (trailing next : List Trivia) : Prop where
  behind : ∀ t ∈ trailing, t.kind ∉ [.directive, .documentationComment, .disabledText]
  endOfLine : ∀ front t back, trailing = front ++ t :: back → t.kind = .endOfLine → back = []
  next : (∀ t, trailing.getLast? = some t → t.kind ≠ .endOfLine) →
    ∀ t, next.head? = some t → t.kind ∈ [.directive, .documentationComment, .disabledText]

namespace Trails

variable {t : Trivia} {ts next : List Trivia}

theorem stop (starts : ∀ t, next.head? = some t → t.kind.startsLeading = true) :
    Trails [] next where
  behind t none := nomatch none
  endOfLine front t back split := by simp at split
  next _ t first := t.kind.startsLeading_iff.mp (starts t first)

theorem line (ends : t.kind = .endOfLine) (next : List Trivia) : Trails [t] next where
  behind u hu := by
    obtain rfl := List.mem_singleton.mp hu
    simp [ends]
  endOfLine front u back split _ := by
    cases front with
    | nil => exact (List.cons.inj split).2.symm
    | cons v front => simp at split
  next notEnded := absurd ends (notEnded t rfl)

/-- Trivia that neither ends the line nor stands before a token only makes the share longer. -/
theorem cons (h : Trails ts next) (starts : t.kind.startsLeading ≠ true)
    (ends : t.kind ≠ .endOfLine) : Trails (t :: ts) next where
  behind := by
    rw [List.forall_mem_cons]
    exact ⟨mt t.kind.startsLeading_iff.mpr starts, h.behind⟩
  endOfLine front u back split last := by
    cases front with
    | nil =>
        obtain ⟨rfl, -⟩ := List.cons.inj split
        exact absurd last ends
    | cons v front => exact h.endOfLine front u back (List.cons.inj split).2 last
  next notEnded := by
    refine h.next fun u last => notEnded u ?_
    rw [List.getLast?_cons, last]
    rfl

end Trails

namespace CSharp

open Text

theorem trails_splitTrailing (ts : List Trivia) :
    Trails (splitTrailing ts).1 (splitTrailing ts).2 := by
  induction ts with
  | nil => exact .stop fun t first => nomatch first
  | cons t ts ih =>
      rw [splitTrailing]
      split
      · next starts => exact .stop fun u first => Option.some.inj first ▸ starts
      · next starts =>
          split
          · next ends => exact .line (t.isEndOfLine_iff.mp ends) ts
          · next ends => exact ih.cons starts (mt t.isEndOfLine_iff.mpr ends)

/-- The trivia before the first of some tokens, or at the end of the file. -/
def ahead (tokens : List TokenTrivia) (endOfFile : List Trivia) : List Trivia :=
  (tokens.head?.map (·.leading)).getD endOfFile

theorem ahead_shareOut (leading : List Trivia) (xs : List (Nat × List Trivia)) :
    ahead (shareOut leading xs).1 (shareOut leading xs).2 = leading := by
  cases xs <;> rfl

theorem trails_shareOut (leading : List Trivia) (xs : List (Nat × List Trivia))
    {us vs : List TokenTrivia} {u : TokenTrivia}
    (split : (shareOut leading xs).1 = us ++ u :: vs) :
    Trails u.trailing (ahead vs (shareOut leading xs).2) := by
  induction xs generalizing leading us with
  | nil => simp [shareOut] at split
  | cons x xs ih =>
      obtain ⟨start, behind⟩ := x
      simp only [shareOut] at split ⊢
      cases us with
      | nil =>
          obtain ⟨rfl, rfl⟩ := List.cons.inj split
          rw [ahead_shareOut]
          exact trails_splitTrailing behind
      | cons w us => exact ih _ (List.cons.inj split).2

/-- In the tree of a file each token has its line behind it, up to what stands before another token;
before the first token stands all that comes first in the source. -/
theorem trailing_syntaxTree (file : ConcreteFile) (path : String) (source : List Char)
    (h : file.Over source) :
    let root := (file.syntaxTree path source).root
    (∀ before t after, root.tokens = before ++ t :: after →
      Trails t.trailing ((after.head?.map (·.leading)).getD root.trailing)) ∧
    ∀ first, root.firstToken? = some first →
      StandsAt source 0 first.span.startByte (triviaText first.leading) := by
  refine ⟨?_, ?_⟩
  · intro before t after split
    rw [h.tokens_eq] at split
    obtain ⟨xs, x, ys, us, u, vs, -, shares, -, -, rest, rfl, rfl, rfl⟩ :=
      h.shares.of_split split
    have trails := trails_shareOut _ _ shares
    have next : (List.zipWith tokenOf ys vs).head?.map (·.leading) = vs.head?.map (·.leading) := by
      cases ys with
      | nil => rw [List.map_eq_nil_iff.mp rest]; rfl
      | cons y ys =>
          obtain ⟨v, vs, rfl, -⟩ := List.map_eq_cons_iff.mp rest
          rfl
    rw [next, ConcreteFile.trailing_eq]
    exact trails
  · intro first found
    rw [SyntaxNode.firstToken?_eq, List.head?_eq_some_iff] at found
    obtain ⟨after, split⟩ := found
    rw [← List.nil_append (first :: after)] at split
    exact h.standsAt_leading split

/-- A documentation comment before a block whose first branch has a comment and an empty line
between its tokens. -/
def spacedBranchesText : List Char :=
  "/// é\r\n#if A\nx // z\r\n\n;\n#else\ny;\n#endif\n".toList

def ConcreteFile.spacedBranches : ConcreteFile where
  root := .node .compilationUnit none (.onLine 8 41 2 1)
    [.node .other none (.onLine 14 24 3 1)
      [.token "x" (.onLine 14 15 3 1), .token ";" (.onLine 23 24 5 1)],
     .node .other none (.onLine 31 33 7 1)
      [.token "y" (.onLine 31 32 7 1), .token ";" (.onLine 32 33 7 2)]]
  islands := [⟨.onLine 0 6 1 1, .documentationComment⟩, ⟨.onLine 16 20 3 3, .singleLineComment⟩]

theorem over_spacedBranches : ConcreteFile.spacedBranches.Over spacedBranchesText := by
  -- one character before the tokens takes two bytes
  have placed : ∀ x ∈ ConcreteFile.spacedBranches.root.tokens,
      spacedBranchesText = spacedBranchesText.take (x.2.startByte - 1) ++
          (x.1.toList ++ spacedBranchesText.drop (x.2.endByte - 1)) ∧
        byteLength (spacedBranchesText.take (x.2.startByte - 1)) = x.2.startByte ∧
        x.2.startByte + byteLength x.1.toList = x.2.endByte := by decide
  exact
    { root := fun text span same => nomatch same
      proper := by simp [ConcreteFile.spacedBranches, Concrete.Proper, Concrete.ForestProper]
      nested := by
        simp [ConcreteFile.spacedBranches, Concrete.Nested, Concrete.ForestNested, Concrete.Holds,
          Concrete.forestLeaves, Concrete.leaves, Span.onLine]
      texts := fun x hx => ⟨_, _, placed x hx⟩
      breaks := by decide
      ordered := by decide
      islands := by
        intro i hi
        rcases List.mem_cons.mp hi with rfl | hi
        · exact ⟨⟨[], _, rfl, rfl⟩, ⟨spacedBranchesText.take 5, _, rfl, by decide⟩, by decide⟩
        · obtain rfl := List.mem_singleton.mp hi
          exact ⟨⟨spacedBranchesText.take 15, _, rfl, by decide⟩,
            ⟨spacedBranchesText.take 19, _, rfl, by decide⟩, by decide⟩
      apart := by decide
      cuts := by decide +kernel }

theorem layout_spacedBranches :
    ConcreteFile.spacedBranches.layout spacedBranchesText = Layout.ofPieces spacedBranchesText
      [⟨0, 6, .trivia 1 .documentationComment⟩, ⟨8, 14, .trivia 2 .directive⟩, ⟨14, 15, .token⟩,
       ⟨16, 20, .trivia 3 .singleLineComment⟩, ⟨23, 24, .token⟩, ⟨25, 31, .trivia 6 .directive⟩,
       ⟨31, 34, .trivia 7 .disabledText⟩, ⟨34, 41, .trivia 8 .directive⟩] := by
  rw [over_spacedBranches.layout_eq]
  congr 1
  apply mergeSort_eq_of_perm Piece.start_le_trans Piece.start_le_total
  · decide +kernel
  · decide

/-- The comment and the end of its line stand behind the first token, the empty line before the
second. -/
theorem trailing_spacedBranches :
    ConcreteFile.spacedBranches.Over spacedBranchesText ∧
      let root := (ConcreteFile.spacedBranches.syntaxTree "A.cs" spacedBranchesText).root
      root.tokens.map (fun t => (t.name, t.leading, t.trailing)) =
          [(some "x", [⟨.documentationComment, "/// é\r\n"⟩, ⟨.directive, "#if A\n"⟩],
            [⟨.whitespace, " "⟩, ⟨.singleLineComment, "// z"⟩, ⟨.endOfLine, "\r\n"⟩]),
           (some ";", [⟨.endOfLine, "\n"⟩], [⟨.endOfLine, "\n"⟩])] ∧
        root.trailing =
          [⟨.directive, "#else\n"⟩, ⟨.disabledText, "y;\n"⟩, ⟨.directive, "#endif\n"⟩] ∧
        (∀ before t after, root.tokens = before ++ t :: after →
          Trails t.trailing ((after.head?.map (·.leading)).getD root.trailing)) ∧
        ∀ first, root.firstToken? = some first →
          StandsAt spacedBranchesText 0 first.span.startByte (triviaText first.leading) := by
  refine ⟨over_spacedBranches, ?_, ?_, trailing_syntaxTree _ _ _ over_spacedBranches⟩
  · rw [over_spacedBranches.tokens_eq, layout_spacedBranches]
    decide +kernel
  · rw [ConcreteFile.trailing_eq, layout_spacedBranches]
    decide +kernel

end CSharp
end Antipattern
