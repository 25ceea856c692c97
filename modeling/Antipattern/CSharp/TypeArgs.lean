import Antipattern.CSharp.TokenTree

/-!
Angle brackets. Around type parameters and type arguments they are brackets. Elsewhere they are
operators, and closing ones that touch make up one shift operator.
-/

namespace Antipattern.CSharp.TokenTree

/-- What type arguments are made of, besides the angle brackets themselves. -/
def inTypeArgs (t : TokenTree) : Bool :=
  t.isWord || t.isGroup .round || t.isGroup .square ||
    [",", ".", "::", "?", "*"].any fun s => t.isLeaf s

/-- What may stand before type arguments. -/
def takesTypeArgs (t : TokenTree) : Bool :=
  t.isWord || t.isLeaf "*" || t.isGroup .square

/-- Whether the token lengthens a run of closing brackets that ends with `t`. -/
def continuesRun (t next : Token) : Bool :=
  t.touches next && (next.is ">" || next.is ">=")

/-- The trees before the bracket that closes the type arguments, counted from behind the one that
opens them. There is none if something else stands in between, or if the closing bracket is not the
last of its run. -/
def typeArgsLength? (depth : Nat) : List TokenTree → Option Nat
  | [] => none
  | t :: ts =>
      if t.isLeaf ">" then
        match depth with
        | 0 =>
            match ts with
            | leaf next :: _ => if continuesRun t.last next then none else some 0
            | _ => some 0
        | depth + 1 => (typeArgsLength? depth ts).map (· + 1)
      else if t.isLeaf "<" then (typeArgsLength? (depth + 1) ts).map (· + 1)
      else if t.inTypeArgs then (typeArgsLength? depth ts).map (· + 1)
      else none

/-- Joins two tokens that touch. -/
def joined (t next : Token) : Token :=
  { t with text := t.text ++ next.text, span := t.span.through next.span }

/-- Joins the brackets at the start into one token. -/
def joinRun (t : Token) : List TokenTree → Token × List TokenTree
  | leaf next :: ts =>
      if continuesRun t next then joinRun (joined t next) ts else (t, leaf next :: ts)
  | ts => (t, ts)

theorem joinRun_length_le (t : Token) (ts : List TokenTree) :
    (joinRun t ts).2.length ≤ ts.length := by
  induction ts generalizing t with
  | nil => simp [joinRun]
  | cons next ts ih =>
      cases next with
      | leaf next =>
          simp only [joinRun]
          split
          · exact Nat.le_succ_of_le (ih _)
          · exact Nat.le_refl _
      | group opener body closer => simp [joinRun]

/-- Groups the angle brackets among siblings and joins the others to shifts. -/
def joinAngles : List TokenTree → List TokenTree
  | [] => []
  | [t] => [t]
  | t :: next :: ts =>
      if t.isLeaf ">" then
        let run := joinRun t.last (next :: ts)
        leaf run.1 :: joinAngles run.2
      else if t.takesTypeArgs && next.isLeaf "<" then
        match typeArgsLength? 0 ts with
        | some n =>
            match _h : ts.drop n with
            | closer :: rest => t :: group next.last (ts.take n) closer.last :: joinAngles rest
            | [] => t :: joinAngles (next :: ts)
        | none => t :: joinAngles (next :: ts)
      else t :: joinAngles (next :: ts)
termination_by ts => ts.length
decreasing_by
  · have := joinRun_length_le t.last (next :: ts)
    simp only [List.length_cons] at this ⊢
    omega
  · have := congrArg List.length _h
    simp only [List.length_drop, List.length_cons] at this ⊢
    omega
  all_goals simp

mutual
/-- Handles the angle brackets inside a tree. -/
def angled : TokenTree → TokenTree
  | leaf t => leaf t
  | group opener body closer => group opener (joinAngles (forestAngled body)) closer

def forestAngled : List TokenTree → List TokenTree
  | [] => []
  | t :: ts => t.angled :: forestAngled ts
end

/-- The token trees of a text's tokens. -/
def read (ts : List Token) : List TokenTree :=
  joinAngles (forestAngled (ofTokens ts))

end Antipattern.CSharp.TokenTree
