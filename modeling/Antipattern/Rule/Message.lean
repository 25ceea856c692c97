/-!
Message formats: `\x7b0\x7d`, `\x7b1\x7d` and so on stand for the arguments. A placeholder that
names no argument stays as written, and inserted text is not read again.
-/

namespace Antipattern.Message

/-- A position written in decimal digits, with at most one plus sign before them. -/
def position? (cs : List Char) : Option Nat :=
  let digits := match cs with
    | '+' :: rest => rest
    | _ => cs
  if digits.isEmpty || !digits.all Char.isDigit then none
  else some (digits.foldl (fun n d => 10 * n + (d.toNat - '0'.toNat)) 0)

/-- The argument that the text between the braces names, with the text behind the brace. -/
def argument? (args : List String) (cs : List Char) : Option (List Char × List Char) :=
  match cs.dropWhile (· ≠ '\x7d') with
  | [] => none
  | _ :: rest =>
      ((position? (cs.takeWhile (· ≠ '\x7d'))).bind fun i => args[i]?).map fun arg =>
        (arg.toList, rest)

theorem argument?_shorter {args : List String} {cs arg rest : List Char}
    (h : argument? args cs = some (arg, rest)) : rest.length < cs.length := by
  unfold argument? at h
  split at h
  · simp at h
  · next c tail hd =>
      have hle : (cs.dropWhile (· ≠ '\x7d')).length ≤ cs.length :=
        (List.dropWhile_suffix _).length_le
      simp only [Option.map_eq_some_iff] at h
      obtain ⟨_, _, heq⟩ := h
      simp only [Prod.mk.injEq] at heq
      rw [hd] at hle
      simp only [List.length_cons] at hle
      rw [← heq.2]
      omega

def fill (args : List String) : List Char → List Char
  | [] => []
  | c :: cs =>
      if c = '\x7b' then
        match _h : argument? args cs with
        | some (arg, rest) => arg ++ fill args rest
        | none => c :: fill args cs
      else c :: fill args cs
termination_by cs => cs.length
decreasing_by
  · have := argument?_shorter _h
    simp only [List.length_cons]
    omega
  · simp
  · simp

def format (fmt : String) (args : List String) : String :=
  String.ofList (fill args fmt.toList)

end Antipattern.Message
