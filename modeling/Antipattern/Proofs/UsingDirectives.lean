import Antipattern.CSharp.File
import Antipattern.Proofs.NameResolution
import Antipattern.Proofs.PaddedText

/-!
Using directives as they are written. However a directive is spaced, the name behind it is imported
without its blanks, and an alias imports nothing. A leading `global::` stays with the name, and
`using static` is told from a namespace only by a space behind `static`; so an import through
`global::` leads to no type.
-/

namespace Antipattern.CSharp

open Text

def globalWord : List Char := ['g', 'l', 'o', 'b', 'a', 'l']

def usingWord : List Char := ['u', 's', 'i', 'n', 'g']

def staticWord : List Char := ['s', 't', 'a', 't', 'i', 'c']

/-- What leads from the outermost namespace to a name. -/
def globalRoot : List Char := globalWord ++ [':', ':']

/-- Whether a character is neither a blank nor a mark that ends a name. -/
def isNameChar (c : Char) : Bool :=
  !(isBlank c || ['.', ';', '=', ':', '<'].contains c)

/-- An identifier, which is not the keyword `static`. -/
structure NamePart where
  text : List Char
  nonempty : text ≠ []
  plain : text.all isNameChar
  notKeyword : text ≠ staticWord

/-- A part of a name with the dot before it. -/
def furtherText : Further isBlank NamePart → List Char :=
  Further.text '.' (·.text)

structure DottedName where
  /-- Whether `global::` stands before the name. -/
  fromGlobal : Bool
  first : NamePart
  others : List (Further isBlank NamePart)

namespace DottedName

def text (n : DottedName) : List Char :=
  (if n.fromGlobal then globalRoot else []) ++ (n.first.text ++ n.others.flatMap furtherText)

/-- The name itself. -/
def dotted (n : DottedName) : List Char :=
  n.first.text ++ n.others.flatMap fun f => '.' :: f.item.text

/-- The name without blanks as it is written. -/
def unspaced (n : DottedName) : List Char :=
  (if n.fromGlobal then globalRoot else []) ++ n.dotted

end DottedName

inductive UsingTarget where
  | importing (name : DottedName)
  | ofType (gap : Gap isBlank) (name : DottedName)
  | aliasing (word : NamePart) (before behind : Padding isBlank) (name : DottedName)

namespace UsingTarget

def text : UsingTarget → List Char
  | importing name => name.text
  | ofType gap name => staticWord ++ (gap.chars ++ name.text)
  | aliasing word before behind name =>
      word.text ++ (before.chars ++ '=' :: (behind.chars ++ name.text))

/-- The namespace that the directive imports by the rules of the language. -/
def meant? : UsingTarget → Option String
  | importing name => some (String.ofList name.dotted)
  | ofType .. | aliasing .. => none

/-- The namespace that is taken to be imported. -/
def imported? : UsingTarget → Option String
  | importing name => some (String.ofList name.unspaced)
  | ofType gap name =>
      if gap.chars.head? = some ' ' then none
      else some (String.ofList (staticWord ++ name.unspaced))
  | aliasing .. => none

/-- The directives that are read by the rules: a namespace is named without `global::`, and a space
is the first character behind `static`. -/
def Regular : UsingTarget → Prop
  | importing name => name.fromGlobal = false
  | ofType gap _ => gap.chars.head? = some ' '
  | aliasing .. => True

end UsingTarget

structure UsingDirective where
  /-- The blanks behind the word `global`, if it is there. -/
  global : Option (Gap isBlank)
  behindUsing : Gap isBlank
  target : UsingTarget
  beforeSemicolon : Padding isBlank
  behindSemicolon : Padding isBlank

namespace UsingDirective

def body (d : UsingDirective) : List Char :=
  (d.global.map fun gap => globalWord ++ gap.chars).getD [] ++
    (usingWord ++ (d.behindUsing.chars ++ d.target.text))

def text (d : UsingDirective) : List Char :=
  d.body ++ (d.beforeSemicolon.chars ++ ';' :: d.behindSemicolon.chars)

end UsingDirective

section

variable (p : NamePart)

theorem NamePart.not_blank : ∀ c ∈ p.text, isBlank c = false := by
  intro c hc
  have name := List.all_eq_true.mp p.plain c hc
  rw [isNameChar, Bool.not_eq_true', Bool.or_eq_false_iff] at name
  exact name.1

theorem NamePart.not_mem {c : Char} (mark : isNameChar c = false) : c ∉ p.text := by
  intro hc
  have name := List.all_eq_true.mp p.plain c hc
  rw [mark] at name
  exact Bool.false_ne_true name

end

theorem removeBlanks_furtherText (f : Further isBlank NamePart) :
    removeBlanks (furtherText f) = '.' :: f.item.text := by
  rw [furtherText, Further.text, removeBlanks_append, removeBlanks_blank f.before.only,
    List.nil_append, removeBlanks, List.filter_cons_of_pos (by decide), ← removeBlanks,
    removeBlanks_append, removeBlanks_blank f.behind.only,
    removeBlanks_of_not_blank f.item.not_blank, List.nil_append]

theorem DottedName.removeBlanks_text (n : DottedName) : removeBlanks n.text = n.unspaced := by
  have others : removeBlanks (n.others.flatMap furtherText) =
      n.others.flatMap fun f => '.' :: f.item.text := by
    induction n.others with
    | nil => rfl
    | cons f fs ih =>
        rw [List.flatMap_cons, List.flatMap_cons, removeBlanks_append, ih, removeBlanks_furtherText]
  rw [text, unspaced, dotted, removeBlanks_append, removeBlanks_append, others,
    removeBlanks_of_not_blank n.first.not_blank]
  cases n.fromGlobal <;> rfl

/-- The first character is no blank. -/
def Starts (cs : List Char) : Prop :=
  ∃ c rest, cs = c :: rest ∧ isBlank c = false

/-- The last character is neither a blank nor a semicolon. -/
def Ends (cs : List Char) : Prop :=
  ∃ front c, cs = front ++ [c] ∧ isBlank c = false ∧ c ≠ ';'

variable {xs ys : List Char}

theorem Starts.append (h : Starts xs) (ys : List Char) : Starts (xs ++ ys) := by
  obtain ⟨c, rest, rfl, solid⟩ := h
  exact ⟨c, rest ++ ys, rfl, solid⟩

theorem Starts.head (h : Starts xs) : ∀ c ∈ xs.head?, isBlank c = false := by
  obtain ⟨c, rest, rfl, solid⟩ := h
  rintro d ⟨⟩
  exact solid

theorem Ends.append (h : Ends ys) (xs : List Char) : Ends (xs ++ ys) := by
  obtain ⟨front, c, rfl, solid⟩ := h
  exact ⟨xs ++ front, c, (List.append_assoc ..).symm, solid⟩

theorem Starts.snug {front : List Char} {c : Char} (h : Starts (front ++ [c]))
    (solid : isBlank c = false) : Snug (front ++ [c]) where
  head := h.head
  last d hd := by
    obtain rfl : c = d := by simpa using hd
    exact solid

theorem NamePart.starts (p : NamePart) : Starts p.text := by
  obtain ⟨c, rest, eq⟩ := List.exists_cons_of_ne_nil p.nonempty
  exact ⟨c, rest, eq, p.not_blank c (eq ▸ List.mem_cons_self)⟩

theorem NamePart.ends (p : NamePart) : Ends p.text := by
  have last := List.getLast_mem p.nonempty
  exact ⟨p.text.dropLast, _, (List.dropLast_concat_getLast p.nonempty).symm, p.not_blank _ last,
    fun semicolon => p.not_mem (by decide) (semicolon ▸ last)⟩

namespace DottedName

theorem starts (n : DottedName) : Starts n.text := by
  rw [text]
  split
  · exact ⟨'g', _, rfl, by decide⟩
  · exact n.first.starts.append _

theorem ends (n : DottedName) : Ends n.text := by
  have parts (fs : List (Further isBlank NamePart)) {front : List Char} (h : Ends front) :
      Ends (front ++ fs.flatMap furtherText) := by
    induction fs generalizing front with
    | nil => simpa using h
    | cons f fs ih =>
        rw [List.flatMap_cons, ← List.append_assoc]
        refine ih (Ends.append ?_ front)
        have split : furtherText f = (f.before.chars ++ '.' :: f.behind.chars) ++ f.item.text := by
          simp [furtherText, Further.text]
        rw [split]
        exact f.item.ends.append _
  exact (parts n.others n.first.ends).append _

theorem equals_not_mem (n : DottedName) : '=' ∉ n.text := by
  have blanks (b : Padding isBlank) : '=' ∉ b.chars := fun h => absurd (b.only _ h) (by decide)
  have part (p : NamePart) : '=' ∉ p.text := p.not_mem (by decide)
  simp only [text, furtherText, Further.text, List.mem_append, List.mem_flatMap, List.mem_cons]
  rintro (h | h | ⟨f, -, h | h | h | h⟩)
  · revert h
    split <;> decide
  · exact part _ h
  · exact blanks _ h
  · exact absurd h (by decide)
  · exact blanks _ h
  · exact part _ h

/-- A name is not taken for a `static` directive. Up to the first blank or dot it is its first part,
which is not that word. -/
theorem after?_static (n : DottedName) : after? "static ".toList n.text = none := by
  rcases Bool.eq_false_or_eq_true n.fromGlobal with root | root
  · rw [text, if_pos root]
    rfl
  · rw [text, if_neg (by simp [root]), List.nil_append, Option.eq_none_iff_forall_ne_some]
    intro rest eq
    rw [after?_eq_some_iff] at eq
    let inWord (c : Char) : Bool := !isBlank c && c ≠ '.'
    have first : ∀ c ∈ n.first.text, inWord c = true := by
      intro c hc
      have dot : c ≠ '.' := fun dot => n.first.not_mem (by decide) (dot ▸ hc)
      simp [inWord, n.first.not_blank c hc, dot]
    have others : (n.others.flatMap furtherText).takeWhile inWord = [] := by
      cases n.others with
      | nil => rfl
      | cons f fs =>
          rw [List.flatMap_cons, furtherText, Further.text]
          cases before : f.before.chars with
          | nil => rfl
          | cons c cs =>
              have blank := f.before.only c (before ▸ List.mem_cons_self)
              simp [inWord, blank]
    have keyword : ("static ".toList ++ rest).takeWhile inWord = staticWord := rfl
    have words := congrArg (List.takeWhile inWord) eq
    rw [List.takeWhile_append_of_pos first, others, List.append_nil, keyword] at words
    exact n.first.notKeyword words

end DottedName

theorem after?_append_append (w v cs : List Char) : after? (w ++ v) (w ++ cs) = after? v cs := by
  induction w with
  | nil => rfl
  | cons c w ih => rw [List.cons_append, List.cons_append, after?, if_pos rfl, ih]

namespace UsingTarget

theorem starts (t : UsingTarget) : Starts t.text := by
  cases t with
  | importing name => exact name.starts
  | ofType gap name => exact ⟨'s', _, rfl, by decide⟩
  | aliasing word before behind name => exact word.starts.append _

theorem ends (t : UsingTarget) : Ends t.text := by
  cases t with
  | importing name => exact name.ends
  | ofType gap name => exact (name.ends.append _).append _
  | aliasing word before behind name =>
      have ends := name.ends.append (word.text ++ before.chars ++ '=' :: behind.chars)
      rwa [List.append_assoc, List.append_assoc, List.cons_append] at ends

/-- A `static` directive is seen as one if a space follows the word. -/
theorem after?_static_ofType (gap : Gap isBlank) (name : DottedName) :
    (after? "static ".toList (ofType gap name).text).isSome ↔ gap.chars.head? = some ' ' := by
  have word : "static ".toList = staticWord ++ [' '] := by decide
  obtain ⟨c, cs, eq⟩ := List.exists_cons_of_ne_nil gap.nonempty
  rw [text, word, after?_append_append, eq, List.cons_append, List.head?_cons]
  by_cases space : c = ' '
  · subst space
    simp [after?]
  · simp [after?, space, Ne.symm space]

end UsingTarget

/-- The namespace that is left when the words of a directive are taken away. -/
def target? (rest : List Char) : Option String :=
  if (after? "static ".toList rest).isSome || rest.contains '=' then none
  else if (removeBlanks rest).isEmpty then none
  else some (String.ofList (removeBlanks rest))

variable {rest name : List Char}

theorem target?_eq_none (h : (after? "static ".toList rest).isSome ∨ '=' ∈ rest) :
    target? rest = none := by
  rw [target?, if_pos]
  simpa only [Bool.or_eq_true, List.contains_iff_mem] using h

theorem target?_eq_some (plain : ¬ (after? "static ".toList rest).isSome) (equals : '=' ∉ rest)
    (unspaced : removeBlanks rest = name) (nonempty : name ≠ []) :
    target? rest = some (String.ofList name) := by
  have skipped : ¬ ((after? "static ".toList rest).isSome || rest.contains '=') := by
    rw [Bool.or_eq_true, List.contains_iff_mem]
    exact fun h => h.elim plain equals
  rw [target?, if_neg skipped, unspaced, if_neg (by simpa using nonempty)]

theorem target?_text (t : UsingTarget) : target? t.text = t.imported? := by
  cases t with
  | importing name =>
      have nonempty : name.unspaced ≠ [] := by
        simp [DottedName.unspaced, DottedName.dotted, name.first.nonempty]
      have plain : ¬ (after? "static ".toList name.text).isSome := by
        rw [name.after?_static]
        exact Bool.false_ne_true
      exact target?_eq_some plain name.equals_not_mem name.removeBlanks_text nonempty
  | ofType gap name =>
      rw [UsingTarget.imported?]
      by_cases space : gap.chars.head? = some ' '
      · rw [if_pos space]
        exact target?_eq_none (.inl ((UsingTarget.after?_static_ofType gap name).mpr space))
      · have equals : '=' ∉ (UsingTarget.ofType gap name).text := by
          simp only [UsingTarget.text, List.mem_append, not_or]
          exact ⟨by decide, fun h => absurd (gap.only _ h) (by decide), name.equals_not_mem⟩
        have unspaced : removeBlanks (UsingTarget.ofType gap name).text =
            staticWord ++ name.unspaced := by
          rw [UsingTarget.text, removeBlanks_append, removeBlanks_append,
            removeBlanks_blank gap.only, name.removeBlanks_text]
          rfl
        rw [if_neg space]
        exact target?_eq_some (mt (UsingTarget.after?_static_ofType gap name).mp space) equals
          unspaced (by simp [staticWord])
  | aliasing word before behind name =>
      exact target?_eq_none (.inr (by simp [UsingTarget.text]))

theorem dropSemicolons_append {cs : List Char} (last : ∀ c ∈ cs.getLast?, c ≠ ';') :
    dropSemicolons (cs ++ [';']) = cs := by
  rw [dropSemicolons, List.reverse_append, List.reverse_singleton, List.singleton_append,
    List.dropWhile_cons_of_pos (by decide)]
  cases reversed : cs.reverse with
  | nil => exact (List.reverse_eq_nil_iff.mp reversed).symm
  | cons c rest =>
      have other : c ≠ ';' := last c (by rw [List.getLast?_eq_head?_reverse, reversed]; rfl)
      rw [List.dropWhile_cons_of_neg (by simpa using other), ← reversed, List.reverse_reverse]

/-- What stands before the target is taken away word by word. -/
theorem importedNamespace?_eq (directive : List Char) :
    importedNamespace? directive =
      (let rest := trim (dropSemicolons (trim directive))
      (after? usingWord (((after? globalWord rest).map trimStart).getD rest)).bind fun rest =>
        target? (trimStart rest)) := by
  have global : "global".toList = globalWord := by decide
  have using' : "using".toList = usingWord := by decide
  rw [importedNamespace?, global, using']
  rfl

namespace UsingDirective

variable (d : UsingDirective)

theorem starts : Starts d.body := by
  rw [body]
  cases d.global with
  | none => exact ⟨'u', _, rfl, by decide⟩
  | some gap => exact ⟨'g', _, rfl, by decide⟩

theorem ends : Ends d.body :=
  ((d.target.ends.append _).append _).append _

/-- Blanks and the semicolon at the end are taken away. -/
theorem trimmed : trim (dropSemicolons (trim d.text)) = d.body := by
  have starts := d.starts
  obtain ⟨front, c, eq, solid, other⟩ := d.ends
  have outer : trim d.text = d.body ++ d.beforeSemicolon.chars ++ [';'] := by
    have snug : Snug (d.body ++ d.beforeSemicolon.chars ++ [';']) :=
      ((starts.append _).append _).snug (by decide)
    simpa [text] using snug.trim_append d.behindSemicolon.only
  have last : ∀ c ∈ (d.body ++ d.beforeSemicolon.chars).getLast?, c ≠ ';' := by
    intro e he semicolon
    rw [List.getLast?_append, Option.mem_def, Option.or_eq_some_iff] at he
    rcases he with blank | ⟨-, he⟩
    · have := d.beforeSemicolon.only e (List.mem_of_getLast? blank)
      rw [semicolon] at this
      exact absurd this (by decide)
    · rw [eq, List.getLast?_concat] at he
      exact other (Option.some.inj he ▸ semicolon)
  have snug : Snug d.body := by
    rw [eq] at starts ⊢
    exact starts.snug solid
  rw [outer, dropSemicolons_append last, snug.trim_append d.beforeSemicolon.only]

theorem importedNamespace?_text : importedNamespace? d.text = d.target.imported? := by
  have target : trimStart (d.behindUsing.chars ++ d.target.text) = d.target.text := by
    rw [trimStart_pad d.behindUsing.only, trimStart_of_head d.target.starts.head]
  have words : ((after? globalWord d.body).map trimStart).getD d.body =
      usingWord ++ (d.behindUsing.chars ++ d.target.text) := by
    rw [body]
    cases d.global with
    | none => rfl
    | some gap =>
        have head (rest : List Char) : ∀ c ∈ (usingWord ++ rest).head?, isBlank c = false := by
          rintro c ⟨⟩
          decide
        rw [Option.map_some, Option.getD_some, List.append_assoc, after?_append, Option.map_some,
          Option.getD_some, trimStart_pad gap.only, trimStart_of_head (head _)]
  rw [importedNamespace?_eq, d.trimmed]
  dsimp only
  rw [words, after?_append, Option.bind_some, target, target?_text]

end UsingDirective

theorem DottedName.plain_unspaced (n : DottedName) : PlainName (String.ofList n.unspaced) := by
  have part (p : NamePart) : '<' ∉ p.text := p.not_mem (by decide)
  rw [PlainName, String.toList_ofList, unspaced, dotted]
  simp only [List.mem_append, List.mem_flatMap, List.mem_cons]
  rintro (h | h | ⟨f, -, h | h⟩)
  · revert h
    split <;> decide
  · exact part _ h
  · exact absurd h (by decide)
  · exact part _ h

theorem UsingTarget.imported?_eq_meant?_iff (t : UsingTarget) :
    t.imported? = t.meant? ↔ t.Regular := by
  cases t with
  | importing name =>
      have longer : globalRoot ≠ [] := by decide
      rw [imported?, meant?, Regular, DottedName.unspaced, Option.some.injEq, String.ofList_inj]
      cases name.fromGlobal <;> simp [longer]
  | ofType gap name =>
      rw [imported?, meant?, Regular]
      split <;> simp_all
  | aliasing word before behind name => exact iff_of_true rfl trivial

section

open Declaration

variable {ds : List Declaration} {name : String}
  (undeclared : ∀ e ∈ ds, ¬ globalRoot <+: e.display.toList)
include undeclared

theorem not_isGenericName (root : globalRoot <+: name.toList) : ¬ isGenericName ds name := by
  intro generic
  obtain ⟨e, he, -, rfl⟩ := isGenericName_iff.mp generic
  refine undeclared e he (root.trans ?_)
  rw [Declaration.key, withoutTypeArgs, String.toList_ofList]
  exact List.takeWhile_prefix _

theorem not_isKnown (root : globalRoot <+: name.toList) : ¬ isKnown ds name := by
  intro known
  rcases isKnown_iff.mp known with declared | listed
  · obtain ⟨e, he, rfl⟩ := isDeclared_iff.mp declared
    exact undeclared e he root
  · exact (Catalog.clean_of_find? listed ':' (root.subset (by decide))).2.2 rfl

/-- What is imported through `global::` adds a candidate that nothing is named. -/
theorem meaning?_global {imported : String} (root : globalRoot <+: imported.toList) (scope : Scope)
    (before behind : List String) (reference : String) :
    meaning? ds { scope with usings := before ++ imported :: behind } reference =
      meaning? ds { scope with usings := before ++ behind } reference := by
  have skip (p : String → Bool) (word : String) (front back : List String)
      (not : ¬ p (imported ++ "." ++ word)) :
      (front ++ (before.map (· ++ "." ++ word) ++ (imported ++ "." ++ word) ::
          behind.map (· ++ "." ++ word)) ++ back).find? p =
        (front ++ (before.map (· ++ "." ++ word) ++ behind.map (· ++ "." ++ word)) ++
          back).find? p := by
    simp [List.find?_append, List.find?_cons_of_neg not]
  have longer (word : String) : globalRoot <+: (imported ++ "." ++ word).toList := by
    rw [String.append_assoc, String.toList_append]
    exact root.trans (List.prefix_append _ _)
  rw [meaning?, meaning?]
  simp only [Scope.candidates, List.map_append, List.map_cons, Scope.namespaceChain]
  rw [skip _ _ _ _ (not_isKnown undeclared (longer _)),
    skip _ _ _ _ (not_isGenericName undeclared (longer _))]

end

theorem resolve?_global {files : List ParsedFile}
    (undeclared : ∀ e ∈ Declaration.ofFiles files, ¬ globalRoot <+: e.display.toList) {b : Binder}
    (passes : Binder.Passes (Binder.declareFiles files) b) {scope : Scope}
    {before behind : List String} {imported : String}
    (plain : ({ scope with usings := before ++ imported :: behind } : Scope).Plain)
    (root : globalRoot <+: imported.toList) (reference : String) :
    b.resolve? { scope with usings := before ++ imported :: behind } reference =
      b.resolve? { scope with usings := before ++ behind } reference := by
  have accounted := (Binder.entered_declareFiles files).accounted.follows passes.follows
  have fewer : ({ scope with usings := before ++ behind } : Scope).Plain :=
    ⟨plain.1, fun u hu => plain.2 u (by
      rcases List.mem_append.mp hu with hu | hu
      · exact List.mem_append_left _ hu
      · exact List.mem_append_right _ (List.mem_cons_of_mem _ hu))⟩
  rw [accounted.resolve?_eq plain, accounted.resolve?_eq fewer, meaning?_global undeclared root]

/-- What a directive imports: the name behind it without blanks, and nothing if it gives an alias or
a space follows `static`. That is what the directive means unless another blank follows `static` or
the name is written with `global::`; such a name is imported in vain. -/
theorem importedNamespace?_written (d : UsingDirective) :
    importedNamespace? d.text = d.target.imported? ∧
      (importedNamespace? d.text = d.target.meant? ↔ d.target.Regular) ∧
      ∀ name, d.target = .importing name → name.fromGlobal →
        ∀ files : List ParsedFile,
          (∀ e ∈ Declaration.ofFiles files, ¬ globalRoot <+: e.display.toList) →
          ∀ b, Binder.Passes (Binder.declareFiles files) b →
          ∀ (scope : Scope) (before behind : List String),
            ({ scope with usings := before ++ behind } : Scope).Plain →
            ∀ imported ∈ importedNamespace? d.text, ∀ reference,
              b.resolve? { scope with usings := before ++ imported :: behind } reference =
                b.resolve? { scope with usings := before ++ behind } reference := by
  refine ⟨d.importedNamespace?_text, ?_, ?_⟩
  · rw [d.importedNamespace?_text, d.target.imported?_eq_meant?_iff]
  · intro name importing root files undeclared b passes scope before behind plain imported h
      reference
    obtain rfl : String.ofList name.unspaced = imported := by
      rw [d.importedNamespace?_text, importing] at h
      exact Option.some.inj h
    refine resolve?_global undeclared passes ⟨plain.1, fun u hu => ?_⟩ ?_ reference
    · rw [List.mem_append, List.mem_cons] at hu
      rcases hu with hu | rfl | hu
      · exact plain.2 u (List.mem_append_left _ hu)
      · exact name.plain_unspaced
      · exact plain.2 u (List.mem_append_right _ hu)
    · rw [String.toList_ofList, DottedName.unspaced, if_pos root]
      exact List.prefix_append _ _

def noBlank : Padding isBlank := ⟨[], allBlank_nil⟩

def oneBlank (c : Char) (blank : [c].all isBlank = true) : Gap isBlank :=
  ⟨⟨[c], List.all_eq_true.mp blank⟩, List.cons_ne_nil c []⟩

def shopPart : NamePart := ⟨['S', 'h', 'o', 'p'], List.cons_ne_nil _ _, rfl, by decide⟩

/-- `using global::Shop;` -/
def globalShop : UsingDirective where
  global := none
  behindUsing := oneBlank ' ' rfl
  target := .importing ⟨true, shopPart, []⟩
  beforeSemicolon := noBlank
  behindSemicolon := noBlank

/-- `using static Shop;` with a tab behind `static` -/
def tabbedShop : UsingDirective where
  global := none
  behindUsing := oneBlank ' ' rfl
  target := .ofType (oneBlank '\t' rfl) ⟨false, shopPart, []⟩
  beforeSemicolon := noBlank
  behindSemicolon := noBlank

/-- `Shop.Base`, and `Order` derived from `Base` in another file. -/
def shopAndOrder (usings : List String) : List ParsedFile := [
  { tree :=
      { path := "Shop.cs"
        root :=
          { kind := .compilationUnit
            children := [
              { kind := .namespaceDeclaration
                name := some "Shop"
                children := [{ kind := .classDeclaration, name := some "Base" }] }] } } },
  { tree :=
      { path := "Order.cs"
        root :=
          { kind := .compilationUnit
            children := [
              { kind := .classDeclaration
                name := some "Order"
                children := [
                  { kind := .baseList
                    children := [{ kind := .other, name := some "Base" }] }] }] } }
    usings }]

theorem importedNamespace?_globalShop :
    importedNamespace? globalShop.text = some "global::Shop" ∧ ¬ globalShop.target.Regular ∧
      ∀ b, Binder.Passes (Binder.declareFiles (shopAndOrder ["global::Shop"])) b →
        b.resolve? { usings := ["global::Shop"] } "Base" = b.resolve? {} "Base" := by
  have imported : importedNamespace? globalShop.text = some "global::Shop" := by decide
  have written := importedNamespace?_written globalShop
  refine ⟨imported, fun regular => ?_, fun b passes => ?_⟩
  · exact absurd (written.2.1.mpr regular) (by decide)
  · exact written.2.2 ⟨true, shopPart, []⟩ rfl rfl (shopAndOrder ["global::Shop"])
      (by decide +kernel) b passes {} [] [] ⟨by decide, nofun⟩ _ imported "Base"

/-- With `global::` the base type is not found, and behind a tab a type is taken for a namespace. -/
theorem shop_not_imported :
    globalShop.text = "using global::Shop;".toList ∧
      importedNamespace? globalShop.text = some "global::Shop" ∧
      globalShop.target.meant? = some "Shop" ∧
      (Binder.bind (shopAndOrder ["Shop"])).isSubtypeOf (some 1) (.named "Shop.Base") = true ∧
      (Binder.bind (shopAndOrder ["global::Shop"])).isSubtypeOf (some 1) (.named "Shop.Base") =
        false ∧
      tabbedShop.text = "using static\tShop;".toList ∧
      importedNamespace? tabbedShop.text = some "staticShop" ∧ tabbedShop.target.meant? = none := by
  refine ⟨by decide, by decide, by decide, by decide +kernel, by decide +kernel, by decide,
    by decide, rfl⟩

end Antipattern.CSharp
