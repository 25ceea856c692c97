import Antipattern.Binding.Scope

/-!
References to types as texts. A reference splits into a name and type arguments, which start at
the first `<`. The names that files and the catalog give are clean: without blanks, `<` and `:`.
In a plain scope all that a name can mean is free of `<`, so it is never the name of a type that is
filled in with arguments.
-/

namespace Antipattern

/-- A name as sources write it. -/
def CleanName (name : String) : Prop :=
  ∀ c ∈ name.toList, Text.isBlank c = false ∧ c ≠ '<' ∧ c ≠ ':'

instance (name : String) : Decidable (CleanName name) :=
  List.decidableBAll _ name.toList

/-- A name without type arguments. -/
def PlainName (name : String) : Prop :=
  '<' ∉ name.toList

instance (name : String) : Decidable (PlainName name) :=
  inferInstanceAs (Decidable ('<' ∉ name.toList))

theorem CleanName.plain {name : String} (h : CleanName name) : PlainName name :=
  fun open' => (h '<' open').2.1 rfl

theorem PlainName.append {a b : String} (ha : PlainName a) (hb : PlainName b) :
    PlainName (a ++ b) := by
  simp_all [PlainName]

/-- The type arguments of a name; empty for a plain one. -/
def typeArgs (name : String) : String :=
  String.ofList (name.toList.dropWhile (· ≠ '<'))

theorem withoutTypeArgs_append_typeArgs (name : String) :
    withoutTypeArgs name ++ typeArgs name = name := by
  rw [withoutTypeArgs, typeArgs, ← String.ofList_append, List.takeWhile_append_dropWhile,
    String.ofList_toList]

theorem plain_withoutTypeArgs (name : String) : PlainName (withoutTypeArgs name) := by
  intro open'
  rw [withoutTypeArgs, String.toList_ofList] at open'
  simpa using List.all_eq_true.mp List.all_takeWhile _ open'

/-- A text is the type arguments of something if it is empty or opens with `<`. -/
def AreTypeArgs (args : String) : Prop :=
  ∀ c ∈ args.toList.head?, c = '<'

theorem areTypeArgs_typeArgs (name : String) : AreTypeArgs (typeArgs name) := by
  intro c hc
  rw [typeArgs, String.toList_ofList] at hc
  have first := List.head?_dropWhile_not (fun c => decide (c ≠ '<')) name.toList
  rw [Option.mem_def.mp hc] at first
  simpa using first

theorem withoutTypeArgs_append {name args : String} (plain : PlainName name)
    (h : AreTypeArgs args) : withoutTypeArgs (name ++ args) = name := by
  have all : ∀ c ∈ name.toList, decide (c ≠ '<') = true := by
    intro c hc
    exact decide_eq_true fun eq => plain (eq ▸ hc)
  have stop : args.toList.takeWhile (fun c => decide (c ≠ '<')) = [] := by
    cases eq : args.toList with
    | nil => rfl
    | cons c cs =>
        obtain rfl := h c (by simp [eq])
        simp
  rw [withoutTypeArgs, String.toList_append, List.takeWhile_append_of_pos all, stop,
    List.append_nil, String.ofList_toList]

theorem withoutTypeArgs_of_plain {name : String} (h : PlainName name) :
    withoutTypeArgs name = name := by
  have whole : withoutTypeArgs (name ++ "") = name :=
    withoutTypeArgs_append h (by simp [AreTypeArgs])
  rwa [String.append_empty] at whole

theorem typeArgs_eq_empty_iff {name : String} : typeArgs name = "" ↔ PlainName name := by
  have whole := withoutTypeArgs_append_typeArgs name
  constructor
  · intro h
    rw [h, String.append_empty] at whole
    exact whole ▸ plain_withoutTypeArgs name
  · intro h
    rw [withoutTypeArgs_of_plain h] at whole
    exact String.append_eq_left_iff.mp whole

theorem not_plain_append {name args : String} (h : AreTypeArgs args) (nonempty : args ≠ "") :
    ¬ PlainName (name ++ args) := by
  intro plain
  cases eq : args.toList with
  | nil => exact nonempty (String.toList_inj.mp eq)
  | cons c cs =>
      obtain rfl := h c (by simp [eq])
      exact plain (by simp [eq])

theorem Text.mem_of_beforeLast? {sep c : Char} {cs outer : List Char}
    (h : beforeLast? sep cs = some outer) (hc : c ∈ outer) : c ∈ cs := by
  rw [beforeLast?] at h
  split at h
  · simp at h
  · next _ rest cut =>
      obtain rfl := Option.some.inj h
      have kept : c ∈ cs.reverse.dropWhile (· ≠ sep) := by
        rw [cut]
        exact List.mem_cons_of_mem _ (List.mem_reverse.mp hc)
      exact List.mem_reverse.mp ((List.dropWhile_sublist _).subset kept)

/-- A reference has type arguments as it is written if it has them without blanks. -/
theorem plain_normalizeReference_iff {reference : String} :
    PlainName (normalizeReference reference) ↔ PlainName reference := by
  have kept : '<' ∈ Text.removeBlanks reference.toList ↔ '<' ∈ reference.toList := by
    rw [Text.removeBlanks, List.mem_filter]
    exact and_iff_left (by decide)
  rw [PlainName, PlainName, normalizeReference, String.toList_ofList, ← kept]
  cases cut : Text.after? "global::".toList (Text.removeBlanks reference.toList) with
  | none => rfl
  | some rest =>
      rw [Text.after?_eq_some_iff] at cut
      rw [cut, Option.getD_some, List.mem_append, or_iff_right (by decide)]

theorem CleanName.withoutBlanks {name : String} (h : CleanName name) :
    Text.withoutBlanks name = name := by
  rw [Text.withoutBlanks, Text.removeBlanks, List.filter_eq_self.mpr, String.ofList_toList]
  intro c hc
  simp [(h c hc).1]

theorem AreTypeArgs.withoutBlanks {args : String} (h : AreTypeArgs args) :
    AreTypeArgs (Text.withoutBlanks args) := by
  intro c hc
  rw [Text.toList_withoutBlanks, Text.removeBlanks] at hc
  cases eq : args.toList with
  | nil => simp [eq] at hc
  | cons first rest =>
      obtain rfl := h first (by simp [eq])
      rw [eq, List.filter_cons_of_pos (by decide)] at hc
      exact (Option.some.inj hc).symm

/-- Behind a clean name nothing but the blanks of the type arguments is left out. -/
theorem normalizeReference_append {name args : String} (clean : CleanName name)
    (opens : AreTypeArgs args) :
    normalizeReference (name ++ args) = name ++ Text.withoutBlanks args := by
  have blanks : Text.removeBlanks (name ++ args).toList =
      (name ++ Text.withoutBlanks args).toList := by
    have own := congrArg String.toList clean.withoutBlanks
    rw [Text.toList_withoutBlanks] at own
    rw [String.toList_append, Text.removeBlanks_append, own, String.toList_append,
      Text.toList_withoutBlanks]
  have start : Text.after? "global::".toList (name ++ Text.withoutBlanks args).toList = none := by
    rw [Option.eq_none_iff_forall_ne_some]
    intro rest eq
    rw [Text.after?_eq_some_iff] at eq
    -- The colons would stand in the name, which ends at the first `<`.
    have before := congrArg (List.takeWhile (· ≠ '<')) eq
    have whole := congrArg String.toList (withoutTypeArgs_append clean.plain opens.withoutBlanks)
    rw [withoutTypeArgs, String.toList_ofList] at whole
    rw [whole, List.takeWhile_append_of_pos (by simp)] at before
    have inside : ':' ∈ name.toList := by
      rw [before]
      simp
    exact (clean ':' inside).2.2 rfl
  rw [normalizeReference, blanks, start, Option.getD_none, String.ofList_toList]

theorem normalizeReference_of_clean {name : String} (h : CleanName name) :
    normalizeReference name = name := by
  have opens : AreTypeArgs "" := by simp [AreTypeArgs]
  have whole := normalizeReference_append h opens
  have none : Text.withoutBlanks "" = "" := by decide
  rwa [none, String.append_empty] at whole

/-- Where a text starts with a clean name, it refers to something of that name. -/
theorem withoutTypeArgs_normalizeReference {text : String}
    (clean : CleanName (withoutTypeArgs text)) :
    withoutTypeArgs (normalizeReference text) = withoutTypeArgs text := by
  have opens := areTypeArgs_typeArgs text
  have whole := normalizeReference_append clean opens
  rw [withoutTypeArgs_append_typeArgs] at whole
  rw [whole, withoutTypeArgs_append clean.plain opens.withoutBlanks]

namespace Catalog

theorem clean_of_listed : ∀ x ∈ types, CleanName x.1 := by decide +kernel

theorem kind_of_listed : ∀ x ∈ types, x.2.kind ≠ .unresolved := by decide

theorem find?_isSome_iff {name : String} : (find? name).isSome ↔ ∃ type, (name, type) ∈ types := by
  rw [find?, List.lookup_isSome_iff]
  constructor
  · rintro ⟨⟨entry, type⟩, listed, same⟩
    exact ⟨type, (beq_iff_eq.mp same) ▸ listed⟩
  · rintro ⟨type, listed⟩
    exact ⟨_, listed, beq_self_eq_true _⟩

theorem clean_of_find? {name : String} (h : (find? name).isSome) : CleanName name := by
  obtain ⟨type, listed⟩ := find?_isSome_iff.mp h
  exact clean_of_listed _ listed

theorem find?_of_not_plain {name : String} (h : ¬ PlainName name) : find? name = none := by
  rw [← Option.not_isSome_iff_eq_none]
  exact fun listed => h (clean_of_find? listed).plain

end Catalog

namespace Scope

/-- A scope whose namespaces are written without type arguments. -/
def Plain (s : Scope) : Prop :=
  PlainName s.namespaceName ∧ ∀ u ∈ s.usings, PlainName u

theorem mem_candidates_self (s : Scope) (name : String) : name ∈ s.candidates name := by
  simp [candidates]

theorem mem_of_mem_chainOf {n m : List Char} (h : m ∈ chainOf n) : ∀ c ∈ m, c ∈ n := by
  fun_induction chainOf n with
  | case1 => simp at h
  | case2 n nonempty noDot =>
      obtain rfl := List.mem_singleton.mp h
      exact fun _ => id
  | case3 n nonempty outer cut ih =>
      rcases List.mem_cons.mp h with rfl | h
      · exact fun _ => id
      · exact fun c hc => Text.mem_of_beforeLast? cut (ih h c hc)

theorem Plain.candidates {s : Scope} (h : s.Plain) {name : String} (plain : PlainName name) :
    ∀ c ∈ s.candidates name, PlainName c := by
  have dotted : ∀ container, PlainName container → PlainName (container ++ "." ++ name) :=
    fun _ hc => (hc.append (by decide)).append plain
  intro c hc
  simp only [Scope.candidates, List.mem_append, List.mem_map, List.mem_singleton] at hc
  rcases hc with (((⟨e, -, rfl⟩ | ⟨n, hn, rfl⟩) | rfl) | ⟨u, hu, rfl⟩) | ⟨u, hu, rfl⟩
  · exact dotted _ (plain_withoutTypeArgs e)
  · obtain ⟨m, hm, rfl⟩ := List.mem_map.mp hn
    refine dotted _ fun open' => h.1 ?_
    rw [String.toList_ofList] at open'
    exact mem_of_mem_chainOf hm _ open'
  · exact plain
  · exact dotted u (h.2 u hu)
  · obtain rfl := List.mem_singleton.mp hu
    exact dotted _ (by decide)

end Scope

end Antipattern
