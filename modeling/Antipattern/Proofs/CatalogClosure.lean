import Antipattern.Proofs.Portraits

/-!
Taking over framework types. A type comes with the types it derives from, down to those that the
sources declare themselves. Types that are in the table already have theirs, so what a table says
about a framework type is always what the catalog says.
-/

namespace Antipattern

/-- Types that a catalog type refers to. -/
def CatalogType.refs (type : CatalogType) : List String :=
  type.base.toList ++ type.interfaces

def CatalogType.portrait (type : CatalogType) : Portrait where
  kind := type.kind
  base := type.base
  interfaces := type.interfaces

namespace Catalog

/-- The list gives each name once, and a type before those that it refers to. -/
def Ordered : List (String × CatalogType) → Prop
  | [] => True
  | (name, type) :: rest =>
      (∀ x ∈ rest, x.1 ≠ name) ∧ (∀ r ∈ type.refs, ∃ x ∈ rest, x.1 = r) ∧
        type.interfaces.Nodup ∧ Ordered rest

instance decidableOrdered : (list : List (String × CatalogType)) → Decidable (Ordered list)
  | [] => .isTrue trivial
  | (_, _) :: rest =>
      have := decidableOrdered rest
      inferInstanceAs (Decidable (_ ∧ _ ∧ _ ∧ Ordered rest))

theorem ordered_types : Ordered types := by decide +kernel

def Listed (list : List (String × CatalogType)) (name : String) : Prop :=
  ∃ x ∈ list, x.1 = name

theorem Ordered.refs_listed {list : List (String × CatalogType)} (h : Ordered list)
    {x : String × CatalogType} (hx : x ∈ list) {r : String} (hr : r ∈ x.2.refs) :
    Listed list r := by
  induction list with
  | nil => simp at hx
  | cons head rest ih =>
      obtain ⟨-, refs, -, ordered⟩ := h
      have later : Listed rest r → Listed (head :: rest) r :=
        fun ⟨y, hy, eq⟩ => ⟨y, List.mem_cons_of_mem _ hy, eq⟩
      rcases List.mem_cons.mp hx with rfl | hx
      · exact later (refs r hr)
      · exact later (ih ordered hx)

theorem Ordered.lookup_of_mem {list : List (String × CatalogType)} (h : Ordered list)
    {x : String × CatalogType} (hx : x ∈ list) : list.lookup x.1 = some x.2 := by
  induction list with
  | nil => simp at hx
  | cons head rest ih =>
      obtain ⟨apart, -, -, ordered⟩ := h
      rcases List.mem_cons.mp hx with rfl | hx
      · exact List.lookup_cons_self
      · rw [List.lookup_cons, beq_false_of_ne (apart x hx)]
        exact ih ordered hx

theorem find?_of_mem {x : String × CatalogType} (hx : x ∈ types) : find? x.1 = some x.2 :=
  ordered_types.lookup_of_mem hx

/-- What taking a type over needs: the type, and through types that no source declares all that
they refer to. -/
inductive Needs (declared : String → Bool) : String → String → Prop
  | self (name : String) : Needs declared name name
  | link {name ref other : String} {type : CatalogType} (undeclared : declared name = false)
      (listed : find? name = some type) (hr : ref ∈ type.refs)
      (needs : Needs declared ref other) : Needs declared name other

/-- Types of the list that are in the table have come with all that they refer to. -/
def Saturated (declared : String → Bool) (list : List (String × CatalogType)) (t : SymbolTable) :
    Prop :=
  ∀ x ∈ list, declared x.1 = false → t.Has x.1 → ∀ r ∈ x.2.refs, t.Has r

section
variable {declared : String → Bool} {list rest : List (String × CatalogType)}
  {name other : String} {t : SymbolTable}

theorem needs_iff {type : CatalogType} (undeclared : declared name = false)
    (listed : find? name = some type) :
    Needs declared name other ↔ other = name ∨ ∃ r ∈ type.refs, Needs declared r other := by
  constructor
  · intro needs
    cases needs with
    | self => exact .inl rfl
    | link _ found hr needs =>
        obtain rfl := Option.some.inj (listed.symm.trans found)
        exact .inr ⟨_, hr, needs⟩
  · rintro (rfl | ⟨r, hr, needs⟩)
    · exact .self _
    · exact .link undeclared listed hr needs

/-- The entry of a name that the list gives. -/
theorem mem_of_listed (sub : ∀ x ∈ list, x ∈ types) (listed : Listed list name)
    {type : CatalogType} (found : find? name = some type) : (name, type) ∈ list := by
  obtain ⟨x, hx, rfl⟩ := listed
  obtain rfl := Option.some.inj ((find?_of_mem (sub x hx)).symm.trans found)
  exact hx

theorem listed_of_needs (ordered : Ordered list) (sub : ∀ x ∈ list, x ∈ types)
    (listed : Listed list name) (needs : Needs declared name other) : Listed list other := by
  induction needs with
  | self => exact listed
  | link _ found hr _ ih =>
      exact ih (ordered.refs_listed (mem_of_listed sub listed found) hr)

theorem Saturated.has (h : Saturated declared list t) (ordered : Ordered list)
    (sub : ∀ x ∈ list, x ∈ types) (listed : Listed list name) (present : t.Has name)
    (needs : Needs declared name other) : t.Has other := by
  induction needs with
  | self => exact present
  | link undeclared found hr _ ih =>
      have entry := mem_of_listed sub listed found
      exact ih (ordered.refs_listed entry hr) (h _ entry undeclared present _ hr)

end

/-- The outcome of taking a type over. -/
structure TakesOver (declared : String → Bool) (list : List (String × CatalogType))
    (name : String) (t : SymbolTable) (found : Nat × SymbolTable) : Prop where
  named : found.2.nameOf? found.1 = some name
  sound : found.2.Sound
  names : ∀ other, found.2.Has other ↔ t.Has other ∨ Needs declared name other
  old : ∀ other, t.Has other → found.2.portrait? other = t.portrait? other
  new : ∀ other, ¬ t.Has other → found.2.Has other →
    ∃ type, find? other = some type ∧ found.2.portrait? other = some type.portrait
  keeps : t.KeepsNames found.2
  saturated : Saturated declared list found.2

/-- A type of the catalog in the middle of being taken over into a table: it is entered, and linked
to some of the types that it refers to. -/
structure Linking (declared : String → Bool) (rest : List (String × CatalogType)) (name : String)
    (t : SymbolTable) (id : Nat) (linked : List String) (p : Portrait) (t' : SymbolTable) : Prop where
  sound : t'.Sound
  named : t'.nameOf? id = some name
  own : t'.portrait? name = some p
  names : ∀ other, t'.Has other ↔
    t.Has other ∨ other = name ∨ ∃ r ∈ linked, Needs declared r other
  old : ∀ other, t.Has other → t'.portrait? other = t.portrait? other
  new : ∀ other, other ≠ name → ¬ t.Has other → t'.Has other →
    ∃ type, find? other = some type ∧ t'.portrait? other = some type.portrait
  keeps : t.KeepsNames t'
  saturated : Saturated declared rest t'

section
variable {declared : String → Bool} {list rest : List (String × CatalogType)}
  {name r : String} {t t' t'' : SymbolTable} {id : Nat} {linked : List String} {p : Portrait}

theorem linking_start (sound : t.Sound) (absent : ¬ t.Has name) (apart : ∀ x ∈ rest, x.1 ≠ name)
    (saturated : Saturated declared rest t) (kind : TypeKind) :
    Linking declared rest name t (t.addType name kind).1 [] { kind } (t.addType name kind).2 where
  sound := sound.addType name kind
  named := SymbolTable.nameOf?_addType_self t name kind
  own := by rw [sound.portrait?_addType absent, if_pos rfl]
  names other := by simp [SymbolTable.has_addType]
  old other present := by
    rw [sound.portrait?_addType absent, if_neg]
    rintro rfl
    exact absent present
  new other differs absent' present :=
    absurd (SymbolTable.has_addType.mp present) (not_or.mpr ⟨absent', differs⟩)
  keeps := SymbolTable.keepsNames_addType t name kind
  saturated x hx undeclared present ref hr := by
    rcases SymbolTable.has_addType.mp present with old | same
    · exact SymbolTable.has_addType.mpr (.inl (saturated x hx undeclared old ref hr))
    · exact absurd same (apart x hx)

theorem Linking.link (h : Linking declared rest name t id linked p t') (absent : ¬ t.Has name)
    {found : Nat × SymbolTable} (taken : TakesOver declared rest r t' found)
    {g : Portrait → Portrait} (redraws : SymbolTable.Redraws found.2 t'' name g) :
    Linking declared rest name t id (linked ++ [r]) (g p) t'' := by
  have has := redraws.has
  have ownPresent : t'.Has name := ⟨id, h.named⟩
  have others : ∀ other, other ≠ name → t''.portrait? other = found.2.portrait? other :=
    fun other differs => (redraws.portrait? other).trans (if_neg differs)
  have before : ∀ other, t.Has other → t'.Has other := fun other present =>
    (h.names other).mpr (.inl present)
  refine ⟨redraws.sound, ?_, ?_, ?_, ?_, ?_, ?_, ?_⟩
  · rw [redraws.names]
    exact taken.keeps id name h.named
  · rw [redraws.portrait?, if_pos rfl, taken.old name ownPresent, h.own, Option.map_some]
  · intro other
    rw [has, taken.names, h.names]
    simp only [List.mem_append, List.mem_singleton, or_and_right, exists_or, exists_eq_left,
      or_assoc]
  · intro other present
    rw [others other fun same => absent (same ▸ present), taken.old other (before other present),
      h.old other present]
  · intro other differs absent' present
    rw [others other differs]
    by_cases earlier : t'.Has other
    · rw [taken.old other earlier]
      exact h.new other differs absent' earlier
    · exact taken.new other earlier ((has other).mp present)
  · intro i other named
    rw [redraws.names]
    exact taken.keeps i other (h.keeps i other named)
  · intro x hx undeclared present ref hr
    exact (has ref).mpr (taken.saturated x hx undeclared ((has x.1).mp present) ref hr)

theorem Linking.takesOver {type : CatalogType} (absent : ¬ t.Has name)
    (undeclared : declared name = false) (listed : find? name = some type)
    (h : Linking declared rest name t id type.refs type.portrait t') :
    TakesOver declared ((name, type) :: rest) name t (id, t') where
  named := h.named
  sound := h.sound
  names other := by rw [h.names, needs_iff undeclared listed]
  old := h.old
  new other absent' present := by
    by_cases same : other = name
    · subst same
      exact ⟨type, listed, h.own⟩
    · exact h.new other same absent' present
  keeps := h.keeps
  saturated := by
    intro x hx undeclared present ref hr
    rcases List.mem_cons.mp hx with rfl | hx
    · exact (h.names ref).mpr (.inr (.inr ⟨ref, hr, .self ref⟩))
    · exact h.saturated x hx undeclared present ref hr

/-- Taking over from a list works in every table that is fit for it. -/
def Works (declared : String → Bool) (list : List (String × CatalogType)) : Prop :=
  ∀ name t, Listed list name → t.Sound → (∀ other, declared other → t.Has other) →
    Saturated declared list t →
    ∃ found, takeOver list name t = some found ∧ TakesOver declared list name t found

theorem Linking.take (h : Linking declared rest name t id linked p t')
    (works : Works declared rest) (present : ∀ other, declared other → t.Has other)
    (listed : Listed rest r) :
    ∃ found, takeOver rest r t' = some found ∧ TakesOver declared rest r t' found ∧
      found.2.nameOf? id = some name := by
  obtain ⟨found, taken, outcome⟩ := works r t' listed h.sound
    (fun other declared => (h.names other).mpr (.inl (present other declared))) h.saturated
  exact ⟨found, taken, outcome, outcome.keeps id name h.named⟩

theorem Linking.base (h : Linking declared rest name t id [] { kind := p.kind } t')
    (absent : ¬ t.Has name) (works : Works declared rest)
    (present : ∀ other, declared other → t.Has other) {base : Option String}
    (listed : ∀ b ∈ base, Listed rest b) :
    Linking declared rest name t id base.toList { kind := p.kind, base }
      (linkBase rest id base t') := by
  cases base with
  | none => exact h
  | some b =>
      obtain ⟨found, taken, outcome, named⟩ := h.take works present (listed b rfl)
      have linked := h.link absent outcome (outcome.sound.redraws_setBase named outcome.named)
      rw [linkBase, taken]
      exact linked

theorem Linking.interfaces (h : Linking declared rest name t id linked p t')
    (absent : ¬ t.Has name) (works : Works declared rest)
    (present : ∀ other, declared other → t.Has other) {interfaces : List String}
    (listed : ∀ i ∈ interfaces, Listed rest i) :
    Linking declared rest name t id (linked ++ interfaces)
      (interfaces.foldl (fun p i => p.withInterface i) p)
      (interfaces.foldl (linkInterface rest id) t') := by
  induction interfaces generalizing linked p t' with
  | nil => simpa using h
  | cons i interfaces ih =>
      rw [List.forall_mem_cons] at listed
      obtain ⟨found, taken, outcome, named⟩ := h.take works present listed.1
      have link := h.link absent outcome (outcome.sound.redraws_addInterface named outcome.named)
      have step : linkInterface rest id t' i = found.2.addInterface id found.1 := by
        rw [linkInterface, taken]
      rw [List.foldl_cons, List.foldl_cons, step]
      simpa using ih link listed.2

theorem foldl_withInterface {interfaces : List String} {p : Portrait}
    (nodup : (p.interfaces ++ interfaces).Nodup) :
    interfaces.foldl (fun p i => p.withInterface i) p =
      { p with interfaces := p.interfaces ++ interfaces } := by
  induction interfaces generalizing p with
  | nil => simp
  | cons i interfaces ih =>
      have new : i ∉ p.interfaces := by
        intro listed
        exact (List.nodup_append.mp nodup).2.2 i listed i List.mem_cons_self rfl
      have step : p.withInterface i = { p with interfaces := p.interfaces ++ [i] } := if_neg new
      rw [List.foldl_cons, step, ih]
      · simp
      · simpa using nodup

theorem takesOver_present (ordered : Ordered list) (sub : ∀ x ∈ list, x ∈ types)
    (listed : Listed list name) (sound : t.Sound) (saturated : Saturated declared list t)
    (named : t.nameOf? id = some name) : TakesOver declared list name t (id, t) where
  named := named
  sound := sound
  names other := by
    rw [iff_self_or]
    exact saturated.has ordered sub listed ⟨id, named⟩
  old _ _ := rfl
  new _ absent present := absurd present absent
  keeps _ _ h := h
  saturated := saturated

theorem takesOver_new {type : CatalogType} (works : Works declared rest)
    (apart : ∀ x ∈ rest, x.1 ≠ name) (refs : ∀ r ∈ type.refs, Listed rest r)
    (nodup : type.interfaces.Nodup) (listed : find? name = some type) (sound : t.Sound)
    (present : ∀ other, declared other → t.Has other) (saturated : Saturated declared rest t)
    (absent : ¬ t.Has name) :
    TakesOver declared ((name, type) :: rest) name t ((t.addType name type.kind).1,
      type.interfaces.foldl (linkInterface rest (t.addType name type.kind).1)
        (linkBase rest (t.addType name type.kind).1 type.base (t.addType name type.kind).2)) := by
  have undeclared : declared name = false :=
    Bool.eq_false_iff.mpr fun declared => absent (present name declared)
  have start := linking_start sound absent apart saturated type.kind
  have base := start.base (p := type.portrait) absent works present fun b hb =>
    refs b (List.mem_append_left _ (Option.mem_toList.mpr hb))
  have linked := base.interfaces absent works present fun i hi =>
    refs i (List.mem_append_right _ hi)
  rw [foldl_withInterface (by simpa using nodup)] at linked
  exact linked.takesOver absent undeclared listed

/-- A type further down the list does not need one in front of it. -/
theorem TakesOver.cons {x : String × CatalogType} {found : Nat × SymbolTable}
    (h : TakesOver declared rest name t found) (apart : ∀ y ∈ rest, y.1 ≠ x.1)
    (ordered : Ordered rest) (sub : ∀ y ∈ rest, y ∈ types) (listed : Listed rest name)
    (saturated : Saturated declared (x :: rest) t) :
    TakesOver declared (x :: rest) name t found where
  named := h.named
  sound := h.sound
  names := h.names
  old := h.old
  new := h.new
  keeps := h.keeps
  saturated := by
    intro y hy undeclared present ref hr
    rcases List.mem_cons.mp hy with rfl | hy
    · rcases (h.names y.1).mp present with old | needs
      · exact (h.names ref).mpr (.inl (saturated y List.mem_cons_self undeclared old ref hr))
      · obtain ⟨z, hz, same⟩ := listed_of_needs ordered sub listed needs
        exact absurd same (apart z hz)
    · exact h.saturated y hy undeclared present ref hr

theorem works_of_ordered (ordered : Ordered list) (sub : ∀ x ∈ list, x ∈ types) :
    Works declared list := by
  induction list with
  | nil => exact fun name t listed => absurd listed (by simp [Listed])
  | cons x rest ih =>
      obtain ⟨entry, type⟩ := x
      obtain ⟨apart, refs, nodup, orderedRest⟩ := id ordered
      have subRest : ∀ x ∈ rest, x ∈ types := fun x hx => sub x (List.mem_cons_of_mem _ hx)
      have works := ih orderedRest subRest
      intro name t listed sound present saturated
      have saturatedRest : Saturated declared rest t := fun x hx =>
        saturated x (List.mem_cons_of_mem _ hx)
      rw [takeOver_cons]
      split
      · next same =>
          subst same
          cases known : t.lookup? entry with
          | some id =>
              exact ⟨_, rfl, takesOver_present ordered sub listed sound saturated
                (SymbolTable.nameOf?_of_lookup? known)⟩
          | none =>
              have absent : ¬ t.Has entry := fun ⟨id, named⟩ =>
                SymbolTable.lookup?_eq_none_iff.mp known id named
              exact ⟨_, rfl, takesOver_new works apart refs nodup
                (find?_of_mem (sub _ List.mem_cons_self)) sound present saturatedRest absent⟩
      · next differs =>
          have later : Listed rest name := by
            obtain ⟨x, hx, same⟩ := listed
            rcases List.mem_cons.mp hx with rfl | hx
            · exact absurd same differs
            · exact ⟨x, hx, same⟩
          obtain ⟨found, taken, outcome⟩ := works name t later sound present saturatedRest
          exact ⟨found, taken, outcome.cons apart orderedRest subRest later saturated⟩

/-- Taking a framework type over, in a table that has all that is declared. -/
theorem takesOver_ensure? (listed : (find? name).isSome) (sound : t.Sound)
    (present : ∀ other, declared other → t.Has other) (saturated : Saturated declared types t) :
    ∃ found, ensure? name t = some found ∧ TakesOver declared types name t found := by
  obtain ⟨type, hx⟩ := find?_isSome_iff.mp listed
  exact works_of_ordered ordered_types (fun _ h => h) name t ⟨_, hx, rfl⟩ sound present saturated

end

end Catalog

end Antipattern
