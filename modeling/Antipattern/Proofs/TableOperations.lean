import Antipattern.Proofs.TableNames

/-!
Tables as sequences of operations build them, with ids inside or outside the table. Symbols stand
at their ids, names are distinct and the index finds each of them, and no interface is listed twice.
An operation on a symbol changes one field of it and nothing else.
-/

namespace Antipattern

inductive TypeSymbol.Field where
  | baseType
  | interfaces
  | allInterfaces
  | originalDefinition
  | attributes
  | members
  | declared
deriving DecidableEq

/-- The symbol with one field blanked out; symbols that agree on this agree on all other fields. -/
def TypeSymbol.without (s : TypeSymbol) : Field → TypeSymbol
  | .baseType => { s with baseType := none }
  | .interfaces => { s with interfaces := [] }
  | .allInterfaces => { s with allInterfaces := [] }
  | .originalDefinition => { s with originalDefinition := none }
  | .attributes => { s with attributes := [] }
  | .members => { s with members := [] }
  | .declared => { s with declared := [] }

namespace SymbolTable

/-- What can be written to a symbol of a table. -/
inductive Edit where
  | base (id : Nat)
  | interface (id : Nat)
  | originalDefinition (id : Nat)
  | applied (a : AppliedAttribute)
  | member (m : MemberSymbol)
  | declaration (place : SyntaxRef)
deriving DecidableEq

inductive Operation where
  | addType (displayName : String) (kind : TypeKind)
  | edit (id : Nat) (e : Edit)
deriving DecidableEq

def edit (t : SymbolTable) (id : Nat) : Edit → SymbolTable
  | .base target => t.setBase id target
  | .interface target => t.addInterface id target
  | .originalDefinition target => t.setOriginalDefinition id target
  | .applied a => t.addAttribute id a
  | .member m => t.addMember id m
  | .declaration place => t.addDeclaration id place

def perform (t : SymbolTable) : Operation → SymbolTable
  | .addType displayName kind => (t.addType displayName kind).2
  | .edit id e => t.edit id e

def built (ops : List Operation) : SymbolTable :=
  ops.foldl perform {}

namespace Edit

def field : Edit → TypeSymbol.Field
  | base _ => .baseType
  | interface _ => .interfaces
  | originalDefinition _ => .originalDefinition
  | applied _ => .attributes
  | member _ => .members
  | declaration _ => .declared

/-- The symbol carries what was written. -/
def ShownBy (s : TypeSymbol) : Edit → Prop
  | base target => s.baseType = some target
  | interface target => target ∈ s.interfaces
  | originalDefinition target => s.originalDefinition = some target
  | applied a => s.attributes.getLast? = some a
  | member m => s.members.getLast? = some m
  | declaration place => s.declared.getLast? = some place

def change (s : TypeSymbol) : Edit → TypeSymbol
  | base target => { s with baseType := some target }
  | interface target =>
      if s.interfaces.contains target then s
      else { s with interfaces := s.interfaces ++ [target] }
  | originalDefinition target => { s with originalDefinition := some target }
  | applied a => { s with attributes := s.attributes ++ [a] }
  | member m => { s with members := s.members ++ [m] }
  | declaration place => { s with declared := s.declared ++ [place] }

theorem without_change (e : Edit) (s : TypeSymbol) :
    (e.change s).without e.field = s.without e.field := by
  cases e with
  | interface target =>
      simp only [change, field, TypeSymbol.without]
      split <;> rfl
  | base _ | originalDefinition _ | applied _ | member _ | declaration _ => rfl

theorem shownBy_change (e : Edit) (s : TypeSymbol) : e.ShownBy (e.change s) := by
  cases e with
  | interface target =>
      simp only [change, ShownBy]
      split
      · next listed => exact List.contains_iff_mem.mp listed
      · exact List.mem_append_right _ (List.mem_singleton_self target)
  | base _ | originalDefinition _ => rfl
  | applied _ | member _ | declaration _ => exact List.getLast?_concat

theorem nodup_change (e : Edit) {s : TypeSymbol} (h : s.interfaces.Nodup) :
    (e.change s).interfaces.Nodup := by
  cases e with
  | interface target =>
      simp only [change]
      split
      · exact h
      · next fresh =>
          refine List.nodup_append.mpr ⟨h, List.pairwise_singleton _ _, ?_⟩
          intro a listed b same
          rw [List.mem_singleton.mp same]
          exact fun eq => fresh (List.contains_iff_mem.mpr (eq ▸ listed))
  | base _ | originalDefinition _ | applied _ | member _ | declaration _ => exact h

/-- Blanking out any field leaves what a symbol is, so editing does too. -/
theorem identity_change (e : Edit) (s : TypeSymbol) :
    (e.change s).id = s.id ∧ (e.change s).displayName = s.displayName ∧
      (e.change s).special = s.special := by
  have identity (s : TypeSymbol) (f : TypeSymbol.Field) :
      ((s.without f).id, (s.without f).displayName, (s.without f).special) =
        (s.id, s.displayName, s.special) := by
    cases f <;> rfl
  have same := (identity (e.change s) e.field).symm.trans
    ((e.without_change s).symm ▸ identity s e.field)
  simpa only [Prod.mk.injEq] using same

end Edit

theorem symbol?_edit (t : SymbolTable) (id : Nat) (e : Edit) (j : Nat) :
    (t.edit id e).symbol? j = if id = j then (t.symbol? j).map e.change else t.symbol? j := by
  have keeps (s : TypeSymbol) := (e.identity_change s).2.1
  cases e with
  | base _ | interface _ | originalDefinition _ | applied _ | member _ =>
      exact symbol?_update t id _ keeps j
  | declaration place => exact symbol?_addDeclaration t id place j

theorem byName_edit (t : SymbolTable) (id : Nat) (e : Edit) :
    (t.edit id e).byName = t.byName := by
  cases e <;> rfl

/-- Places are entered by declarations alone, and for any id. -/
theorem declaredAt?_edit (t : SymbolTable) (id : Nat) (e : Edit) (place : SyntaxRef) :
    (t.edit id e).declaredAt? place =
      if e = .declaration place then some id else t.declaredAt? place := by
  cases e with
  | base _ | interface _ | originalDefinition _ | applied _ | member _ => rfl
  | declaration other =>
      rw [declaredAt?, edit, declarations_addDeclaration, List.lookup_cons]
      by_cases same : place = other
      · simp [same]
      · rw [beq_eq_false_iff_ne.mpr same, if_neg fun eq => same (Edit.declaration.inj eq).symm]
        rfl

/-- A table that differs from another in one field of one symbol, if that symbol is there. -/
structure DiffersAt (id : Nat) (field : TypeSymbol.Field) (t t' : SymbolTable) : Prop where
  others : ∀ j, j ≠ id → t'.symbol? j = t.symbol? j
  fields : (t'.symbol? id).map (·.without field) = (t.symbol? id).map (·.without field)
  outside : t.symbols.size ≤ id → t'.symbols = t.symbols
  index : t'.byName = t.byName

theorem differsAt_edit (t : SymbolTable) (id : Nat) (e : Edit) :
    DiffersAt id e.field t (t.edit id e) where
  others j other := by rw [symbol?_edit, if_neg (Ne.symm other)]
  fields := by
    rw [symbol?_edit, if_pos rfl, Option.map_map]
    exact congrArg (Option.map · _) (funext e.without_change)
  outside beyond := by
    have absent : t.symbol? id = none := Array.getElem?_eq_none beyond
    apply Array.ext_getElem?
    intro j
    have here := symbol?_edit t id e j
    by_cases same : id = j
    · rw [if_pos same, ← same, absent, Option.map_none, ← absent] at here
      rwa [← same]
    · rwa [if_neg same] at here
  index := byName_edit t id e

structure WellFormed (t : SymbolTable) : Prop where
  id : ∀ {k s}, t.symbol? k = some s → s.id = k
  special : ∀ {k s}, t.symbol? k = some s → s.special = .ofName s.displayName
  distinct : t.Distinct
  interfaces : ∀ {k s}, t.symbol? k = some s → s.interfaces.Nodup

theorem wellFormed_empty : ({} : SymbolTable).WellFormed :=
  ⟨nofun, nofun, distinct_empty, nofun⟩

theorem WellFormed.addType {t : SymbolTable} (h : t.WellFormed) (name : String)
    (kind : TypeKind) : (t.addType name kind).2.WellFormed := by
  refine ⟨fun found => ?_, fun found => ?_, h.distinct.addType name kind, fun found => ?_⟩
  · cases symbol_of_addType found with
    | inl old => exact h.id old
    | inr new => rw [new.2.1, new.2.2, newSymbol]
  · cases symbol_of_addType found with
    | inl old => exact h.special old
    | inr new => rw [new.2.2, newSymbol]
  · cases symbol_of_addType found with
    | inl old => exact h.interfaces old
    | inr new =>
        rw [new.2.2]
        exact List.nodup_nil

theorem WellFormed.edit {t : SymbolTable} (h : t.WellFormed) (id : Nat) (e : Edit) :
    (t.edit id e).WellFormed := by
  have symbols {k s} (found : (t.edit id e).symbol? k = some s) :
      ∃ old, t.symbol? k = some old ∧ (s = old ∨ s = e.change old) := by
    rw [symbol?_edit] at found
    split at found
    · obtain ⟨old, before, rfl⟩ := Option.map_eq_some_iff.mp found
      exact ⟨old, before, .inr rfl⟩
    · exact ⟨s, found, .inl rfl⟩
  have names (j : Nat) : (t.edit id e).nameOf? j = t.nameOf? j := by
    rw [nameOf?, symbol?_edit]
    split
    · rw [Option.map_map]
      exact congrArg (Option.map · _) (funext fun s => (e.identity_change s).2.1)
    · rfl
  refine ⟨fun found => ?_, fun found => ?_, ?_, fun found => ?_⟩
  · obtain ⟨old, before, rfl | rfl⟩ := symbols found
    · exact h.id before
    · exact (e.identity_change old).1.trans (h.id before)
  · obtain ⟨old, before, rfl | rfl⟩ := symbols found
    · exact h.special before
    · rw [(e.identity_change old).2.2, (e.identity_change old).2.1, h.special before]
  · intro i j name
    rw [names, names]
    exact h.distinct i j name
  · obtain ⟨old, before, rfl | rfl⟩ := symbols found
    · exact h.interfaces before
    · exact e.nodup_change (h.interfaces before)

theorem WellFormed.perform {t : SymbolTable} (h : t.WellFormed) (op : Operation) :
    (t.perform op).WellFormed := by
  cases op with
  | addType name kind => exact h.addType name kind
  | edit id e => exact h.edit id e

theorem wellFormed_built (ops : List Operation) : (built ops).WellFormed := by
  have run (t : SymbolTable) (h : t.WellFormed) : (ops.foldl SymbolTable.perform t).WellFormed := by
    induction ops generalizing t with
    | nil => exact h
    | cons op ops ih => exact ih _ (h.perform op)
  exact run {} wellFormed_empty

/-- Whatever operations built a table, it is in order, its index gives the one symbol of a name,
and a further operation changes what it names and no more, as does finishing the table. -/
theorem table_of_operations (ops : List Operation) :
    let t := built ops
    (∀ k s, t.symbol? k = some s →
        s.id = k ∧ s.special = .ofName s.displayName ∧ s.interfaces.Nodup) ∧
      (∀ i j s s', t.symbol? i = some s → t.symbol? j = some s' →
        s.displayName = s'.displayName → i = j) ∧
      (∀ name id, t.lookup? name = some id ↔
        ∃ s, t.symbol? id = some s ∧ s.displayName = name) ∧
      (∀ name kind id, t.lookup? name = some id → t.addType name kind = (id, t)) ∧
      (∀ name kind, t.lookup? name = none →
        (t.addType name kind).1 = t.symbols.size ∧
          (t.addType name kind).2.symbols = t.symbols.push (t.newSymbol name kind)) ∧
      (∀ id e, DiffersAt id e.field t (t.edit id e) ∧
        (∀ s, (t.edit id e).symbol? id = some s → e.ShownBy s) ∧
        ∀ place, (t.edit id e).declaredAt? place =
          if e = .declaration place then some id else t.declaredAt? place) ∧
      (∀ k, (t.finish.symbol? k).map (·.without .allInterfaces) =
        (t.symbol? k).map (·.without .allInterfaces)) ∧
      t.finish.byName = t.byName ∧ t.finish.declarations = t.declarations := by
  intro t
  have formed : t.WellFormed := wellFormed_built ops
  have named {k s name} (found : t.symbol? k = some s) (display : s.displayName = name) :
      t.nameOf? k = some name :=
    nameOf?_eq_some_iff.mpr ⟨s, found, display⟩
  refine ⟨?_, ?_, ?_, ?_, ?_, ?_, ?_, rfl, rfl⟩
  · intro k s found
    exact ⟨formed.id found, formed.special found, formed.interfaces found⟩
  · intro i j s s' first second same
    exact formed.distinct i j _ (named first same) (named second rfl)
  · intro name id
    exact formed.distinct.lookup?.trans nameOf?_eq_some_iff
  · intro name kind id known
    exact addType_of_known known kind
  · intro name kind fresh
    rw [addType_of_new fresh]
    exact ⟨rfl, rfl⟩
  · intro id e
    refine ⟨differsAt_edit t id e, fun s found => ?_, declaredAt?_edit t id e⟩
    rw [symbol?_edit, if_pos rfl] at found
    obtain ⟨old, -, rfl⟩ := Option.map_eq_some_iff.mp found
    exact e.shownBy_change old
  · intro k
    rw [symbol?_finish, Option.map_map]
    rfl

end SymbolTable
end Antipattern
