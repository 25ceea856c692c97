import Antipattern.Proofs.TableUpkeep

/-!
Framework types in bound tables. Taking a type over calls for the types that it refers to, and those
calls come to an end, since the catalog has no cycle. What binding leaves for a framework type is
then the catalog's own description of it, with ids for the names.
-/

namespace Antipattern

namespace Catalog

/-- A way to get the id of a type from a table, which may grow for it. -/
abbrev Fetch : Type :=
  String → SymbolTable → Option (Nat × SymbolTable)

/-- Taking the type `name` over calls for `ref`. -/
def Calls (ref name : String) : Prop :=
  ∃ type, find? name = some type ∧ ref ∈ type.refs

def fetchBase (fetch : Fetch) (id : Nat) (base : Option String) (t : SymbolTable) : SymbolTable :=
  match base with
  | none => t
  | some base =>
      match fetch base t with
      | none => t
      | some (baseId, t) => t.setBase id baseId

def fetchInterface (fetch : Fetch) (id : Nat) (t : SymbolTable) (interface : String) :
    SymbolTable :=
  match fetch interface t with
  | none => t
  | some (interfaceId, t) => t.addInterface id interfaceId

/-- Gives a type of the catalog an id, with `fetch` for the types that it refers to. -/
def takeIn (fetch : Fetch) (name : String) (type : CatalogType) (t : SymbolTable) :
    Nat × SymbolTable :=
  match t.lookup? name with
  | some id => (id, t)
  | none =>
      let added := t.addType name type.kind
      (added.1, type.interfaces.foldl (fetchInterface fetch added.1)
        (fetchBase fetch added.1 type.base added.2))

/-- Taking one type over, where `fetch` answers the calls for the types that it refers to. -/
def call (fetch : Fetch) : Fetch := fun name t =>
  (find? name).map fun type => takeIn fetch name type t

section
variable {list front rest : List (String × CatalogType)} {name : String} {type : CatalogType}
  {fetch fetch' : Fetch}

theorem fetchBase_congr (id : Nat) {base : Option String}
    (same : ∀ ref ∈ base, fetch ref = fetch' ref) :
    fetchBase fetch id base = fetchBase fetch' id base := by
  funext t
  cases base with
  | none => rfl
  | some ref => rw [fetchBase, fetchBase, same ref rfl]

/-- What taking a type over does depends on the answers to its own calls only. -/
theorem call_congr (same : ∀ ref, Calls ref name → fetch ref = fetch' ref) :
    call fetch name = call fetch' name := by
  funext t
  rw [call, call]
  refine Option.map_congr fun type listed => ?_
  have base (id : Nat) := fetchBase_congr id fun ref (hr : ref ∈ type.base) =>
    same ref ⟨type, listed, List.mem_append_left _ (Option.mem_toList.mpr hr)⟩
  have interfaces (id : Nat) (t : SymbolTable) :=
    List.foldl_ext (fetchInterface fetch id) (fetchInterface fetch' id) t
      fun t ref (hr : ref ∈ type.interfaces) => by
        rw [fetchInterface, fetchInterface, same ref ⟨type, listed, List.mem_append_right _ hr⟩]
  simp only [takeIn, base, interfaces]

/-- The call that the head of a list answers, with the rest of the list for its calls. -/
theorem takeOver_cons_self (listed : find? name = some type) :
    takeOver ((name, type) :: rest) name = call (takeOver rest) name := by
  funext t
  rw [takeOver_cons, if_pos rfl, call, listed, Option.map_some, takeIn]
  cases t.lookup? name <;> rfl

/-- Names further down an ordered list are looked for there. -/
theorem takeOver_append (ordered : Ordered (front ++ list)) (listed : Listed list name) :
    takeOver (front ++ list) name = takeOver list name := by
  induction front with
  | nil => rfl
  | cons x front ih =>
      obtain ⟨apart, -, -, ordered⟩ := ordered
      obtain ⟨y, hy, same⟩ := id listed
      funext t
      rw [List.cons_append, takeOver_cons,
        if_neg fun eq => apart y (List.mem_append_right _ hy) (same.trans eq.symm), ih ordered]

theorem Ordered.of_append (ordered : Ordered (front ++ list)) : Ordered list := by
  induction front with
  | nil => exact ordered
  | cons x front ih => exact ih ordered.2.2.2

/-- What a listed type refers to stands below it. -/
theorem exists_split (listed : find? name = some type) :
    ∃ front rest, types = front ++ (name, type) :: rest ∧ ∀ ref ∈ type.refs, Listed rest ref := by
  obtain ⟨type', entry⟩ := find?_isSome_iff.mp (Option.isSome_of_eq_some listed)
  obtain rfl := Option.some.inj ((find?_of_mem entry).symm.trans listed)
  obtain ⟨front, rest, split⟩ := List.append_of_mem entry
  have ordered := ordered_types
  rw [split] at ordered
  exact ⟨front, rest, split, ordered.of_append.2.1⟩

/-- Taking over from the catalog answers its own calls. -/
theorem ensure?_eq_call : ensure? = call ensure? := by
  funext name t
  cases listed : find? name with
  | none =>
      rw [call, listed, Option.map_none, ← Option.not_isSome_iff_eq_none, ensure?_isSome_iff, listed]
      simp
  | some type =>
      obtain ⟨front, rest, split, below⟩ := exists_split listed
      have ordered := ordered_types
      rw [split] at ordered
      have own : ensure? name = takeOver ((name, type) :: rest) name := by
        funext t
        rw [ensure?, split, takeOver_append ordered ⟨_, List.mem_cons_self, rfl⟩]
      rw [own, takeOver_cons_self listed]
      refine congrFun (call_congr fun ref calls => ?_) t
      obtain ⟨type', listed', hr⟩ := calls
      obtain rfl := Option.some.inj (listed.symm.trans listed')
      rw [List.append_cons] at split ordered
      funext t
      rw [ensure?, split, takeOver_append ordered (below ref hr)]

theorem acc_calls (ordered : Ordered list) (sub : ∀ x ∈ list, x ∈ types)
    (listed : Listed list name) : Acc Calls name := by
  induction list generalizing name with
  | nil => exact absurd listed (by simp [Listed])
  | cons x rest ih =>
      obtain ⟨-, below, -, ordered⟩ := ordered
      have later {other : String} (h : Listed rest other) : Acc Calls other :=
        ih ordered (fun y hy => sub y (List.mem_cons_of_mem _ hy)) h
      obtain ⟨y, hy, rfl⟩ := listed
      rcases List.mem_cons.mp hy with rfl | hy
      · refine Acc.intro _ ?_
        rintro ref ⟨type, found, hr⟩
        rw [find?_of_mem (sub y hy)] at found
        exact later (below ref (Option.some.inj found ▸ hr))
      · exact later ⟨y, hy, rfl⟩

/-- No catalog type leads back to itself. -/
theorem wellFounded_calls : WellFounded Calls := by
  refine ⟨fun name => ?_⟩
  cases listed : find? name with
  | none =>
      refine Acc.intro _ ?_
      rintro ref ⟨type, found, -⟩
      simp [listed] at found
  | some type =>
      obtain ⟨type, entry⟩ := find?_isSome_iff.mp (Option.isSome_of_eq_some listed)
      exact acc_calls ordered_types (fun _ h => h) ⟨_, entry, rfl⟩

/-- Answering one's own calls leaves no choice, as they come to an end. -/
theorem eq_call_iff : fetch = call fetch ↔ fetch = ensure? := by
  constructor
  · intro fixed
    funext name
    induction name using wellFounded_calls.induction with
    | _ name ih =>
        calc fetch name
          _ = call fetch name := congrFun fixed name
          _ = call ensure? name := call_congr ih
          _ = ensure? name := (congrFun ensure?_eq_call name).symm
  · rintro rfl
    exact ensure?_eq_call

end

end Catalog

namespace SymbolTable

/-- Ids of a sound table are what their names stand for. -/
theorem Sound.map_some_refs {t : SymbolTable} (sound : t.Sound) {id : Nat} {s : TypeSymbol}
    (h : t.symbol? id = some s) :
    s.baseType.map some = (s.portrait t.nameAt).base.map t.lookup? ∧
      s.interfaces.map some = (s.portrait t.nameAt).interfaces.map t.lookup? := by
  have named : ∀ i ∈ s.refs, some i = t.lookup? (t.nameAt i) := by
    intro i hi
    obtain ⟨name, named⟩ := sound.closed h i hi
    rw [nameAt_of_nameOf? named, sound.distinct.lookup?.mpr named]
  obtain ⟨base, interfaces, -⟩ := TypeSymbol.map_refs_congr named
  refine ⟨base.trans ?_, interfaces.trans ?_⟩ <;> simp [TypeSymbol.portrait, Function.comp_def]

theorem symbol?_of_finish {t : SymbolTable} {id : Nat} {s : TypeSymbol}
    (h : t.finish.symbol? id = some s) :
    ∃ s', t.symbol? id = some s' ∧ { s' with allInterfaces := t.reachedInterfaces id } = s := by
  rw [symbol?_finish] at h
  exact Option.map_eq_some_iff.mp h

end SymbolTable

namespace Binder

open Declaration

theorem Based.exists_symbol {t : SymbolTable} {name : String} (h : Based t name) (sound : t.Sound) :
    ∃ id s base, t.lookup? name = some id ∧ t.symbol? id = some s ∧ s.baseType = some base ∧
      ∃ target, t.symbol? base = some target := by
  obtain ⟨p, base, drawn, based⟩ := h
  obtain ⟨id, named⟩ := SymbolTable.has_of_portrait? drawn
  obtain ⟨s, found, rfl⟩ := SymbolTable.nameOf?_eq_some_iff.mp named
  rw [sound.distinct.portrait?_eq found] at drawn
  obtain rfl := Option.some.inj drawn
  obtain ⟨i, same, -⟩ := Option.map_eq_some_iff.mp based
  obtain ⟨baseName, baseNamed⟩ := sound.closed found i (by simp [TypeSymbol.refs, same])
  obtain ⟨target, present, -⟩ := SymbolTable.nameOf?_eq_some_iff.mp baseNamed
  exact ⟨id, s, i, sound.distinct.lookup?.mpr named, found, same, target, present⟩

/-- Framework types in a bound program. Taking one over ends on every name; those that no file
declares are as the catalog has them, with all that they refer to; and all classes and records of
the files have a base type, with `System.Object` at the root. -/
theorem bind_framework (files : List ParsedFile) :
    (WellFounded Catalog.Calls ∧ ∀ fetch, fetch = Catalog.call fetch ↔ fetch = Catalog.ensure?) ∧
      (∀ id s type, (bind files).symbol? id = some s →
        Catalog.find? s.displayName = some type → isDeclared (ofFiles files) s.displayName = false →
        s.kind = type.kind ∧ s.baseType.map some = type.base.map (bind files).lookup? ∧
          s.interfaces.map some = type.interfaces.map (bind files).lookup?) ∧
      ((bind files).lookup? "System.Object").isSome ∧
      ∀ d ∈ ofFiles files, d.node.kind = .classDeclaration ∨ d.node.kind = .recordDeclaration →
        d.display ≠ "System.Object" →
        ∃ id s base, (bind files).lookup? d.display = some id ∧
          (bind files).symbol? id = some s ∧ s.baseType = some base ∧
          ((bind files).symbol? base).isSome := by
  obtain ⟨b, bound, orderly, ⟨object, root⟩, based⟩ := orderly_bind files
  rw [bound]
  refine ⟨⟨Catalog.wellFounded_calls, fun _ => Catalog.eq_call_iff⟩, ?_, ?_, ?_⟩
  · intro id s type found listed undeclared
    obtain ⟨before, earlier, rfl⟩ := SymbolTable.symbol?_of_finish found
    have drawn := orderly.sound.distinct.portrait?_eq earlier
    have looks := orderly.framework undeclared listed drawn
    obtain ⟨base, interfaces⟩ := orderly.sound.map_some_refs earlier
    rw [looks] at base interfaces
    exact ⟨congrArg Portrait.kind looks, base, interfaces⟩
  · exact Option.isSome_of_eq_some (orderly.sound.distinct.lookup?.mpr root)
  · intro d hd kind other
    obtain ⟨id, s, base, named, found, same, target, present⟩ :=
      (based d hd kind other).exists_symbol orderly.sound
    have finished := SymbolTable.symbol?_finish b.table
    exact ⟨id, _, base, named, (finished id).trans (congrArg _ found), same,
      by simp [finished, present]⟩

end Binder

/-- A controller, and a class with a base type that is not known. -/
def ParsedFile.sales : ParsedFile where
  usings := ["Microsoft.AspNetCore.Mvc"]
  tree :=
    { path := "Sales.cs"
      root :=
        { kind := .compilationUnit
          children := [
            { kind := .classDeclaration, span := { startByte := 32, endByte := 60 }
              name := some "Orders"
              children := [
                { kind := .baseList
                  children := [{ kind := .token, name := some "ControllerBase" }] }] },
            { kind := .classDeclaration, span := { startByte := 61, endByte := 80 }
              name := some "Order"
              children := [
                { kind := .baseList
                  children := [{ kind := .token, name := some "Absent" }] }] },
            { kind := .recordDeclaration, span := { startByte := 81, endByte := 90 }
              name := some "Total" }] } }

namespace Binder

theorem bind_framework_sales :
    let t := bind [ParsedFile.sales]
    (∃ id s, t.symbol? id = some s ∧ s.displayName = "Microsoft.AspNetCore.Mvc.ControllerBase" ∧
      s.baseType.map some = some (t.lookup? "System.Object")) ∧
      ∃ id s base, t.lookup? "Total" = some id ∧ t.symbol? id = some s ∧ s.baseType = some base ∧
        (t.symbol? base).isSome := by
  intro t
  obtain ⟨-, listed, -, based⟩ := bind_framework [ParsedFile.sales]
  have entered : (t.symbol? 3).map (·.displayName) =
      some "Microsoft.AspNetCore.Mvc.ControllerBase" := by decide +kernel
  obtain ⟨s, found, name⟩ := Option.map_eq_some_iff.mp entered
  have framework := listed 3 s (Catalog.derived "System.Object") found
    (by rw [name]; decide +kernel) (by rw [name]; decide +kernel)
  refine ⟨⟨3, s, found, name, framework.2.1⟩, ?_⟩
  have third : ((Declaration.ofFiles [ParsedFile.sales])[2]?).map (fun d => (d.display, d.node.kind)) =
      some ("Total", .recordDeclaration) := by decide +kernel
  obtain ⟨d, hd, drawn⟩ := Option.map_eq_some_iff.mp third
  obtain ⟨display, kind⟩ := Prod.mk.inj drawn
  rw [← display]
  exact based d (List.mem_of_getElem? hd) (.inr kind) (by rw [display]; decide)

end Binder
end Antipattern
