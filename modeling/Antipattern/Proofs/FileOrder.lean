import Mathlib.Data.List.FinRange
import Antipattern.Proofs.BoundTable
import Antipattern.Proofs.Renumbering

/-!
The order of the files. What declarations determine does not depend on the order in which they
come, so binding the files in another order gives the same model up to the numbers of symbols and
trees.
-/

namespace Antipattern

namespace Declaration

/-- The declaration in a tree of another number. -/
def renumber (trees : Nat → Nat) (d : Declaration) : Declaration :=
  { d with tree := trees d.tree }

variable {trees : Nat → Nat} {ds ds' : List Declaration}

theorem renumber_fresh (name : String) : (fresh ds name).renumber trees = fresh ds name := by
  rw [fresh]
  split
  · rfl
  · split <;> rfl

/-- Declarations that are the same but for their order and the numbers of the trees. -/
structure Rearranged (trees : Nat → Nat) (ds' ds : List Declaration) : Prop where
  unique : Unique ds
  unique' : Unique ds'
  mem : ∀ d ∈ ds', d.renumber trees ∈ ds
  exists_mem : ∀ d ∈ ds, ∃ d' ∈ ds', d'.renumber trees = d

theorem Unique.of_perm (unique : Unique ds) (perm : (ds'.map (renumber trees)).Perm ds) :
    Unique ds' where
  displays := by
    have names := perm.map (·.display)
    rw [List.map_map] at names
    exact names.nodup_iff.mpr unique.displays
  keys := by
    have keys := (perm.filter isGeneric).map key
    rw [List.filter_map, List.map_map] at keys
    exact keys.nodup_iff.mpr unique.keys

theorem rearranged_of_perm (unique : Unique ds) (perm : (ds'.map (renumber trees)).Perm ds) :
    Rearranged trees ds' ds where
  unique := unique
  unique' := unique.of_perm perm
  mem _ hd := perm.subset (List.mem_map_of_mem hd)
  exists_mem _ hd := List.mem_map.mp (perm.symm.subset hd)

namespace Rearranged

variable (h : Rearranged trees ds' ds)
include h

theorem isDeclared_eq : isDeclared ds' = isDeclared ds := by
  funext name
  rw [Bool.eq_iff_iff, isDeclared_iff, isDeclared_iff]
  constructor
  · rintro ⟨d, hd, rfl⟩
    exact ⟨d.renumber trees, h.mem d hd, rfl⟩
  · rintro ⟨d, hd, rfl⟩
    obtain ⟨d', hd', rfl⟩ := h.exists_mem d hd
    exact ⟨d', hd', rfl⟩

theorem kindOf_eq : kindOf ds' = kindOf ds := by
  funext name
  by_cases declared : isDeclared ds' name
  · obtain ⟨d, hd, rfl⟩ := isDeclared_iff.mp declared
    exact (h.unique'.kindOf hd).trans (h.unique.kindOf (h.mem d hd)).symm
  · have undeclared := h.isDeclared_eq ▸ declared
    rw [kindOf_of_undeclared declared, kindOf_of_undeclared undeclared]

theorem definition?_eq : definition? ds' = definition? ds := by
  funext name
  refine Option.ext fun definition => ⟨fun known => ?_, fun known => ?_⟩
  · obtain ⟨d, hd, generic, rfl, rfl⟩ := declared_of_definition? known
    exact h.unique.definition?_key (d := d.renumber trees) (h.mem d hd) generic
  · obtain ⟨d, hd, generic, rfl, rfl⟩ := declared_of_definition? known
    obtain ⟨d', hd', rfl⟩ := h.exists_mem d hd
    exact h.unique'.definition?_key (d := d') hd' generic

theorem meaning?_eq : meaning? ds' = meaning? ds := by
  have generic : isGenericName ds' = isGenericName ds := by
    funext name
    rw [← definition?_isSome, ← definition?_isSome, h.definition?_eq]
  have known : isKnown ds' = isKnown ds := by
    funext name
    rw [isKnown, isKnown, h.isDeclared_eq]
  funext scope reference
  rw [meaning?, meaning?, known, generic]

theorem fresh_eq : fresh ds' = fresh ds := by
  funext name
  simp only [fresh, h.definition?_eq, h.kindOf_eq]

theorem kindIn_eq : kindIn ds' = kindIn ds := by
  funext name
  rw [kindIn, kindIn, h.isDeclared_eq, h.kindOf_eq, h.fresh_eq]

theorem target_eq : target ds' = target ds := by
  funext scope reference
  rw [target, target, h.meaning?_eq]

theorem attributePortrait_eq : attributePortrait ds' = attributePortrait ds := by
  funext scope n
  simp only [attributePortrait, attributeMeaning?, h.meaning?_eq]

theorem adds_eq : Adds ds' = Adds ds := by
  rw [Adds, Adds, h.isDeclared_eq]

theorem mentioned_iff {name : String} : Mentioned ds' name ↔ Mentioned ds name := by
  have mentions_eq (d : Declaration) : mentions ds' d = mentions ds (d.renumber trees) := by
    rw [mentions, mentions, h.target_eq, h.attributePortrait_eq]
    rfl
  rw [Mentioned, Mentioned, h.adds_eq]
  refine or_congr_left ⟨?_, ?_⟩
  · rintro ⟨d, hd, mentioned⟩
    exact ⟨d.renumber trees, h.mem d hd, mentions_eq d ▸ mentioned⟩
  · rintro ⟨d, hd, mentioned⟩
    obtain ⟨d', hd', rfl⟩ := h.exists_mem d hd
    exact ⟨d', hd', (mentions_eq d').symm ▸ mentioned⟩

theorem linked_renumber (d : Declaration) (p : Portrait) (x : String × Nat) :
    linked ds (d.renumber trees) (p.renumber trees) x = (linked ds' d p x).renumber trees := by
  have node : (d.renumber trees).node = d.node := rfl
  have inner : (d.renumber trees).inner = d.inner := rfl
  simp only [linked, h.target_eq, h.kindIn_eq, node, inner, apply_ite (Portrait.renumber trees),
    Portrait.renumber_withInterface]
  rfl

theorem withBases_renumber (d : Declaration) (p : Portrait) :
    withBases ds (d.renumber trees) (p.renumber trees) = (withBases ds' d p).renumber trees :=
  List.foldl_hom (Portrait.renumber trees) (h.linked_renumber d)

theorem withAttributes_renumber (d : Declaration) (p : Portrait) :
    withAttributes ds (d.renumber trees) (p.renumber trees) =
      (withAttributes ds' d p).renumber trees := by
  rw [withAttributes, withAttributes, h.attributePortrait_eq]
  rfl

theorem withMembers_renumber (d : Declaration) (p : Portrait) :
    withMembers ds (d.renumber trees) (p.renumber trees) =
      (withMembers ds' d p).renumber trees := by
  have node : (d.renumber trees).node = d.node := rfl
  have member : memberPortrait ds (d.renumber trees) =
      fun n => (memberPortrait ds' d n).renumber trees := by
    funext n
    rw [memberPortrait, memberPortrait, h.attributePortrait_eq]
    rfl
  rw [withMembers, withMembers, node, member]
  simp only [Portrait.renumber, List.map_append, List.map_map, Function.comp_def]

theorem portrait_renumber (d : Declaration) :
    (d.renumber trees).portrait ds = (d.portrait ds').renumber trees := by
  have start : ({ kind := .ofNodeKind d.node.kind, declared := [d.place] } : Portrait).renumber
      trees = { kind := .ofNodeKind (d.renumber trees).node.kind,
                declared := [(d.renumber trees).place] } := rfl
  have default (p) : withDefaultBase (d.renumber trees) (p.renumber trees) =
      (withDefaultBase d p).renumber trees := by
    rw [withDefaultBase, withDefaultBase, apply_ite (Portrait.renumber trees)]
    rfl
  rw [Declaration.portrait, Declaration.portrait, ← default, ← h.withMembers_renumber,
    ← h.withAttributes_renumber, ← h.withBases_renumber, start]

end Rearranged

mutual
theorem map_renumber_below (trees : Nat → Nat) (tree : Nat) : (n : SyntaxNode) → (scope : Scope) →
    (below tree n scope).map (renumber trees) = below (trees tree) n scope
  | ⟨_, _, _, _, _, _, children⟩, scope => map_renumber_among trees tree children scope

theorem map_renumber_among (trees : Nat → Nat) (tree : Nat) : (ns : List SyntaxNode) →
    (scope : Scope) → (among tree ns scope).map (renumber trees) = among (trees tree) ns scope
  | [], _ => rfl
  | n :: rest, scope => by
      have here : (at? tree scope n).toList.map (renumber trees) =
          (at? (trees tree) scope n).toList := by
        rw [at?, at?]
        split
        · cases n.identifier? <;> rfl
        · rfl
      rw [among, among, List.map_append, List.map_append, here,
        map_renumber_among trees tree rest]
      cases scope.inside? n with
      | none => rfl
      | some inner => rw [Option.elim_some, Option.elim_some, map_renumber_below trees tree n]
end

theorem ofFiles_ofFn {n : Nat} (file : Fin n → ParsedFile) :
    ofFiles (List.ofFn file) = (List.finRange n).flatMap fun i : Fin n =>
      below i.val (file i).tree.root { usings := (file i).usings } := by
  have indexed : (List.ofFn file).zipIdx = (List.finRange n).map fun i => (file i, i.val) :=
    List.ext_getElem (by simp) (by simp)
  rw [ofFiles, indexed, List.flatMap_map]

/-- Where a permutation takes the number of a tree; numbers without a tree stay. -/
def treeAt {n : Nat} (σ : Equiv.Perm (Fin n)) (tree : Nat) : Nat :=
  if h : tree < n then σ ⟨tree, h⟩ else tree

theorem perm_ofFiles (files : List ParsedFile) (σ : Equiv.Perm (Fin files.length)) :
    ((ofFiles (List.ofFn fun i => files.get (σ i))).map (renumber (treeAt σ))).Perm
      (ofFiles files) := by
  have original := ofFiles_ofFn files.get
  rw [List.ofFn_get] at original
  rw [ofFiles_ofFn, List.map_flatMap, original]
  have moved (i : Fin files.length) : treeAt σ i.val = (σ i).val := dif_pos i.isLt
  simp only [map_renumber_below, moved]
  have perm := σ.map_finRange_perm.flatMap_right fun i =>
    below i.val (files.get i).tree.root { usings := (files.get i).usings }
  rwa [List.flatMap_map] at perm

end Declaration

open Declaration

namespace Binder

theorem Bound.portrait?_eq {trees : Nat → Nat} {ds ds' : List Declaration} {t t' : SymbolTable}
    (bound : Bound ds t) (bound' : Bound ds' t') (h : Rearranged trees ds' ds) (name : String) :
    t.portrait? name = (t'.portrait? name).map (·.renumber trees) := by
  cases declared : isDeclared ds' name with
  | true =>
      obtain ⟨d, hd, rfl⟩ := isDeclared_iff.mp declared
      rw [bound'.declared d hd, Option.map_some, ← h.portrait_renumber]
      exact bound.declared (d.renumber trees) (h.mem d hd)
  | false =>
      have same : t.Has name ↔ t'.Has name := by
        rw [bound.names, bound'.names, h.isDeclared_eq, h.mentioned_iff]
      cases drawn : t'.portrait? name with
      | none =>
          rw [SymbolTable.portrait?_eq_none_iff, ← same] at drawn
          exact SymbolTable.portrait?_eq_none_iff.mpr drawn
      | some p' =>
          obtain ⟨p, drawn'⟩ := Option.isSome_iff_exists.mp
            (SymbolTable.has_iff.mp (same.mpr (SymbolTable.has_of_portrait? drawn)))
          rw [drawn', bound'.others declared drawn, h.fresh_eq,
            bound.others (h.isDeclared_eq ▸ declared) drawn', Option.map_some, renumber_fresh]

/-- Binding files in another order gives the same model, up to the numbers of symbols and trees. -/
theorem bind_perm (files : List ParsedFile) (tidy : ∀ file ∈ files, file.Tidy)
    (single : ((ofFiles files).map (·.display)).Nodup)
    (generic : (((ofFiles files).filter isGeneric).map key).Nodup)
    (σ : Equiv.Perm (Fin files.length)) :
    ∃ ids : Equiv.Perm Nat, ∀ id, (bind files).symbol? (ids id) =
      ((bind (List.ofFn fun i => files.get (σ i))).symbol? id).map (·.renumber ids (treeAt σ)) := by
  have rearranged := rearranged_of_perm ⟨single, generic⟩ (perm_ofFiles files σ)
  have tidy' : ∀ file ∈ List.ofFn fun i => files.get (σ i), file.Tidy := by
    intro file hfile
    obtain ⟨i, rfl⟩ := List.mem_ofFn.mp hfile
    exact tidy _ (List.get_mem files (σ i))
  obtain ⟨t, eq, bound⟩ := bound_bind tidy rearranged.unique
  obtain ⟨t', eq', bound'⟩ := bound_bind tidy' rearranged.unique'
  obtain ⟨ids, renumbered⟩ :=
    bound.sound.exists_renumbering bound'.sound (bound.portrait?_eq bound' rearranged)
  rw [eq, eq']
  exact ⟨ids, SymbolTable.symbol?_finish_renumber ids.injective renumbered⟩

/-- A class with attributes that derives from a generic one and from an interface. -/
def crateFile : ParsedFile where
  tree :=
    { path := "Crate.cs"
      root :=
        { kind := .compilationUnit
          children := [
            { kind := .namespaceDeclaration
              name := some "Shop"
              children := [
                { kind := .classDeclaration
                  name := some "Crate"
                  children := [
                    { kind := .attributeList
                      children := [
                        { kind := .attributeUse, name := some "Stacked" },
                        { kind := .attributeUse, name := some "global::Sorted<int>" }] },
                    { kind := .baseList
                      children := [
                        { kind := .other, name := some "Box<int>" },
                        { kind := .other, name := some "IItem" }] }] }] }] } }

def boxFile : ParsedFile where
  tree :=
    { path := "Box.cs"
      root :=
        { kind := .compilationUnit
          children := [
            { kind := .namespaceDeclaration
              name := some "Shop"
              children := [
                { kind := .interfaceDeclaration
                  name := some "IItem" },
                { kind := .classDeclaration
                  name := some "Box"
                  children := [{ kind := .typeParameterList, name := some "<T>" }] }] }] } }

theorem bind_perm_crateAndBox :
    ∃ ids : Equiv.Perm Nat, ∀ id, (bind [crateFile, boxFile]).symbol? (ids id) =
      ((bind [boxFile, crateFile]).symbol? id).map
        (·.renumber ids (treeAt (Equiv.swap (0 : Fin 2) 1))) :=
  bind_perm [crateFile, boxFile] (by decide +kernel) (by decide +kernel) (by decide +kernel)
    (Equiv.swap (0 : Fin 2) 1)

/-- If a type is found under a name with a colon, the order of the files can matter: a text that
is no more than a placeholder in one order is a class in another. -/
theorem order_of_untidy_files :
    let files := [ParsedFile.colons, .tagged, .derived]
    let files' := [ParsedFile.colons, .derived, .tagged]
    (∀ file ∈ files, file.Clean) ∧ ((ofFiles files).map (·.display)).Nodup ∧
      (((ofFiles files).filter isGeneric).map key).Nodup ∧
      ¬ ∃ ids : Equiv.Perm Nat, ∀ id, (bind files).symbol? (ids id) =
        ((bind files').symbol? id).map (·.renumber ids (treeAt (Equiv.swap (1 : Fin 3) 2))) := by
  intro files files'
  refine ⟨by decide +kernel, by decide +kernel, by decide +kernel, ?_⟩
  rintro ⟨ids, same⟩
  have filled : ((bind files').symbol? 3).map (fun s => (s.displayName, s.kind)) =
      some ("global::x<int>", .classType) := by decide +kernel
  have entered : ((bind files).symbols.toList.filter (·.displayName == "global::x<int>")).map
      (·.kind) = [.unresolved] := by decide +kernel
  obtain ⟨s, found, looks⟩ := Option.map_eq_some_iff.mp filled
  obtain ⟨name, kind⟩ := Prod.mk.inj looks
  have listed := SymbolTable.kind_of_renumber same found
  rw [name, kind, entered] at listed
  cases List.mem_singleton.mp listed

end Binder
end Antipattern
