import Antipattern.Proofs.Declarations
import Antipattern.Proofs.DocumentOrder
import Antipattern.Proofs.TypeReferences

/-!
How files write the names of what they declare. If namespaces, types and usings have clean names,
all scopes are plain. The text of a type parameter list becomes part of a type's name, though, and
where it does not start with `<` it also becomes part of the name that references look for. Tidy
files have no colon there, so that all their types are found under clean names. How attributes and
references are written does not matter.
-/

namespace Antipattern

/-- Namespaces and types of the subtree have clean names. -/
def SyntaxNode.Clean (n : SyntaxNode) : Prop :=
  ∀ m ∈ n.preorder, m.kind = .namespaceDeclaration ∨ m.kind.isTypeDeclaration →
    ∀ name ∈ m.identifier?, CleanName name

instance (n : SyntaxNode) : Decidable n.Clean :=
  inferInstanceAs (Decidable (∀ m ∈ n.preorder,
    m.kind = .namespaceDeclaration ∨ m.kind.isTypeDeclaration → ∀ name ∈ m.identifier?,
      CleanName name))

def ParsedFile.Clean (file : ParsedFile) : Prop :=
  file.tree.root.Clean ∧ ∀ u ∈ file.usings, CleanName u

instance (file : ParsedFile) : Decidable file.Clean :=
  inferInstanceAs (Decidable (file.tree.root.Clean ∧ ∀ u ∈ file.usings, CleanName u))

/-- Type parameter lists of the subtree have no colon before their first `<`. -/
def SyntaxNode.Tidy (n : SyntaxNode) : Prop :=
  ∀ m ∈ n.preorder, m.kind.isTypeDeclaration → ':' ∉ (withoutTypeArgs m.typeParameters).toList

instance (n : SyntaxNode) : Decidable n.Tidy :=
  inferInstanceAs (Decidable (∀ m ∈ n.preorder, m.kind.isTypeDeclaration →
    ':' ∉ (withoutTypeArgs m.typeParameters).toList))

def ParsedFile.Tidy (file : ParsedFile) : Prop :=
  file.Clean ∧ file.tree.root.Tidy

instance (file : ParsedFile) : Decidable file.Tidy :=
  inferInstanceAs (Decidable (file.Clean ∧ file.tree.root.Tidy))

namespace ParsedFile

def ofClass (name : String) (children : List SyntaxNode) : ParsedFile where
  tree :=
    { path := name ++ ".cs"
      root :=
        { kind := .compilationUnit
          children := [{ kind := .classDeclaration, name := some name, children }] } }

/-- A class that is found under the name `global::x`. -/
def colons : ParsedFile :=
  .ofClass "global" [{ kind := .typeParameterList, name := some "::x<T>" }]

def tagged : ParsedFile :=
  .ofClass "Tagged" [
    { kind := .attributeList
      children := [{ kind := .attributeUse, name := some "global::x<int>" }] }]

def derived : ParsedFile :=
  .ofClass "Derived" [
    { kind := .baseList
      children := [{ kind := .other, name := some "global::global::x<int>" }] }]

example : colons.Clean ∧ ¬ colons.Tidy ∧ tagged.Tidy ∧ derived.Tidy := by decide +kernel

end ParsedFile

namespace SyntaxNode

variable {n c : SyntaxNode} {name : String}

theorem Clean.ofNamespace (h : n.Clean) (isNamespace : n.kind = .namespaceDeclaration)
    (named : n.identifier? = some name) : CleanName name :=
  h n n.mem_preorder_self (.inl isNamespace) name named

theorem Clean.ofType (h : n.Clean) (isType : n.kind.isTypeDeclaration)
    (named : n.identifier? = some name) : CleanName name :=
  h n n.mem_preorder_self (.inr isType) name named

theorem Clean.child (h : n.Clean) (hc : c ∈ n.children) : c.Clean :=
  fun m hm => h m (mem_preorder_of_child hc hm)

theorem Tidy.child (h : n.Tidy) (hc : c ∈ n.children) : c.Tidy :=
  fun m hm => h m (mem_preorder_of_child hc hm)

theorem withoutBlanks_typeParameters (n : SyntaxNode) :
    ∀ c ∈ n.typeParameters.toList, Text.isBlank c = false := by
  intro c hc
  rw [typeParameters] at hc
  split at hc
  · rw [Text.toList_withoutBlanks, Text.removeBlanks, List.mem_filter] at hc
    simpa using hc.2
  · simp at hc

theorem Tidy.clean_typeParameters (h : n.Tidy) (isType : n.kind.isTypeDeclaration) :
    CleanName (withoutTypeArgs n.typeParameters) := by
  intro c hc
  refine ⟨?_, ?_, ?_⟩
  · rw [withoutTypeArgs, String.toList_ofList] at hc
    exact n.withoutBlanks_typeParameters c ((List.takeWhile_sublist _).subset hc)
  · rintro rfl
    exact plain_withoutTypeArgs _ hc
  · rintro rfl
    exact h n n.mem_preorder_self isType hc

end SyntaxNode

theorem PlainName.qualify {container name : String} (hc : PlainName container)
    (hn : PlainName name) : PlainName (qualify container name) := by
  rw [Antipattern.qualify]
  split
  · exact hn
  · exact (hc.append (by decide)).append hn

theorem CleanName.append {a b : String} (ha : CleanName a) (hb : CleanName b) :
    CleanName (a ++ b) := by
  intro c hc
  rw [String.toList_append, List.mem_append] at hc
  exact hc.elim (ha c) (hb c)

theorem CleanName.qualify {container name : String} (hc : CleanName container)
    (hn : CleanName name) : CleanName (qualify container name) := by
  rw [Antipattern.qualify]
  split
  · exact hn
  · exact (hc.append (by decide)).append hn

theorem CleanName.withParameters {name parameters : String} (hn : CleanName name)
    (hp : CleanName (withoutTypeArgs parameters)) :
    CleanName (withoutTypeArgs (name ++ parameters)) := by
  have whole := hn.append hp
  have split : name ++ parameters =
      name ++ withoutTypeArgs parameters ++ typeArgs parameters := by
    rw [String.append_assoc, withoutTypeArgs_append_typeArgs]
  rw [split, withoutTypeArgs_append whole.plain (areTypeArgs_typeArgs parameters)]
  exact whole

namespace Scope

variable {scope inner : Scope} {n : SyntaxNode}

theorem Plain.inside (plain : scope.Plain) (clean : n.Clean) (h : scope.inside? n = some inner) :
    inner.Plain := by
  rw [inside?] at h
  split at h
  · next isNamespace =>
      obtain ⟨name, named, rfl⟩ := Option.map_eq_some_iff.mp h
      have qualified := plain.1.qualify (clean.ofNamespace isNamespace named).plain
      dsimp only
      split <;> exact ⟨qualified, plain.2⟩
  · split at h
    · obtain ⟨name, -, rfl⟩ := Option.map_eq_some_iff.mp h
      exact plain
    · split at h
      · simp at h
      · exact Option.some.inj h ▸ plain

theorem Plain.behind (plain : scope.Plain) (clean : n.Clean) : (scope.behind n).Plain := by
  rw [Scope.behind]
  split
  · next fileScoped =>
      cases named : n.identifier? with
      | none => exact plain
      | some name =>
          exact ⟨plain.1.qualify (clean.ofNamespace fileScoped.1 named).plain, plain.2⟩
  · exact plain

/-- What types declared in the scope are qualified with is clean. -/
structure Clean (scope : Scope) : Prop where
  namespaceName : CleanName scope.namespaceName
  enclosing : ∀ e ∈ scope.enclosing, CleanName (withoutTypeArgs e)

/-- The name, up to its type parameters, of a type that is declared in a clean scope. -/
theorem Clean.withoutTypeArgs_displayNameIn (h : scope.Clean) (clean : n.Clean) (tidy : n.Tidy)
    (isType : n.kind.isTypeDeclaration) {name : String} (named : n.identifier? = some name) :
    CleanName (withoutTypeArgs (Binder.displayNameIn scope name n)) := by
  rw [Binder.displayNameIn]
  refine CleanName.withParameters (CleanName.qualify ?_ (clean.ofType isType named))
    (tidy.clean_typeParameters isType)
  split
  · next e last => exact h.enclosing e (List.mem_of_getLast? last)
  · exact h.namespaceName

theorem Clean.inside (h : scope.Clean) (clean : n.Clean) (tidy : n.Tidy)
    (eq : scope.inside? n = some inner) : inner.Clean := by
  rw [inside?] at eq
  split at eq
  · next isNamespace =>
      obtain ⟨name, named, rfl⟩ := Option.map_eq_some_iff.mp eq
      have qualified := h.namespaceName.qualify (clean.ofNamespace isNamespace named)
      dsimp only
      split
      · exact ⟨qualified, h.enclosing⟩
      · exact ⟨qualified, by simp⟩
  · split at eq
    · next isType =>
        obtain ⟨name, named, rfl⟩ := Option.map_eq_some_iff.mp eq
        refine ⟨h.namespaceName, fun e he => ?_⟩
        rcases List.mem_append.mp he with outer | own
        · exact h.enclosing e outer
        · rw [List.mem_singleton.mp own]
          exact h.withoutTypeArgs_displayNameIn clean tidy isType named
    · split at eq
      · simp at eq
      · exact Option.some.inj eq ▸ h

theorem Clean.behind (h : scope.Clean) (clean : n.Clean) : (scope.behind n).Clean := by
  rw [Scope.behind]
  split
  · next fileScoped =>
      cases named : n.identifier? with
      | none => exact h
      | some name =>
          exact ⟨h.namespaceName.qualify (clean.ofNamespace fileScoped.1 named), h.enclosing⟩
  · exact h

/-- What holds of a scope and a node and carries over to all that stands inside and behind. -/
structure Hereditary (P : Scope → Prop) (Q : SyntaxNode → Prop) : Prop where
  child : ∀ {n c}, Q n → c ∈ n.children → Q c
  inside : ∀ {scope inner n}, P scope → Q n → scope.inside? n = some inner → P inner
  behind : ∀ {scope n}, P scope → Q n → P (scope.behind n)

theorem hereditary_plain : Hereditary Plain SyntaxNode.Clean where
  child := .child
  inside := .inside
  behind := .behind

theorem hereditary_clean : Hereditary Clean fun n => n.Clean ∧ n.Tidy where
  child h hc := ⟨h.1.child hc, h.2.child hc⟩
  inside clean h := clean.inside h.1 h.2
  behind clean h := clean.behind h.1

end Scope

namespace Declaration

mutual
theorem hereditary_of_mem_below {P : Scope → Prop} {Q : SyntaxNode → Prop}
    (h : Scope.Hereditary P Q) (tree : Nat) : (n : SyntaxNode) → (scope : Scope) → Q n →
    P scope → ∀ d ∈ below tree n scope, at? tree d.scope d.node = some d ∧ P d.scope ∧ Q d.node
  | ⟨_, _, _, _, _, _, children⟩, scope, node, holds =>
      hereditary_of_mem_among h tree children scope (fun _ hn => h.child node hn) holds

theorem hereditary_of_mem_among {P : Scope → Prop} {Q : SyntaxNode → Prop}
    (h : Scope.Hereditary P Q) (tree : Nat) : (ns : List SyntaxNode) → (scope : Scope) →
    (∀ n ∈ ns, Q n) → P scope →
    ∀ d ∈ among tree ns scope, at? tree d.scope d.node = some d ∧ P d.scope ∧ Q d.node
  | [], _, _, _ => by simp [among]
  | n :: rest, scope, nodes, holds => by
      intro d hd
      rw [List.forall_mem_cons] at nodes
      rw [among, List.mem_append, List.mem_append, Option.mem_toList] at hd
      rcases hd with here | inside | behind
      · obtain ⟨-, name, -, rfl⟩ := at?_eq_some here
        exact ⟨here, holds, nodes.1⟩
      · cases inner : scope.inside? n with
        | none => simp [inner] at inside
        | some scope' =>
            rw [inner] at inside
            exact hereditary_of_mem_below h tree n scope' nodes.1
              (h.inside holds nodes.1 inner) d inside
      · exact hereditary_of_mem_among h tree rest _ nodes.2 (h.behind holds nodes.1) d behind
end

variable {files : List ParsedFile} {d : Declaration}

/-- What holds of the files' roots and their scopes holds where a type is declared. -/
theorem hereditary_of_mem_ofFiles {P : Scope → Prop} {Q : SyntaxNode → Prop}
    (h : Scope.Hereditary P Q)
    (start : ∀ file ∈ files, P { usings := file.usings } ∧ Q file.tree.root)
    (hd : d ∈ ofFiles files) : at? d.tree d.scope d.node = some d ∧ P d.scope ∧ Q d.node := by
  obtain ⟨⟨file, index⟩, hfile, hd⟩ := List.mem_flatMap.mp hd
  obtain ⟨scope, root⟩ := start file (List.fst_mem_of_mem_zipIdx hfile)
  obtain ⟨here, holds⟩ := hereditary_of_mem_below h index file.tree.root _ root scope d hd
  obtain ⟨-, name, -, same⟩ := at?_eq_some here
  exact ⟨(congrArg Declaration.tree same).symm ▸ here, holds⟩

theorem clean_of_mem_ofFiles (clean : ∀ file ∈ files, file.Clean) (hd : d ∈ ofFiles files) :
    at? d.tree d.scope d.node = some d ∧ d.scope.Plain ∧ d.node.Clean := by
  have start (file) (hfile : file ∈ files) : Scope.Plain { usings := file.usings } :=
    ⟨List.not_mem_nil, fun u hu => ((clean file hfile).2 u hu).plain⟩
  exact hereditary_of_mem_ofFiles Scope.hereditary_plain
    (fun file hfile => ⟨start file hfile, (clean file hfile).1⟩) hd

/-- All declarations are found under clean names. -/
def CleanKeys (ds : List Declaration) : Prop :=
  ∀ d ∈ ds, CleanName d.key

theorem cleanKeys_ofFiles (tidy : ∀ file ∈ files, file.Tidy) : CleanKeys (ofFiles files) := by
  have start (usings : List String) : Scope.Clean { usings } :=
    ⟨by simp [CleanName], by simp⟩
  intro d hd
  obtain ⟨declared, scope, clean, tidy⟩ := hereditary_of_mem_ofFiles Scope.hereditary_clean
    (fun file hfile => ⟨start file.usings, (tidy file hfile).1.1, (tidy file hfile).2⟩) hd
  obtain ⟨isType, name, named, same⟩ := at?_eq_some declared
  rw [key, congrArg Declaration.display same]
  exact scope.withoutTypeArgs_displayNameIn clean tidy isType named

end Declaration
end Antipattern
