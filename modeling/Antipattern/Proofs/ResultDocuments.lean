import Antipattern.Proofs.JsonFields
import Antipattern.Report.Encoding

/-!
Results as documents. Reading what was written gives the result back; and a document may leave out
an optional field that is empty, or write it out, at any depth: both read as the same result.
-/

namespace Antipattern

namespace Json

/-- The fields that may be left out, each with the value that stands for its absence. -/
def optionalFields : List (String × Json) :=
  [("additional_locations", arr []), ("file", null), ("suppressed", arr []), ("faults", arr []),
    ("cancelled", bool false)]

/-- The second document is the first with some of the optional fields written out that are absent
there, at any depth. -/
inductive Fills : Json → Json → Prop
  | same (j : Json) : Fills j j
  | item {a b : Json} (before after : List Json) (h : Fills a b) :
      Fills (arr (before ++ a :: after)) (arr (before ++ b :: after))
  | field {a b : Json} (name : String) (before after : List (String × Json)) (h : Fills a b) :
      Fills (obj (before ++ (name, a) :: after)) (obj (before ++ (name, b) :: after))
  | absent {name : String} {value : Json} (before after : List (String × Json))
      (optional : (name, value) ∈ optionalFields) (fresh : ∀ x ∈ before ++ after, x.1 ≠ name) :
      Fills (obj (before ++ after)) (obj (before ++ (name, value) :: after))
  | trans {a b c : Json} (first : Fills a b) (second : Fills b c) : Fills a c

/-- What stands under one name in two such documents. -/
inductive FieldFills (name : String) : Option Json → Option Json → Prop
  | neither : FieldFills name none none
  | written {value b : Json} (optional : (name, value) ∈ optionalFields) (h : Fills value b) :
      FieldFills name none (some b)
  | both {a b : Json} (h : Fills a b) : FieldFills name (some a) (some b)

namespace FieldFills

variable {name : String} {o p q : Option Json}

theorem refl (o : Option Json) : FieldFills name o o := by
  cases o with
  | none => exact .neither
  | some a => exact .both (.same a)

theorem trans (first : FieldFills name o p) (second : FieldFills name p q) :
    FieldFills name o q := by
  cases first with
  | neither => exact second
  | written optional h =>
      cases second with
      | both h' => exact .written optional (h.trans h')
  | both h =>
      cases second with
      | both h' => exact .both (h.trans h')

/-- What reads a field alike in both documents, and an absent field like the value that stands for
it, reads the same. -/
theorem read_eq {β : Type} (h : FieldFills name o p) (read : Option Json → β)
    (alike : ∀ {a b}, Fills a b → read (some a) = read (some b))
    (default : ∀ value, (name, value) ∈ optionalFields → read none = read (some value)) :
    read o = read p := by
  cases h with
  | neither => rfl
  | written optional h => exact (default _ optional).trans (alike h)
  | both h => exact alike h

end FieldFills

theorem field?_of_fresh {name : String} {fields : List (String × Json)}
    (fresh : ∀ x ∈ fields, x.1 ≠ name) : (obj fields).field? name = none := by
  induction fields with
  | nil => rfl
  | cons x fields ih =>
      obtain ⟨own, others⟩ := List.forall_mem_cons.mp fresh
      rw [field?_cons, if_neg own.symm, ih others]

namespace Fills

variable {α : Type} {j k : Json}

/-- Only lists and objects can differ. -/
theorem shape (h : Fills j k) :
    j = k ∨ (∃ xs ys, j = arr xs ∧ k = arr ys) ∨ ∃ xs ys, j = obj xs ∧ k = obj ys := by
  induction h with
  | same j => exact .inl rfl
  | item before after h => exact .inr (.inl ⟨_, _, rfl, rfl⟩)
  | field name before after h => exact .inr (.inr ⟨_, _, rfl, rfl⟩)
  | absent before after optional fresh => exact .inr (.inr ⟨_, _, rfl, rfl⟩)
  | trans first second ih ih' =>
      rcases ih with rfl | ⟨xs, ys, rfl, rfl⟩ | ⟨xs, ys, rfl, rfl⟩
      · exact ih'
      · rcases ih' with rfl | ⟨_, zs, -, rfl⟩ | ⟨_, _, other, -⟩
        · exact .inr (.inl ⟨xs, ys, rfl, rfl⟩)
        · exact .inr (.inl ⟨xs, zs, rfl, rfl⟩)
        · cases other
      · rcases ih' with rfl | ⟨_, _, other, -⟩ | ⟨_, zs, -, rfl⟩
        · exact .inr (.inr ⟨xs, ys, rfl, rfl⟩)
        · cases other
        · exact .inr (.inr ⟨xs, zs, rfl, rfl⟩)

theorem asString?_eq (h : Fills j k) : j.asString? = k.asString? := by
  rcases h.shape with rfl | ⟨xs, ys, rfl, rfl⟩ | ⟨xs, ys, rfl, rfl⟩ <;> rfl

theorem asNat?_eq (h : Fills j k) : j.asNat? = k.asNat? := by
  rcases h.shape with rfl | ⟨xs, ys, rfl, rfl⟩ | ⟨xs, ys, rfl, rfl⟩ <;> rfl

theorem eq_of_scalar (h : Fills j k) (noList : ∀ items, j ≠ arr items)
    (noObject : ∀ fields, j ≠ obj fields) : j = k := by
  rcases h.shape with same | ⟨xs, ys, list, -⟩ | ⟨xs, ys, object, -⟩
  · exact same
  · exact absurd list (noList xs)
  · exact absurd object (noObject xs)

theorem field? (h : Fills j k) (name : String) :
    FieldFills name (j.field? name) (k.field? name) := by
  induction h with
  | same j => exact .refl _
  | item before after h => exact .neither
  | @field a b other before after h ih =>
      simp only [field?_append, field?_cons]
      cases (obj before).field? name with
      | some found => exact .refl _
      | none =>
          simp only [Option.none_or]
          split
          · exact .both h
          · exact .refl _
  | @absent other value before after optional fresh =>
      obtain ⟨front, back⟩ := List.forall_mem_append.mp fresh
      simp only [field?_append, field?_cons]
      split
      · next same =>
          rw [same, field?_of_fresh front, field?_of_fresh back]
          exact .written optional (.same value)
      · exact .refl _
  | trans first second ih ih' => exact ih.trans ih'

/-- A field that reads alike in both documents, where its absence is no value. -/
theorem bind_field? (h : Fills j k) (name : String) {read : Json → Option α}
    (alike : ∀ {a b}, Fills a b → read a = read b)
    (default : ∀ value, (name, value) ∈ optionalFields → read value = none) :
    (j.field? name).bind read = (k.field? name).bind read := by
  apply (h.field? name).read_eq fun o => o.bind read
  · exact alike
  · intro value optional
    exact (default value optional).symm

/-- No text and no number stands for an absent field. -/
theorem asString?_optional {name : String} (value : Json)
    (optional : (name, value) ∈ optionalFields) : value.asString? = none ∧ value.asNat? = none := by
  simp only [optionalFields, List.mem_cons, Prod.mk.injEq, List.not_mem_nil, or_false] at optional
  rcases optional with ⟨-, rfl⟩ | ⟨-, rfl⟩ | ⟨-, rfl⟩ | ⟨-, rfl⟩ | ⟨-, rfl⟩ <;> exact ⟨rfl, rfl⟩

theorem text?_eq (h : Fills j k) (name : String) :
    (j.field? name).bind asString? = (k.field? name).bind asString? :=
  h.bind_field? name asString?_eq fun value optional => (asString?_optional value optional).1

theorem number?_eq (h : Fills j k) (name : String) :
    (j.field? name).bind asNat? = (k.field? name).bind asNat? :=
  h.bind_field? name asNat?_eq fun value optional => (asString?_optional value optional).2

theorem listOf?_eq (h : Fills j k) {read : Json → Option α}
    (alike : ∀ {a b}, Fills a b → read a = read b) :
    j.asList?.bind (listOf? read) = k.asList?.bind (listOf? read) := by
  induction h with
  | same j => rfl
  | @item a b before after h ih =>
      show listOf? read (before ++ a :: after) = listOf? read (before ++ b :: after)
      induction before with
      | nil => simp only [List.nil_append, listOf?, alike h]
      | cons x before ih => simp only [List.cons_append, listOf?, ih]
  | field name before after h ih => rfl
  | absent before after optional fresh => rfl
  | trans first second ih ih' => exact ih.trans ih'

theorem optionalList?_eq (h : Fills j k) {name : String} {read : Json → Option α}
    (alike : ∀ {a b}, Fills a b → read a = read b)
    (default : ∀ value, (name, value) ∈ optionalFields → value = arr []) :
    optionalList? read (j.field? name) = optionalList? read (k.field? name) := by
  apply (h.field? name).read_eq (optionalList? read)
  · intro a b h
    exact h.listOf?_eq alike
  · intro value optional
    rw [default value optional]
    rfl

end Fills
end Json

section

variable {j k : Json} (h : Json.Fills j k)
include h

theorem Location.ofJson?_fills : ofJson? j = ofJson? k := by
  simp only [ofJson?, Option.bind_eq_bind, ← Option.bind_assoc, h.text?_eq, h.number?_eq]

theorem Finding.ofJson?_fills : ofJson? j = ofJson? k := by
  have arguments : ((j.field? "arguments").bind Json.asList?).bind (Json.listOf? Json.asString?) =
      ((k.field? "arguments").bind Json.asList?).bind (Json.listOf? Json.asString?) := by
    rw [Option.bind_assoc, Option.bind_assoc]
    exact h.bind_field? _ (fun h => h.listOf?_eq Json.Fills.asString?_eq)
      (by simp [Json.optionalFields])
  have location : (j.field? "location").bind Location.ofJson? =
      (k.field? "location").bind Location.ofJson? :=
    h.bind_field? _ (fun h => Location.ofJson?_fills h) (by simp [Json.optionalFields])
  have additional : Json.optionalList? Location.ofJson? (j.field? "additional_locations") =
      Json.optionalList? Location.ofJson? (k.field? "additional_locations") :=
    h.optionalList?_eq (fun h => Location.ofJson?_fills h) (by simp [Json.optionalFields])
  simp only [ofJson?, Option.bind_eq_bind, ← Option.bind_assoc, h.text?_eq, arguments, location,
    additional]

theorem Fault.ofJson?_fills : ofJson? j = ofJson? k := by
  have file := h.field? "file"
  simp only [ofJson?, Option.bind_eq_bind, ← Option.bind_assoc, h.text?_eq]
  generalize j.field? "file" = o at file ⊢
  generalize k.field? "file" = p at file ⊢
  cases file with
  | neither => rfl
  | written optional filled =>
      obtain rfl : _ = Json.null := by simpa [Json.optionalFields] using optional
      rw [← filled.eq_of_scalar nofun nofun]
  | both alike =>
      rcases alike.shape with rfl | ⟨xs, ys, rfl, rfl⟩ | ⟨xs, ys, rfl, rfl⟩ <;> rfl

theorem SuppressedFinding.ofJson?_fills : ofJson? j = ofJson? k := by
  have finding : (j.field? "finding").bind Finding.ofJson? =
      (k.field? "finding").bind Finding.ofJson? :=
    h.bind_field? _ (fun h => Finding.ofJson?_fills h) (by simp [Json.optionalFields])
  simp only [ofJson?, Option.bind_eq_bind, ← Option.bind_assoc, h.number?_eq, finding]

theorem AnalysisResult.ofJson?_fills : ofJson? j = ofJson? k := by
  have findings : ((j.field? "findings").bind Json.asList?).bind (Json.listOf? Finding.ofJson?) =
      ((k.field? "findings").bind Json.asList?).bind (Json.listOf? Finding.ofJson?) := by
    rw [Option.bind_assoc, Option.bind_assoc]
    exact h.bind_field? _ (fun h => h.listOf?_eq fun h => Finding.ofJson?_fills h)
      (by simp [Json.optionalFields])
  have suppressed : Json.optionalList? SuppressedFinding.ofJson? (j.field? "suppressed") =
      Json.optionalList? SuppressedFinding.ofJson? (k.field? "suppressed") :=
    h.optionalList?_eq (fun h => SuppressedFinding.ofJson?_fills h) (by simp [Json.optionalFields])
  have faults : Json.optionalList? Fault.ofJson? (j.field? "faults") =
      Json.optionalList? Fault.ofJson? (k.field? "faults") :=
    h.optionalList?_eq (fun h => Fault.ofJson?_fills h) (by simp [Json.optionalFields])
  have cancelled := h.field? "cancelled"
  simp only [ofJson?, Option.bind_eq_bind, ← Option.bind_assoc, h.number?_eq, findings, suppressed,
    faults]
  generalize j.field? "cancelled" = o at cancelled ⊢
  generalize k.field? "cancelled" = p at cancelled ⊢
  cases cancelled with
  | neither => rfl
  | written optional filled =>
      obtain rfl : _ = Json.bool false := by simpa [Json.optionalFields] using optional
      rw [← filled.eq_of_scalar nofun nofun]
      rfl
  | both alike =>
      rcases alike.shape with rfl | ⟨xs, ys, rfl, rfl⟩ | ⟨xs, ys, rfl, rfl⟩ <;> rfl

end

theorem Json.listOf?_map {α : Type} (read : Json → Option α) (write : α → Json)
    (back : ∀ a, read (write a) = some a) (items : List α) :
    listOf? read (items.map write) = some items := by
  induction items with
  | nil => rfl
  | cons a items ih =>
      simp only [List.map_cons, listOf?, back, ih, Option.bind_some, Option.map_some]

theorem Location.ofJson?_toJson (l : Location) : ofJson? l.toJson = some l := by
  cases l with
  | none => rfl
  | source file line column startByte endByte => simp [toJson, ofJson?, Json.asString?, Json.asNat?]

theorem Finding.field?_additional (f : Finding) :
    f.toJson.field? "additional_locations" =
      if f.additionalLocations = [] then none
      else some (.arr (f.additionalLocations.map Location.toJson)) := by
  by_cases none : f.additionalLocations = [] <;> simp [toJson, none]

theorem Finding.ofJson?_toJson (f : Finding) : ofJson? f.toJson = some f := by
  have arguments := Json.listOf?_map Json.asString? .str (fun _ => rfl) f.arguments
  have additional := Json.listOf?_map _ _ Location.ofJson?_toJson f.additionalLocations
  have written : Json.optionalList? Location.ofJson? (f.toJson.field? "additional_locations") =
      some f.additionalLocations := by
    rw [field?_additional]
    split
    · next none => rw [none, Json.optionalList?]
    · exact additional
  simp only [ofJson?, written]
  simp [toJson, Json.asString?, Json.asList?, Json.strings, arguments, Location.ofJson?_toJson]

theorem Fault.ofJson?_toJson (f : Fault) : ofJson? f.toJson = some f := by
  obtain ⟨ruleId, file, message⟩ := f
  cases file <;> simp [toJson, ofJson?, Json.asString?]

theorem SuppressedFinding.ofJson?_toJson (s : SuppressedFinding) : ofJson? s.toJson = some s := by
  simp [toJson, ofJson?, Json.asNat?, Finding.ofJson?_toJson]

theorem AnalysisResult.ofJson?_toJson (r : AnalysisResult) : ofJson? r.toJson = some r := by
  have findings := Json.listOf?_map _ _ Finding.ofJson?_toJson r.findings
  have suppressed := Json.listOf?_map _ _ SuppressedFinding.ofJson?_toJson r.suppressed
  have faults := Json.listOf?_map _ _ Fault.ofJson?_toJson r.faults
  simp [toJson, ofJson?, Json.optionalList?, Json.asList?, Json.asNat?, Json.asBool?, findings,
    suppressed, faults]

theorem Severity.lowercase_text (s : Severity) : s.text.toList.all Char.isLower = true := by
  cases s <;> decide

/-- A finding in a document: a word in lower case for its severity, the kind of its location, and
further locations only if there are any. -/
structure Finding.Written (f : Finding) (j : Json) : Prop where
  severity : ∃ word, j.at? ["severity"] = some (.str word) ∧ word.toList.all Char.isLower = true ∧
    Severity.ofText? word = some f.severity
  kind : j.at? ["location", "kind"] =
    some (.str (if f.location = .none then "none" else "source"))
  additional : (j.field? "additional_locations").isSome = true ↔ f.additionalLocations ≠ []

theorem Finding.written_toJson (f : Finding) : f.Written f.toJson where
  severity := ⟨f.severity.text, by simp [toJson], f.severity.lowercase_text, by simp⟩
  kind := by cases location : f.location <;> simp [toJson, Json.at?_cons, location, Location.toJson]
  additional := by
    rw [field?_additional]
    split
    · next none => simp [none]
    · next some => simp [some]

theorem Fault.file_toJson (f : Fault) :
    (f.toJson.field? "file").isSome = true ↔ f.file ≠ none := by
  cases file : f.file <;> simp [toJson, file]

/-- A result is read back from its document, and from every document that differs in which of the
optional fields that are empty it writes out. -/
theorem AnalysisResult.documents_read_back (r : AnalysisResult) :
    ofJson? r.toJson = some r ∧
    (∀ j k, Json.Fills j k → ofJson? j = ofJson? k) ∧
    (∀ f : Finding, f.Written f.toJson) ∧
    ∀ f : Fault, (f.toJson.field? "file").isSome = true ↔ f.file ≠ none :=
  ⟨r.ofJson?_toJson, fun _ _ h => ofJson?_fills h, Finding.written_toJson, Fault.file_toJson⟩

/-- A document that leaves out what is empty at the top, and one that also writes out what is empty
in its finding and in its fault. -/
theorem AnalysisResult.short_document_read_back :
    let result : AnalysisResult :=
      { findings := [⟨"AP_4", .warning, "many lines", [], .none, []⟩]
        faults := [{ ruleId := "AP_1", file := none, message := "stopped" }], filesAnalyzed := 2 }
    let finding : List (String × Json) :=
      [("rule_id", .str "AP_4"), ("severity", .str "warning"), ("message", .str "many lines"),
       ("arguments", .arr []), ("location", .obj [("kind", .str "none")])]
    let fault : List (String × Json) := [("rule_id", .str "AP_1"), ("message", .str "stopped")]
    let short : Json := .obj [("findings", .arr [.obj finding]), ("faults", .arr [.obj fault]),
      ("files_analyzed", .num 2)]
    let wholeFinding := finding ++ [("additional_locations", .arr [])]
    let wholeFault := [("rule_id", .str "AP_1"), ("file", .null), ("message", .str "stopped")]
    let long : Json := .obj [("findings", .arr [.obj wholeFinding]), ("suppressed", .arr []),
      ("faults", .arr [.obj wholeFault]), ("files_analyzed", .num 2), ("cancelled", .bool false)]
    Json.Fills short result.toJson ∧ Json.Fills result.toJson long ∧
      ofJson? short = some result ∧ ofJson? long = some result := by
  intro result finding fault short wholeFinding wholeFault long
  have top : Json.Fills short result.toJson :=
    .trans
      (.absent [("findings", .arr [.obj finding])]
        [("faults", .arr [.obj fault]), ("files_analyzed", .num 2)]
        (by simp [Json.optionalFields]) (by simp))
      (.absent [("findings", .arr [.obj finding]), ("suppressed", .arr []),
        ("faults", .arr [.obj fault]), ("files_analyzed", .num 2)] []
        (by simp [Json.optionalFields, result]) (by simp))
  have inFinding : Json.Fills (.obj finding) (.obj wholeFinding) :=
    .absent finding [] (by simp [Json.optionalFields]) (by simp [finding])
  have inFault : Json.Fills (.obj fault) (.obj wholeFault) :=
    .absent [("rule_id", .str "AP_1")] [("message", .str "stopped")]
      (by simp [Json.optionalFields]) (by simp)
  have inside : Json.Fills result.toJson long :=
    .trans
      (.field "findings" []
        [("suppressed", .arr []), ("faults", .arr [.obj fault]), ("files_analyzed", .num 2),
          ("cancelled", .bool false)]
        (.item [] [] inFinding))
      (.field "faults" [("findings", .arr [.obj wholeFinding]), ("suppressed", .arr [])]
        [("files_analyzed", .num 2), ("cancelled", .bool false)]
        (.item [] [] inFault))
  obtain ⟨back, alike, -⟩ := documents_read_back result
  refine ⟨top, inside, ?_, ?_⟩
  · rw [alike short result.toJson top, back]
  · rw [← alike result.toJson long inside, back]

end Antipattern
