import CodeAtlas.Dump.Graph
import CodeAtlas.Proofs.Json.Roundtrip
import Mathlib.Data.List.Forall2

/-!
# Other spellings of a dump

An object may have its fields in any order, and an id may be written as a number or as the string of its
digits. `Graph.parse_respelled`: dumps that differ in nothing else are one graph, or are refused alike.
-/

namespace CodeAtlas

open Json (Fields)

namespace Decode

/-- Two spellings of an id: equal ones, or an unsigned 64-bit number and the string of its digits. -/
inductive SameId : Json → Json → Prop where
  | refl (value : Json) : SameId value value
  | digits {n : Nat} (small : n < UInt64.size) : SameId (.natural n) (.string (toString n))
  | number {n : Nat} (small : n < UInt64.size) : SameId (.string (toString n)) (.natural n)

def idNames : List String :=
  ["id", "outV", "inV", "document"]

inductive Respells : String × Json → String × Json → Prop where
  | refl (field : String × Json) : Respells field field
  | id {name : String} {first second : Json} (named : name ∈ idNames) (same : SameId first second) :
      Respells (name, first) (name, second)
  | ids {first second : List Json} (same : List.Forall₂ SameId first second) :
      Respells ("inVs", .array first) ("inVs", .array second)

/-- Two spellings of an object: the fields may stand in another order, and ids may be spelled in another
way. -/
def Respelled (first second : Fields) : Prop :=
  ∃ reordered, first.Perm reordered ∧ List.Forall₂ Respells reordered second

/-! ### Single fields -/

theorem SameId.id?_eq {first second : Json} (same : SameId first second) : id? first = id? second := by
  cases same <;> rfl

theorem ids?_eq {first second : List Json} (same : List.Forall₂ SameId first second) :
    ids? (.array first) = ids? (.array second) := by
  induction same with
  | nil => rfl
  | cons here _ ih =>
    simp only [ids?, List.mapM_cons] at ih ⊢
    rw [here.id?_eq, ih]

theorem Respells.name_eq {first second : String × Json} (same : Respells first second) :
    first.1 = second.1 := by
  cases same <;> rfl

theorem Respells.eq_of_plain {first second : String × Json} (same : Respells first second)
    (plain : first.1 ∉ "inVs" :: idNames) : first = second := by
  cases same with
  | refl => rfl
  | id named _ => exact absurd (List.mem_cons_of_mem _ named) plain
  | ids _ => exact absurd List.mem_cons_self plain

theorem unique?_perm {first second : Fields} (perm : first.Perm second) (name : String) :
    first.unique? name = second.unique? name := by
  have found := perm.filter fun field => field.1 == name
  unfold Fields.unique?
  generalize first.filter (fun field => field.1 == name) = here at found ⊢
  generalize second.filter (fun field => field.1 == name) = there at found ⊢
  rcases here with _ | ⟨field, _ | ⟨next, here⟩⟩
  · rw [found.symm.eq_nil]
  · rw [List.perm_singleton.mp found.symm]
  · rcases there with _ | ⟨other, _ | ⟨more, there⟩⟩
    · cases found.length_eq
    · cases found.length_eq
    · rfl

theorem unique?_forall₂ {first second : Fields} (same : List.Forall₂ Respells first second) (name : String) :
    first.unique? name = second.unique? name ∨
      ∃ value other, first.unique? name = some (some value) ∧ second.unique? name = some (some other) ∧
        Respells (name, value) (name, other) := by
  have found : List.Forall₂ Respells (first.filter fun field => field.1 == name)
      (second.filter fun field => field.1 == name) :=
    List.rel_filter (fun here there respells => by simp [respells.name_eq]) same
  have named : ∀ field ∈ first.filter (fun field => field.1 == name), field.1 = name := fun field mem =>
    eq_of_beq (List.mem_filter.mp mem).2
  unfold Fields.unique?
  generalize first.filter (fun field => field.1 == name) = here at found named ⊢
  generalize second.filter (fun field => field.1 == name) = there at found ⊢
  cases found with
  | nil => exact .inl rfl
  | @cons field other here there respells later =>
    cases later with
    | nil =>
      obtain ⟨name', value⟩ := field
      obtain ⟨name'', value'⟩ := other
      obtain rfl : name' = name := named _ List.mem_cons_self
      obtain rfl : name' = name'' := respells.name_eq
      exact .inr ⟨value, value', rfl, rfl, respells⟩
    | cons _ _ => exact .inl rfl

/-- A field of two spellings of an object: the same in both, or there once in each. -/
theorem Respelled.unique? {first second : Fields} (respelled : Respelled first second) (name : String) :
    first.unique? name = second.unique? name ∨
      ∃ value other, first.unique? name = some (some value) ∧ second.unique? name = some (some other) ∧
        Respells (name, value) (name, other) := by
  obtain ⟨reordered, perm, same⟩ := respelled
  rw [unique?_perm perm]
  exact unique?_forall₂ same name

section Fields

variable {first second : Fields} (respelled : Respelled first second)

include respelled

theorem Respelled.plain {name : String} (plain : name ∉ "inVs" :: idNames) :
    first.unique? name = second.unique? name := by
  rcases respelled.unique? name with same | ⟨value, other, here, there, respells⟩
  · exact same
  · rw [here, there, (Prod.mk.inj (respells.eq_of_plain plain)).2]

variable {α : Type} {value? : Json → Option α} {name : String}
  (same : ∀ value other, Respells (name, value) (name, other) → value? value = value? other)

include same

theorem Respelled.required? :
    (Decode.required? first name).bind value? = (Decode.required? second name).bind value? := by
  rcases respelled.unique? name with equal | ⟨value, other, here, there, respells⟩
  · rw [Decode.required?, Decode.required?, equal]
  · rw [Decode.required?, Decode.required?, here, there]
    exact same value other respells

theorem Respelled.optional? : Decode.optional? value? first name = Decode.optional? value? second name := by
  rcases respelled.unique? name with equal | ⟨value, other, here, there, respells⟩
  · rw [Decode.optional?, Decode.optional?, equal]
  · rw [Decode.optional?, Decode.optional?, here, there]
    have read := same value other respells
    cases respells with
    | refl => rfl
    | id _ spelling =>
      cases spelling with
      | refl => rfl
      | digits => exact congrArg (Option.map some) read
      | number => exact congrArg (Option.map some) read
    | ids _ => exact congrArg (Option.map some) read

end Fields

theorem Respells.id?_eq {name : String} (named : name ∈ idNames) (value other : Json)
    (respells : Respells (name, value) (name, other)) : id? value = id? other := by
  cases respells with
  | refl => rfl
  | id _ same => exact same.id?_eq
  | ids _ => exact absurd named (by decide)

theorem Respells.ids?_eq (value other : Json) (respells : Respells ("inVs", value) ("inVs", other)) :
    ids? value = ids? other := by
  cases respells with
  | refl => rfl
  | id named _ => exact absurd named (by decide)
  | ids same => exact Decode.ids?_eq same

/-! ### Objects -/

theorem forall_mem_of_forall₂ {α : Type} {R : α → α → Prop} {P : α → Prop} {first second : List α}
    (same : List.Forall₂ R first second) (keeps : ∀ a b, R a b → P a → P b) (all : ∀ a ∈ first, P a) :
    ∀ b ∈ second, P b := by
  induction same with
  | nil => exact all
  | cons here _ ih =>
    rw [List.forall_mem_cons] at all ⊢
    exact ⟨keeps _ _ here all.1, ih all.2⟩

theorem SameId.readable {first second : Json} (same : SameId first second) {depth : Nat}
    (readable : Json.Readable depth first) : Json.Readable depth second := by
  cases same with
  | refl => exact readable
  | digits => exact .string _
  | number small => exact .natural small

theorem Respells.readable {first second : String × Json} (same : Respells first second) {depth : Nat}
    (readable : Json.Readable depth first.2) : Json.Readable depth second.2 := by
  cases same with
  | refl => exact readable
  | id _ same => exact same.readable readable
  | ids same =>
    cases readable with
    | array readable => exact .array (forall_mem_of_forall₂ same (fun _ _ same => same.readable) readable)

/-- Another spelling of an object can be read where the object can. -/
theorem Respelled.readable {first second : Fields} (respelled : Respelled first second) {depth : Nat}
    (readable : Json.Readable depth (.object first)) : Json.Readable depth (.object second) := by
  obtain ⟨reordered, perm, same⟩ := respelled
  cases readable with
  | object readable =>
    have reordered : ∀ field ∈ reordered, Json.Readable _ field.2 := fun field mem =>
      readable field (perm.mem_iff.mpr mem)
    exact .object (forall_mem_of_forall₂ same (fun _ _ same => same.readable) reordered)

/-! ### Elements -/

namespace Respelled

variable {first second : Fields} (respelled : Respelled first second)

include respelled

theorem vertexOf? (label : String) : Decode.vertexOf? first label = Decode.vertexOf? second label := by
  have metaData : Decode.metaData? first = Decode.metaData? second := by
    simp only [Decode.metaData?, Decode.required?, Decode.optional?,
      respelled.plain (show "projectRoot" ∉ _ by decide), respelled.plain (show "version" ∉ _ by decide),
      respelled.plain (show "positionEncoding" ∉ _ by decide)]
  have document : Decode.document? first = Decode.document? second := by
    simp only [Decode.document?, Decode.required?, respelled.plain (show "uri" ∉ _ by decide),
      respelled.plain (show "languageId" ∉ _ by decide)]
  have range : Decode.range? first = Decode.range? second := by
    simp only [Decode.range?, Decode.required?, respelled.plain (show "start" ∉ _ by decide),
      respelled.plain (show "end" ∉ _ by decide)]
  have result : Decode.required? first "result" = Decode.required? second "result" := by
    simp only [Decode.required?, respelled.plain (show "result" ∉ _ by decide)]
  unfold Decode.vertexOf?
  rw [metaData, document, range, result]

theorem vertex? : Decode.vertex? first = Decode.vertex? second := by
  simp only [Decode.vertex?, Decode.required?, respelled.plain (show "label" ∉ _ by decide), respelled.vertexOf?]

theorem edge? : Decode.edge? first = Decode.edge? second := by
  have source := respelled.required? (Respells.id?_eq (show "outV" ∈ idNames by decide))
  have single := respelled.optional? (Respells.id?_eq (show "inV" ∈ idNames by decide))
  have several := respelled.optional? Respells.ids?_eq
  have document := respelled.optional? (Respells.id?_eq (show "document" ∈ idNames by decide))
  have label : Decode.required? first "label" = Decode.required? second "label" := by
    simp only [Decode.required?, respelled.plain (show "label" ∉ _ by decide)]
  have property : Decode.optional? name? first "property" = Decode.optional? name? second "property" := by
    simp only [Decode.optional?, respelled.plain (show "property" ∉ _ by decide)]
  simp only [Decode.edge?, source, single, several, document, label, property]

theorem fields : Decode.fields first = Decode.fields second := by
  have id := respelled.required? (Respells.id?_eq (show "id" ∈ idNames by decide))
  have type : Decode.required? first "type" = Decode.required? second "type" := by
    simp only [Decode.required?, respelled.plain (show "type" ∉ _ by decide)]
  simp only [Decode.fields, id, type, respelled.vertex?, respelled.edge?]

end Respelled

end Decode

theorem Element.decode_of_read {line : List Char} {value : Json} (read : Json.read? line = some value) :
    decode line = Decode.value value := by
  unfold Json.read? at read
  unfold decode
  split at read
  · rename_i found rest here
    split at read
    · rename_i ended
      cases read
      rw [here]
      dsimp only
      cases Decode.value value with
      | error fault => rfl
      | ok element => exact if_pos ended
    · cases read
  · cases read

/-- Two spellings of a line of a dump: equal lines, or lines with two spellings of one object. -/
inductive LineRespelled : List Char → List Char → Prop where
  | refl (line : List Char) : LineRespelled line line
  | object {first second : List Char} {fields others : Fields}
      (here : Json.read? (Text.trim first) = some (.object fields))
      (there : Json.read? (Text.trim second) = some (.object others))
      (respelled : Decode.Respelled fields others) : LineRespelled first second

namespace Graph

theorem decodeLine_of_read {line : List Char} {value : Json} (read : Json.read? (Text.trim line) = some value)
    (number : Nat) :
    decodeLine number line = ((Decode.value value).mapError (.badLine number)).map some := by
  have decoded := Element.decode_of_read read
  unfold decodeLine
  split
  · rename_i blank
    rw [blank] at read
    cases read
  · rw [decoded]
    cases Decode.value value <;> rfl

theorem decodeLine_respelled {first second : List Char} (respelled : LineRespelled first second) (number : Nat) :
    decodeLine number first = decodeLine number second := by
  cases respelled with
  | refl => rfl
  | object here there respelled =>
    rw [decodeLine_of_read here, decodeLine_of_read there, Decode.value, Decode.value, respelled.fields]

theorem decodeLines_respelled {first second : List (List Char)}
    (respelled : List.Forall₂ LineRespelled first second) (done : List Element) (number : Nat) :
    decodeLines done number first = decodeLines done number second := by
  induction respelled generalizing done number with
  | nil => rfl
  | cons here _ ih => simp only [decodeLines, decodeLine_respelled here, ih]

/-- Dumps whose lines are spelled in other ways are one graph, or have one fault. -/
theorem parse_respelled {first second : List Char}
    (respelled : List.Forall₂ LineRespelled (Text.lines first) (Text.lines second)) :
    parse first = parse second := by
  rw [parse, parse, decodeLines_respelled respelled]

end Graph

end CodeAtlas
