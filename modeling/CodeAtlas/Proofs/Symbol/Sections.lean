import CodeAtlas.Proofs.Render.Fences

/-!
# Hover texts in sections

A list of marked strings is shown as sections with a separator between them. One list is not: two plain
strings are also the array form of code with its language, and this form is tried first
(`HoverText.sections_joined_iff`).
-/

namespace CodeAtlas

/-- A section of a hover text: Markdown, or code in some language. -/
inductive MarkedString where
  | text (markdown : String)
  | code (snippet : Snippet)
  deriving DecidableEq, Repr

namespace MarkedString

/-- The contents are a string with the Markdown, or an object with the language and the code. -/
def GivenBy : MarkedString → Json → Prop
  | .text markdown, contents => contents = .string markdown
  | .code snippet, contents => snippet.GivenBy contents

def markdown : MarkedString → List Char
  | .text markdown => markdown.toList
  | .code snippet => snippet.fenced

theorem ofMarked?_of_givenBy {marked : MarkedString} {contents : Json} (given : marked.GivenBy contents) :
    HoverText.ofMarked? contents = some marked.markdown := by
  cases marked with
  | text markdown =>
    obtain rfl : contents = .string markdown := given
    rfl
  | code snippet => exact Snippet.ofMarked?_of_givenBy given

theorem eq_text_of_givenBy_string {marked : MarkedString} {string : String}
    (given : marked.GivenBy (.string string)) : marked = .text string := by
  cases marked with
  | text markdown =>
    have same : Json.string string = .string markdown := given
    rw [Json.string.inj same]
  | code snippet =>
    obtain ⟨fields, object, _⟩ := given
    cases object

end MarkedString

namespace HoverText

/-- The only arrays that are marked strings are those of two strings. -/
theorem ofMarked?_array_eq_some_iff {items : List Json} {text : List Char} :
    ofMarked? (.array items) = some text ↔
      ∃ language code, items = [.string language, .string code] ∧ text = fenced language.toList code.toList := by
  constructor
  · intro read
    unfold ofMarked? at read
    split at read
    · rename_i whole
      cases whole
    · rename_i language code whole
      exact ⟨language, code, Json.array.inj whole, (Option.some.inj read).symm⟩
    · rename_i fields whole
      cases whole
    · cases read
  · rintro ⟨language, code, rfl, rfl⟩
    rfl

theorem mapM_ofMarked?_sections {sections : List MarkedString} {contents : List Json}
    (given : List.Forall₂ MarkedString.GivenBy sections contents) :
    contents.mapM ofMarked? = some (sections.map MarkedString.markdown) := by
  induction given with
  | nil => rfl
  | cons first _ ih => simp [MarkedString.ofMarked?_of_givenBy first, ih]

theorem eq_two_texts_iff {sections : List MarkedString} {contents : List Json}
    (given : List.Forall₂ MarkedString.GivenBy sections contents) {first second : String} :
    sections = [.text first, .text second] ↔ contents = [.string first, .string second] := by
  constructor
  · rintro rfl
    cases given with
    | cons here rest =>
      cases rest with
      | cons there rest =>
        cases rest
        rw [show _ = Json.string first from here, show _ = Json.string second from there]
  · rintro rfl
    cases given with
    | cons here rest =>
      cases rest with
      | cons there rest =>
        cases rest
        rw [MarkedString.eq_text_of_givenBy_string here, MarkedString.eq_text_of_givenBy_string there]

/-- A fenced block is longer than its two parts with a separator between them. -/
theorem fenced_ne_join (language code : List Char) :
    fenced language code ≠ separator.intercalate [language, code] := by
  intro same
  have lengths := congrArg List.length same
  have fence : 3 ≤ (fenceFor code).length := by
    rw [fenceFor, List.length_replicate]
    omega
  have between : separator.length = 7 := rfl
  simp only [fenced, List.intercalate_cons_cons, List.intercalate_singleton, List.length_append,
    List.length_cons, between] at lengths
  omega

/-- A list of strings and of code with its language is read as its sections, joined by the separator, unless
it is a list of two strings. Such a list is read as code, the first string being its language. -/
theorem sections_joined_iff (id : ElementId) {sections : List MarkedString} {contents : List Json}
    (given : List.Forall₂ MarkedString.GivenBy sections contents) :
    (ofContents id (.array contents) =
        .ok (.markdown (separator.intercalate (sections.map MarkedString.markdown))) ↔
      ∀ first second, sections ≠ [.text first, .text second]) ∧
    ∀ first second, sections = [.text first, .text second] →
      ofContents id (.array contents) = .ok (.markdown (fenced first.toList second.toList)) := by
  have read := mapM_ofMarked?_sections given
  have code : ∀ first second, sections = [.text first, .text second] →
      ofContents id (.array contents) = .ok (.markdown (fenced first.toList second.toList)) := by
    intro first second two
    rw [(eq_two_texts_iff given).mp two]
    rfl
  refine ⟨⟨?_, ?_⟩, code⟩
  · rintro joined first second rfl
    have same := (code first second rfl).symm.trans joined
    simp only [Except.ok.injEq, markdown.injEq] at same
    exact fenced_ne_join _ _ same
  · intro notTwo
    have notMarked : ofMarked? (.array contents) = none := by
      rw [Option.eq_none_iff_forall_ne_some]
      intro text marked
      obtain ⟨first, second, two, _⟩ := ofMarked?_array_eq_some_iff.mp marked
      exact notTwo first second ((eq_two_texts_iff given).mpr two)
    rw [ofContents, ofJson?, notMarked, ofSections?, read]
    rfl

/-- Code with its language and a comment on it. -/
theorem sections_joined_comment :
    ofContents (.ofNat 5)
        (.array [.object [("language", .string "go"), ("value", .string "x")], .string "doc"]) =
      .ok (.markdown (separator.intercalate [Snippet.fenced ⟨"go", "x"⟩, "doc".toList])) := by
  have code : Snippet.GivenBy ⟨"go", "x"⟩ (.object [("language", .string "go"), ("value", .string "x")]) :=
    ⟨_, rfl, by simp [Json.Fields.last?], by simp [Json.Fields.last?]⟩
  have given : List.Forall₂ MarkedString.GivenBy [.code ⟨"go", "x"⟩, .text "doc"]
      [.object [("language", .string "go"), ("value", .string "x")], .string "doc"] :=
    .cons code (.cons rfl .nil)
  exact (sections_joined_iff (.ofNat 5) given).1.mpr (by simp)

theorem two_strings_fenced :
    List.Forall₂ MarkedString.GivenBy [.text "a", .text "b"] [.string "a", .string "b"] ∧
      ofContents (.ofNat 5) (.array [.string "a", .string "b"]) = .ok (.markdown (fenced ['a'] ['b'])) ∧
      ofContents (.ofNat 5) (.array [.string "a", .string "b"]) ≠
        .ok (.markdown (separator.intercalate (List.map MarkedString.markdown [.text "a", .text "b"]))) := by
  have read : ofContents (.ofNat 5) (.array [.string "a", .string "b"]) = .ok (.markdown (fenced ['a'] ['b'])) :=
    rfl
  refine ⟨.cons rfl (.cons rfl .nil), read, fun joined => ?_⟩
  have same := read.symm.trans joined
  simp only [Except.ok.injEq, markdown.injEq] at same
  exact fenced_ne_join _ _ same

end HoverText

end CodeAtlas
