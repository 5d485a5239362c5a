import CodeAtlas.Proofs.Render.HoverMarkup

/-!
# Marks that cross tags

Strong emphasis and emphasis see the tags that were written before them only as text. Their marks may
enclose a part of a tag, or one tag of an element without the other, and then the markup is not well nested
(`swallowed_closing_tag`). Nothing else in a hover text can go wrong: `hover_markup_nested_iff`.
-/

namespace CodeAtlas

open Markup

namespace Markup

/-! ### Conditions for nesting -/

/-- The text is made of glyphs and tags of elements, and its tags leave open what was open if the condition
holds; if not, they close what is not open. -/
def NestsIff (condition : Prop) (text : List Char) : Prop :=
  ∃ atoms, Atom.Sound atoms ∧ text = Atom.markup atoms ∧
    ∀ opened, (condition → nest opened (Atom.tags atoms) = some opened) ∧
      (¬ condition → nest opened (Atom.tags atoms) = none)

namespace NestsIff

variable {condition other : Prop} {first second : List Char}

theorem checkNesting_iff (nests : NestsIff condition first) : checkNesting first = .ok () ↔ condition := by
  obtain ⟨atoms, sound, rfl, result⟩ := nests
  rw [sound.checkNesting_iff]
  by_cases holds : condition
  · exact iff_of_true ((result []).1 holds) holds
  · rw [(result []).2 holds]
    exact iff_of_false (by simp) holds

theorem congr (same : condition ↔ other) (nests : NestsIff condition first) : NestsIff other first := by
  rwa [propext same] at nests

theorem escape (text : List Char) : NestsIff True (escape text) := by
  refine ⟨text.map .glyph, Atom.forall_tags_map_glyph Tag.Sound text, (Atom.markup_map_glyph text).symm,
    fun opened => ?_⟩
  rw [Atom.tags_map_glyph]
  exact ⟨fun _ => nest_nil opened, fun wrong => absurd trivial wrong⟩

theorem append (nests : NestsIff condition first) (later : NestsIff other second) :
    NestsIff (condition ∧ other) (first ++ second) := by
  obtain ⟨atoms, sound, rfl, result⟩ := nests
  obtain ⟨others, soundOthers, rfl, laterResult⟩ := later
  refine ⟨atoms ++ others, sound.append soundOthers, (Atom.markup_append ..).symm, fun opened => ?_⟩
  rw [Atom.tags_append, nest_append]
  constructor
  · rintro ⟨holds, holdsLater⟩
    rw [(result opened).1 holds]
    exact (laterResult opened).1 holdsLater
  · intro wrong
    by_cases holds : condition
    · rw [(result opened).1 holds]
      exact (laterResult opened).2 fun holdsLater => wrong ⟨holds, holdsLater⟩
    · rw [(result opened).2 holds]
      rfl

theorem flatMap {ι : Type} {items : List ι} {conditions : ι → Prop} {text : ι → List Char}
    (each : ∀ item ∈ items, NestsIff (conditions item) (text item)) :
    NestsIff (∀ item ∈ items, conditions item) (items.flatMap text) := by
  induction items with
  | nil => exact (escape []).congr (by simp)
  | cons item items ih =>
    obtain ⟨first, rest⟩ := List.forall_mem_cons.mp each
    exact (first.append (ih rest)).congr List.forall_mem_cons.symm

theorem element {name : List Char} {attributes : List (Attribute Char)}
    (opens : (Tag.opening name attributes).Sound) (notVoid : name ∉ Nesting.voidElements)
    (nests : NestsIff condition first) : NestsIff condition (Atom.element name attributes first) := by
  obtain ⟨atoms, sound, rfl, result⟩ := nests
  refine ⟨_, sound.element opens, Atom.element_markup atoms name attributes, fun opened => ?_⟩
  rw [Atom.tags_tag, Atom.tags_append, nest_opening _ _ _ notVoid, nest_append]
  constructor
  · intro holds
    rw [(result _).1 holds, Option.bind_some, Atom.tags_tag, nest_closing]
    exact nest_nil opened
  · intro wrong
    rw [(result _).2 wrong]
    rfl

/-- In an element that it has no tags of, a text must be well nested by itself. -/
theorem of_element {name : List Char} {attributes : List (Attribute Char)} {atoms : List Atom}
    (opens : (Tag.opening name attributes).Sound) (notVoid : name ∉ Nesting.voidElements)
    (sound : Atom.Sound atoms) (apart : ∀ tag ∈ Atom.tags atoms, tag.element? ≠ some name) :
    NestsIff (checkNesting (Atom.markup atoms) = .ok ())
      (Atom.element name attributes (Atom.markup atoms)) := by
  refine ⟨_, sound.element opens, Atom.element_markup atoms name attributes, fun opened => ?_⟩
  rw [sound.checkNesting_iff, Atom.tags_tag, Atom.tags_append]
  have result := @nest_element name attributes _ notVoid apart opened
  constructor
  · intro holds
    rwa [if_pos holds] at result
  · intro wrong
    rwa [if_neg wrong] at result

end NestsIff

end Markup

namespace Inline

/-! ### Whole stretches -/

/-- Well-nested markup with no part of a tag that begins or ends elsewhere. -/
def Whole (text : List Char) : Prop :=
  checkNesting text = .ok () ∧ ∀ c ∈ outside text, c ∉ ['<', '>', '"', '\'']

/-- In plain text, strong emphasis and emphasis enclose only whole stretches. -/
def EnclosesWhole (text : List Char) : Prop :=
  (∀ taken ∈ takenBy strong (applyRule link (escape text)), Whole taken) ∧
    ∀ taken ∈ takenBy emphasis (applyRule strong (applyRule link (escape text))), Whole taken

instance (text : List Char) : Decidable (Whole text) :=
  decidable_of_iff (checkNesting text = .ok () ∧
    ((outside text).all fun c => !(['<', '>', '"', '\''].contains c)) = true) (by simp [Whole])

instance (text : List Char) : Decidable (EnclosesWhole text) :=
  inferInstanceAs (Decidable (_ ∧ _))

/-- The second text is the first one with some whole stretches between marks put into an element. -/
inductive Framed (name : String) : List Char → List Char → Prop where
  | nil : Framed name [] []
  | keep (c : Char) {first second : List Char} :
    Framed name first second → Framed name (c :: first) (c :: second)
  | frame {mark : Char} {width : Nat} {body rest first second : List Char} :
    mark ∈ marks →
    Whole (List.replicate (width + 1) mark ++ (body ++ List.replicate (width + 1) mark)) →
    mark :: rest = List.replicate (width + 1) mark ++ (body ++ (List.replicate (width + 1) mark ++ first)) →
    Framed name first second → Framed name (mark :: rest) (inElement name body ++ second)

theorem framed_applyRule {rule : Rule} {name : String} (encloses : Encloses rule name) {text : List Char}
    (whole : ∀ taken ∈ takenBy rule text, Whole taken) : Framed name text (applyRule rule text) := by
  have general := @applyRule_induction rule
    (fun text takes output => (∀ taken ∈ takes, Whole taken) → Framed name text output) ?_ ?_ ?_ text
  · exact general whole
  · exact fun _ => .nil
  · exact fun _ c _ _ _ _ later whole => .keep c (later whole)
  · intro previous c rest fit takes output found later whole
    obtain ⟨first, others⟩ := List.forall_mem_cons.mp whole
    obtain ⟨mark, listed, width, body, taken, written⟩ := encloses previous c rest fit found
    have start : c = mark := (List.cons.inj taken).1
    have split : c :: rest = List.replicate (width + 1) mark ++
        (body ++ (List.replicate (width + 1) mark ++ rest.drop fit.taken)) := by
      rw [← List.append_assoc, ← List.append_assoc, List.append_assoc (List.replicate (width + 1) mark),
        ← taken, List.cons_append, List.take_append_drop]
    subst start
    rw [written]
    exact .frame listed (taken ▸ first) split (later others)

namespace Framed

variable {name : String} {output : List Char}

theorem of_append {start rest : List Char} (plain : ∀ mark ∈ marks, mark ∉ start)
    (framed : Framed name (start ++ rest) output) :
    ∃ later, output = start ++ later ∧ Framed name rest later := by
  induction start generalizing output with
  | nil => exact ⟨output, rfl, framed⟩
  | cons c start ih =>
    cases framed with
    | keep _ tail =>
      obtain ⟨later, rfl, framed⟩ := ih (fun mark listed mem => plain mark listed (List.mem_cons_of_mem c mem)) tail
      exact ⟨later, rfl, framed⟩
    | frame listed => exact absurd List.mem_cons_self (plain c listed)

end Framed

/-! ### Tags that marks may be near -/

def Bare (tag : Tag Char) : Prop :=
  ∃ name, isElement name = true ∧ (tag = .opening name [] ∨ tag = .closing name)

theorem Bare.sound {tag : Tag Char} (bare : Bare tag) : tag.Sound := by
  obtain ⟨name, element, rfl | rfl⟩ := bare
  · exact ⟨element, fun entry mem => absurd mem List.not_mem_nil⟩
  · exact element

theorem Bare.notMem {tag : Tag Char} (bare : Bare tag) {c : Char} (special : c ∉ ['<', '/', '>'])
    (notLetter : c.isAlphanum = false) : c ∉ (Atom.tag tag).text := by
  obtain ⟨name, element, same⟩ := bare
  have free : c ∉ name := by
    intro mem
    simp only [isElement, Bool.and_eq_true, List.all_eq_true] at element
    rw [element.1.1.2 c mem] at notLetter
    cases notLetter
  rcases same with rfl | rfl
  · simp_all [Atom.text, Tag.written]
  · simp_all [Atom.text, Tag.written]

theorem Bare.markless {tag : Tag Char} (bare : Bare tag) : ∀ mark ∈ marks, mark ∉ (Atom.tag tag).text := by
  have each : (marks.all fun mark => !(['<', '/', '>'].contains mark) && !mark.isAlphanum) = true := by decide
  intro mark listed
  have special := List.all_eq_true.mp each mark listed
  simp only [Bool.and_eq_true, Bool.not_eq_true', List.contains_eq_mem, decide_eq_false_iff_not] at special
  exact bare.notMem special.1 special.2

theorem quote_notMem_of_bare {atoms : List Atom} (bare : ∀ tag ∈ Atom.tags atoms, Bare tag) :
    '"' ∉ Atom.markup atoms := by
  induction atoms with
  | nil => exact List.not_mem_nil
  | cons atom atoms ih =>
    intro mem
    cases atom with
    | glyph c =>
      rcases List.mem_append.mp mem with mem | mem
      · exact Nesting.quote_notMem_escape [c] (escape_singleton c ▸ mem)
      · exact ih bare mem
    | tag tag =>
      obtain ⟨first, bare⟩ := List.forall_mem_cons.mp bare
      rcases List.mem_append.mp mem with mem | mem
      · exact first.notMem (by decide) (by decide) mem
      · exact ih bare mem

/-- A tag of inline text: one without attributes, or the start of a link in whose address there may be such
tags. -/
inductive Framable : Tag Char → Prop where
  | bare {tag : Tag Char} : Bare tag → Framable tag
  | link {atoms : List Atom} :
    (∀ tag ∈ Atom.tags atoms, Bare tag) →
      Framable (.opening "a".toList [⟨"href".toList, some (Atom.markup atoms)⟩])

theorem Framable.sound {tag : Tag Char} (framable : Framable tag) : tag.Sound := by
  cases framable with
  | bare bare => exact bare.sound
  | link bare =>
    refine ⟨by decide, fun entry mem => ?_⟩
    obtain rfl := List.mem_singleton.mp mem
    exact ⟨(by decide : isName "href".toList = true), _, rfl, quote_notMem_of_bare bare⟩

/-! ### Frames in a sequence of glyphs and tags -/

theorem eq_nil_of_markup_eq_nil {atoms : List Atom} (empty : Atom.markup atoms = []) : atoms = [] := by
  cases atoms with
  | nil => rfl
  | cons atom atoms =>
    have text : atom.text = [] := (List.append_eq_nil_iff.mp empty).1
    cases atom with
    | glyph c => exact absurd text (escapeChar_ne_nil c)
    | tag tag => cases text

theorem exists_of_markup_eq_run {atoms : List Atom} (sound : Atom.Sound atoms) {mark : Char}
    (listed : mark ∈ marks) {width : Nat} {rest : List Char}
    (whole : Atom.markup atoms = List.replicate width mark ++ rest) :
    ∃ others, atoms = List.replicate width (.glyph mark) ++ others ∧ rest = Atom.markup others := by
  induction width generalizing atoms with
  | zero => exact ⟨atoms, rfl, whole.symm⟩
  | succ width ih =>
    have start : Atom.markup atoms = [] ++ mark :: (List.replicate width mark ++ rest) := whole
    obtain ⟨first, second, rfl, empty, tail⟩ := Atom.exists_of_markup_eq_append sound
      (mem_delimiters_of_mem_marks listed) (by rw [tags?]) start
    obtain rfl := eq_nil_of_markup_eq_nil empty.symm
    obtain ⟨others, rfl, rest⟩ := ih sound.of_cons tail.symm
    exact ⟨others, rfl, rest⟩

theorem markup_replicate {mark : Char} (listed : mark ∈ marks) (width : Nat) :
    Atom.markup (List.replicate width (.glyph mark)) = List.replicate width mark := by
  induction width with
  | zero => rfl
  | succ width ih =>
    rw [List.replicate_succ, Atom.markup_glyph, ih, escapeChar_of_delimiter (mem_delimiters_of_mem_marks listed)]
    rfl

theorem tags_replicate (c : Char) (width : Nat) : Atom.tags (List.replicate width (.glyph c)) = [] := by
  rw [← List.map_replicate, Atom.tags_map_glyph]

namespace Whole

variable {mark : Char} {width : Nat}

theorem exists_tags? (listed : mark ∈ marks) {body : List Char}
    (whole : Whole (List.replicate (width + 1) mark ++ (body ++ List.replicate (width + 1) mark))) :
    ∃ read, tags? body = some read := by
  have notBracket : ∀ c ∈ List.replicate (width + 1) mark, c ∉ ['<', '>'] := by
    intro c mem
    obtain rfl := List.eq_of_mem_replicate mem
    exact fun bracket => markless_of_all (by decide) c listed bracket
  obtain ⟨read, found⟩ := exists_tags?_of_notMem_outside fun mem => whole.2 '<' mem (by decide)
  rw [tags?_append (tags?_of_notMem fun mem => notBracket '<' mem (by decide))] at found
  obtain ⟨read, found, _⟩ := Option.map_eq_some_iff.mp found
  exact exists_tags?_of_append (fun mem => notBracket '>' mem (by decide)) found

theorem nest_eq (listed : mark ∈ marks) {inside : List Atom} (sound : Atom.Sound inside)
    (whole : Whole (List.replicate (width + 1) mark ++
      (Atom.markup inside ++ List.replicate (width + 1) mark))) (opened : List (List Char)) :
    nest opened (Atom.tags inside) = some opened := by
  let atoms := List.replicate (width + 1) (.glyph mark) ++
    (inside ++ List.replicate (width + 1) (.glyph mark))
  have markup : Atom.markup atoms = List.replicate (width + 1) mark ++
      (Atom.markup inside ++ List.replicate (width + 1) mark) := by
    rw [Atom.markup_append, Atom.markup_append, markup_replicate listed]
  have tags : Atom.tags atoms = Atom.tags inside := by
    rw [Atom.tags_append, Atom.tags_append, tags_replicate, List.append_nil, List.nil_append]
  have soundAtoms : Atom.Sound atoms := fun tag mem => sound tag (tags ▸ mem)
  have accepted := whole.1
  rw [← markup, soundAtoms.checkNesting_iff, tags] at accepted
  exact nest_append_outer accepted opened

/-- It does not go on behind the quote that ends an address, which would be outside its tags. -/
theorem exists_behind {atoms : List Atom} (sound : Atom.Sound atoms) {taken rest first : List Char}
    (whole : Whole taken) (ends : rest = [] ∨ ∃ more, rest = '"' :: more)
    (split : Atom.markup atoms ++ rest = taken ++ first) :
    ∃ behind, Atom.markup atoms = taken ++ behind ∧ first = behind ++ rest := by
  rcases List.append_eq_append_iff.mp split with ⟨passed, same, later⟩ | found
  · cases passed with
    | nil => exact ⟨[], by simpa using same.symm, by simpa using later.symm⟩
    | cons c passed =>
      rcases ends with rfl | ⟨more, rfl⟩
      · cases later
      · obtain ⟨rfl, _⟩ := List.cons.inj later
        have quote : '"' ∈ outside taken := by
          rw [same, outside_append sound.tags?_markup, outside, if_neg (by decide)]
          simp
        exact absurd (by decide) (whole.2 '"' quote)
  · exact found

end Whole

/-- A whole stretch between marks is made of whole glyphs and tags. -/
theorem exists_frame {atoms : List Atom} (sound : Atom.Sound atoms) {mark : Char} (listed : mark ∈ marks)
    {width : Nat} {body rest : List Char}
    (whole : Whole (List.replicate (width + 1) mark ++ (body ++ List.replicate (width + 1) mark)))
    (split : Atom.markup atoms =
      List.replicate (width + 1) mark ++ (body ++ (List.replicate (width + 1) mark ++ rest))) :
    ∃ inside others,
      atoms = List.replicate (width + 1) (.glyph mark) ++
        (inside ++ (List.replicate (width + 1) (.glyph mark) ++ others)) ∧
      body = Atom.markup inside ∧ rest = Atom.markup others := by
  obtain ⟨read, complete⟩ := whole.exists_tags? listed
  obtain ⟨atoms, rfl, enclosed⟩ := exists_of_markup_eq_run sound listed split
  have soundRest : Atom.Sound atoms := fun tag mem => sound tag (by simp [mem])
  have next : Atom.markup atoms = body ++ mark :: (List.replicate width mark ++ rest) := enclosed.symm
  obtain ⟨inside, behind, rfl, rfl, last⟩ :=
    Atom.exists_of_markup_eq_append soundRest (mem_delimiters_of_mem_marks listed) complete next
  have soundBehind : Atom.Sound behind := fun tag mem => soundRest tag (by simp [mem])
  obtain ⟨others, rfl, rest⟩ := exists_of_markup_eq_run soundBehind listed last.symm
  exact ⟨inside, others, rfl, rfl, rest⟩

def framing (name : String) (inside others : List Atom) : List Atom :=
  .tag (.opening name.toList []) :: (inside ++ .tag (.closing name.toList) :: others)

theorem markup_framing (name : String) (inside others : List Atom) :
    Atom.markup (framing name inside others) = inElement name (Atom.markup inside) ++ Atom.markup others := by
  rw [inElement_eq, Atom.element_markup, ← Atom.markup_append, framing]
  simp

theorem forall_framing {property : Tag Char → Prop} {name : String} {inside others : List Atom}
    (own : property (.opening name.toList []) ∧ property (.closing name.toList))
    (first : ∀ tag ∈ Atom.tags inside, property tag) (later : ∀ tag ∈ Atom.tags others, property tag) :
    ∀ tag ∈ Atom.tags (framing name inside others), property tag := by
  intro tag mem
  simp only [framing, Atom.tags_tag, Atom.tags_append, List.mem_cons, List.mem_append] at mem
  rcases mem with rfl | mem | rfl | mem
  · exact own.1
  · exact first tag mem
  · exact own.2
  · exact later tag mem

namespace Framed

variable {name : String} {output : List Char}

/-- At a glyph, or at a tag without marks, the text goes on behind it, or behind a whole stretch that begins
there. Such a stretch does not go on behind the address it may stand in. -/
theorem of_atom {atom : Atom} {atoms : List Atom} (sound : Atom.Sound (atom :: atoms))
    (plain : (∃ c, atom = .glyph c) ∨ ∀ mark ∈ marks, mark ∉ atom.text) {rest : List Char}
    (ends : rest = [] ∨ ∃ more, rest = '"' :: more)
    (framed : Framed name (Atom.markup (atom :: atoms) ++ rest) output) :
    (∃ later, output = atom.text ++ later ∧ Framed name (Atom.markup atoms ++ rest) later) ∨
    ∃ inside others later, Atom.tags (atom :: atoms) = Atom.tags inside ++ Atom.tags others ∧
      others.length < (atom :: atoms).length ∧ (∀ opened, nest opened (Atom.tags inside) = some opened) ∧
      output = inElement name (Atom.markup inside) ++ later ∧
      Framed name (Atom.markup others ++ rest) later := by
  have split : Framed name (atom.text ++ (Atom.markup atoms ++ rest)) output := by
    rw [← List.append_assoc]
    exact framed
  by_cases mark : ∃ c ∈ marks, atom = .glyph c
  · obtain ⟨c, listed, rfl⟩ := mark
    have alone := escapeChar_of_delimiter (mem_delimiters_of_mem_marks listed)
    rw [Atom.text, alone] at split
    cases split with
    | keep _ tail => exact .inl ⟨_, by rw [Atom.text, alone]; rfl, tail⟩
    | @frame _ width body _ first second _ whole same tail =>
      right
      have start : Atom.markup (.glyph c :: atoms) ++ rest =
          List.replicate (width + 1) c ++ (body ++ List.replicate (width + 1) c) ++ first := by
        rw [Atom.markup_glyph, alone]
        simpa using same
      obtain ⟨behind, markup, rfl⟩ := whole.exists_behind sound ends start
      rw [List.append_assoc, List.append_assoc] at markup
      obtain ⟨inside, others, shape, rfl, rfl⟩ := exists_frame sound listed whole markup
      have tags : Atom.tags (.glyph c :: atoms) = Atom.tags inside ++ Atom.tags others := by
        rw [shape, Atom.tags_append, Atom.tags_append, Atom.tags_append, tags_replicate]
        simp
      have soundInside : Atom.Sound inside := fun tag mem => sound tag (by simp [tags, mem])
      refine ⟨inside, others, second, tags, ?_, whole.nest_eq listed soundInside, rfl, tail⟩
      rw [shape]
      simp only [List.length_append, List.length_replicate]
      omega
  · left
    refine split.of_append fun other listed mem => ?_
    rcases plain with ⟨c, rfl⟩ | plain
    · have same := (eq_of_mem_escapeChar (mem_delimiters_of_mem_marks listed) mem).1
      exact mark ⟨other, listed, congrArg Atom.glyph same⟩
    · exact plain other listed mem

theorem exists_value (element : isElement name.toList = true) {atoms : List Atom}
    (bare : ∀ tag ∈ Atom.tags atoms, Bare tag) {rest : List Char}
    (framed : Framed name (Atom.markup atoms ++ '"' :: '>' :: rest) output) :
    ∃ others later, (∀ tag ∈ Atom.tags others, Bare tag) ∧
      output = Atom.markup others ++ '"' :: '>' :: later ∧ Framed name rest later := by
  have own : Bare (.opening name.toList []) ∧ Bare (.closing name.toList) :=
    ⟨⟨_, element, .inl rfl⟩, ⟨_, element, .inr rfl⟩⟩
  -- on the number of atoms, since a stretch is passed at once
  induction size : atoms.length using Nat.strongRecOn generalizing atoms output with
  | ind n ih =>
    subst size
    cases atoms with
    | nil =>
      have ends : Framed name (['"', '>'] ++ rest) output := framed
      obtain ⟨later, rfl, kept⟩ := ends.of_append (markless_of_all (by decide))
      exact ⟨[], later, by simp, rfl, kept⟩
    | cons atom atoms =>
      have sound : Atom.Sound (atom :: atoms) := fun tag mem => (bare tag mem).sound
      have plain : (∃ c, atom = .glyph c) ∨ ∀ mark ∈ marks, mark ∉ atom.text := by
        cases atom with
        | glyph c => exact .inl ⟨c, rfl⟩
        | tag tag => exact .inr (bare tag List.mem_cons_self).markless
      rcases framed.of_atom sound plain (.inr ⟨_, rfl⟩) with
        ⟨later, rfl, kept⟩ | ⟨inside, behind, later, tags, shorter, _, rfl, kept⟩
      · rw [Atom.tags_cons] at bare
        obtain ⟨first, second⟩ := List.forall_mem_append.mp bare
        obtain ⟨others, last, bareOthers, rfl, outer⟩ := ih _ (Nat.lt_succ_self _) second kept rfl
        refine ⟨atom :: others, last, ?_, (List.append_assoc ..).symm, outer⟩
        rw [Atom.tags_cons]
        exact List.forall_mem_append.mpr ⟨first, bareOthers⟩
      · rw [tags] at bare
        obtain ⟨first, second⟩ := List.forall_mem_append.mp bare
        obtain ⟨others, last, bareOthers, rfl, outer⟩ := ih _ shorter second kept rfl
        refine ⟨framing name inside others, last, forall_framing own first bareOthers, ?_, outer⟩
        rw [markup_framing, List.append_assoc]

/-- The start of a link stays one, with tags in its address. -/
theorem of_link (element : isElement name.toList = true) {address atoms : List Atom}
    (bare : ∀ tag ∈ Atom.tags address, Bare tag)
    (framed : Framed name (Atom.markup (.tag (.opening "a".toList
      [⟨"href".toList, some (Atom.markup address)⟩]) :: atoms)) output) :
    ∃ other later, (∀ tag ∈ Atom.tags other, Bare tag) ∧
      output = (Atom.tag (.opening "a".toList [⟨"href".toList, some (Atom.markup other)⟩])).text ++ later ∧
      Framed name (Atom.markup atoms) later := by
  have shape : ∀ address rest : List Char, (Atom.tag (.opening "a".toList
      [⟨"href".toList, some address⟩])).text ++ rest = "<a href=\"".toList ++ (address ++ '"' :: '>' :: rest) := by
    intro address rest
    simp [Atom.text, Tag.written, Attribute.written]
  have split : Framed name ("<a href=\"".toList ++
      (Atom.markup address ++ '"' :: '>' :: Atom.markup atoms)) output := by
    rw [← shape]
    exact framed
  obtain ⟨_, rfl, inside⟩ := split.of_append (markless_of_all (by decide))
  obtain ⟨other, later, bareOther, rfl, behind⟩ := inside.exists_value element bare
  exact ⟨other, later, bareOther, (shape (Atom.markup other) later).symm, behind⟩

/-- The first atom is left as it is, or is the start of a link and stays one, or a whole stretch begins
there. -/
theorem of_framable (element : isElement name.toList = true) {atom : Atom} {atoms : List Atom}
    (framable : ∀ tag ∈ Atom.tags (atom :: atoms), Framable tag)
    (framed : Framed name (Atom.markup (atom :: atoms)) output) :
    (∃ (other : Atom) (later : List Char), (∀ tag ∈ other.tag?.toList, Framable tag) ∧
      (∀ opened, nest opened other.tag?.toList = nest opened atom.tag?.toList) ∧
      output = other.text ++ later ∧ Framed name (Atom.markup atoms) later) ∨
    ∃ inside others later, Atom.tags (atom :: atoms) = Atom.tags inside ++ Atom.tags others ∧
      others.length < (atom :: atoms).length ∧ (∀ opened, nest opened (Atom.tags inside) = some opened) ∧
      output = inElement name (Atom.markup inside) ++ later ∧ Framed name (Atom.markup others) later := by
  have sound : Atom.Sound (atom :: atoms) := fun tag mem => (framable tag mem).sound
  have first : ∀ tag ∈ atom.tag?.toList, Framable tag := fun tag mem =>
    framable tag (by rw [Atom.tags_cons]; exact List.mem_append_left _ mem)
  by_cases plain : (∃ c, atom = .glyph c) ∨ ∀ mark ∈ marks, mark ∉ atom.text
  · have whole : Framed name (Atom.markup (atom :: atoms) ++ []) output := by rwa [List.append_nil]
    have either := whole.of_atom sound plain (.inl rfl)
    simp only [List.append_nil] at either
    exact either.imp_left fun ⟨later, same, kept⟩ => ⟨atom, later, first, fun _ => rfl, same, kept⟩
  · left
    cases atom with
    | glyph c => exact absurd (.inl ⟨c, rfl⟩) plain
    | tag tag =>
      cases first tag List.mem_cons_self with
      | bare bare => exact absurd (.inr bare.markless) plain
      | link bare =>
        obtain ⟨other, later, bareOther, same, kept⟩ := framed.of_link element bare
        refine ⟨_, later, fun tag mem => ?_, fun opened => ?_, same, kept⟩
        · exact List.mem_singleton.mp mem ▸ .link bareOther
        · exact (nest_opening opened _ [] (by decide)).trans (nest_opening opened _ [] (by decide)).symm

theorem nest_framing {inside others : List Atom} (notVoid : name.toList ∉ Nesting.voidElements)
    (nested : ∀ opened, nest opened (Atom.tags inside) = some opened) (opened : List (List Char)) :
    nest opened (Atom.tags (framing name inside others)) = nest opened (Atom.tags others) := by
  rw [framing, Atom.tags_tag, nest_opening _ _ _ notVoid, Atom.tags_append, nest_append, nested,
    Option.bind_some, Atom.tags_tag, nest_closing]

/-- Whole stretches in an element leave open what was left open without it. -/
theorem exists_atoms (element : isElement name.toList = true) (notVoid : name.toList ∉ Nesting.voidElements)
    {atoms : List Atom} (framable : ∀ tag ∈ Atom.tags atoms, Framable tag)
    (framed : Framed name (Atom.markup atoms) output) :
    ∃ others, (∀ tag ∈ Atom.tags others, Framable tag) ∧ output = Atom.markup others ∧
      ∀ opened, nest opened (Atom.tags others) = nest opened (Atom.tags atoms) := by
  have own : Framable (.opening name.toList []) ∧ Framable (.closing name.toList) :=
    ⟨.bare ⟨_, element, .inl rfl⟩, .bare ⟨_, element, .inr rfl⟩⟩
  induction size : atoms.length using Nat.strongRecOn generalizing atoms output with
  | ind n ih =>
    subst size
    cases atoms with
    | nil =>
      cases framed
      exact ⟨[], by simp, rfl, fun _ => rfl⟩
    | cons atom atoms =>
      rcases framed.of_framable element framable with
        ⟨other, later, first, step, rfl, kept⟩ | ⟨inside, behind, later, tags, shorter, nested, rfl, kept⟩
      · rw [Atom.tags_cons] at framable
        obtain ⟨others, framableOthers, rfl, same⟩ :=
          ih _ (Nat.lt_succ_self _) (List.forall_mem_append.mp framable).2 kept rfl
        refine ⟨other :: others, ?_, rfl, fun opened => ?_⟩
        · rw [Atom.tags_cons]
          exact List.forall_mem_append.mpr ⟨first, framableOthers⟩
        · rw [Atom.tags_cons, Atom.tags_cons, nest_append, nest_append, step]
          exact congrArg _ (funext same)
      · rw [tags] at framable
        obtain ⟨first, second⟩ := List.forall_mem_append.mp framable
        obtain ⟨others, framableOthers, rfl, same⟩ := ih _ shorter second kept rfl
        refine ⟨framing name inside others, forall_framing own first framableOthers, ?_, fun opened => ?_⟩
        · rw [markup_framing]
        · rw [nest_framing notVoid nested, tags, nest_append, nested]
          exact same opened

end Framed

/-! ### Inline text -/

theorem framable_atoms (part : Part) : ∀ tag ∈ Atom.tags part.atoms, Framable tag := by
  cases part with
  | glyph c => exact fun tag mem => absurd mem List.not_mem_nil
  | link label url =>
    intro tag mem
    rw [Part.atoms, Atom.tags_tag, Atom.tags_append, Atom.tags_map_glyph] at mem
    rcases List.mem_cons.mp mem with rfl | mem
    · rw [← Atom.markup_map_glyph]
      exact .link (Atom.forall_tags_map_glyph Bare url)
    · obtain rfl := List.mem_singleton.mp mem
      exact .bare ⟨"a".toList, by decide, .inr rfl⟩

theorem nest_atoms (part : Part) (opened : List (List Char)) :
    nest opened (Atom.tags part.atoms) = some opened := by
  cases part with
  | glyph c => exact nest_nil opened
  | link label url =>
    rw [Part.atoms, Atom.tags_tag, Atom.tags_append, Atom.tags_map_glyph, nest_opening _ _ _ (by decide)]
    exact (nest_closing opened []).trans (nest_nil opened)

theorem nest_parts (parts : List Part) (opened : List (List Char)) :
    nest opened (Atom.tags (parts.flatMap Part.atoms)) = some opened := by
  induction parts with
  | nil => exact nest_nil opened
  | cons part parts ih =>
    rw [List.flatMap_cons, Atom.tags_append, nest_append, nest_atoms]
    exact ih

theorem nestsIff_formatText {text : List Char} (whole : EnclosesWhole text) :
    NestsIff True (formatText text) := by
  obtain ⟨parts, _, linked⟩ := linked_applyRule text
  have framable : ∀ tag ∈ Atom.tags (parts.flatMap Part.atoms), Framable tag := by
    intro tag mem
    rw [Atom.tags, List.filterMap_flatMap] at mem
    obtain ⟨part, _, mem⟩ := List.mem_flatMap.mp mem
    exact framable_atoms part tag mem
  have inStrong := framed_applyRule encloses_strong whole.1
  have inEmphasis := framed_applyRule encloses_emphasis whole.2
  rw [linked] at inStrong inEmphasis
  obtain ⟨first, framable, strong, same⟩ := inStrong.exists_atoms (by decide) (by decide) framable
  rw [strong] at inEmphasis
  obtain ⟨second, framable, emphasis, again⟩ := inEmphasis.exists_atoms (by decide) (by decide) framable
  refine ⟨second, fun tag mem => (framable tag mem).sound, ?_, fun opened => ⟨fun _ => ?_, ?_⟩⟩
  · rw [formatText, linked, strong, emphasis]
  · rw [again, same, nest_parts]
  · exact fun wrong => absurd trivial wrong

def stretches (text : List Char) : List (List Char) :=
  (spans text).filterMap fun
    | .plain content => some content
    | .code _ => none

theorem nestsIff_render {text : List Char} (whole : ∀ stretch ∈ stretches text, EnclosesWhole stretch) :
    NestsIff True (render text) := by
  have each : ∀ span ∈ spans text, NestsIff True span.render := by
    intro span mem
    cases span with
    | plain content => exact nestsIff_formatText (whole content (List.mem_filterMap.mpr ⟨_, mem, rfl⟩))
    | code content =>
      rw [Span.render, inElement_eq]
      exact .element (Markdown.written_opening (by decide)).sound (by decide) (.escape content)
  exact (NestsIff.flatMap each).congr (by simp)

end Inline

namespace Markdown

/-! ### Blocks -/

def Block.inlineTexts : Block → List (List Char)
  | .heading _ text => [text]
  | .list items => items
  | .paragraph lines => [joinLines lines]
  | _ => []

theorem nestsIff_inElement {name : String} (listed : name.toList ∈ bareElements)
    (notVoid : name.toList ∉ Nesting.voidElements) (apart : name.toList ∉ Inline.inlineElements)
    (text : List Char) :
    NestsIff (checkNesting (Inline.render text) = .ok ()) (Inline.inElement name (Inline.render text)) := by
  obtain ⟨atoms, inline, markup⟩ := Inline.madeOf_render text
  rw [markup, Inline.inElement_eq]
  refine .of_element (written_opening listed).sound notVoid (fun tag mem => (inline tag mem).sound) ?_
  intro tag mem same
  obtain ⟨other, found, named⟩ := (inline tag mem).inline
  rw [same] at named
  exact apart (Option.some.inj named ▸ found)

theorem nestsIff_highlight {parse : Parse} {source html : List Char} {languageId : String}
    (shown : highlight parse source languageId = .ok html) : NestsIff True html := by
  obtain ⟨runs, _, markup⟩ := Token.highlight_eq_runs shown
  have each : ∀ run ∈ runs, NestsIff True run.markup := by
    intro run _
    obtain ⟨tokenClass, text⟩ := run
    cases tokenClass with
    | none => exact .escape text
    | some tokenClass =>
      rw [markup_run]
      exact .element (written_tokenClass tokenClass).sound (by decide) (.escape text)
  rw [markup]
  exact (NestsIff.flatMap each).congr (by simp)

theorem nestsIff_codeMarkup {parse : Parse} {info code html : List Char}
    (shown : codeMarkup (highlight parse) info code = .ok html) : NestsIff True html := by
  rcases codeMarkup_eq_ok shown with rfl | ⟨body, highlighted, rfl⟩
  all_goals refine .element (written_opening (by decide)).sound (by decide) ?_
  · exact .element (written_opening (by decide)).sound (by decide) (.escape code)
  · exact .element (written_languageClass _).sound (by decide) (nestsIff_highlight highlighted)

theorem nestsIff_block {parse : Parse} {block : Block} {html : List Char} (leveled : block.Leveled)
    (shown : block.render (highlight parse) = .ok html) :
    NestsIff (∀ line ∈ block.inlineTexts, checkNesting (Inline.render line) = .ok ()) html := by
  cases block with
  | code info lines => exact (nestsIff_codeMarkup shown).congr (by simp [Block.inlineTexts])
  | heading level text =>
    cases shown
    obtain ⟨least, most⟩ := leveled
    have levels : level = 1 ∨ level = 2 ∨ level = 3 ∨ level = 4 ∨ level = 5 ∨ level = 6 := by omega
    refine NestsIff.congr (by simp [Block.inlineTexts]) (nestsIff_inElement ?_ ?_ ?_ text)
    all_goals rcases levels with rfl | rfl | rfl | rfl | rfl | rfl <;> decide
  | thematicBreak =>
    cases shown
    have written : "<hr>".toList = Atom.markup [.tag (.opening "hr".toList [])] := by decide
    refine ⟨[.tag (.opening "hr".toList [])], fun tag mem => ?_, written, fun opened => ?_⟩
    · obtain rfl := List.mem_singleton.mp mem
      exact (written_opening (by decide)).sound
    · rw [Atom.tags_tag, nest_single _ _ _ (by decide)]
      exact ⟨fun _ => nest_nil opened, fun wrong => absurd (by simp [Block.inlineTexts]) wrong⟩
  | list items =>
    cases shown
    rw [Inline.inElement_eq]
    refine .element (written_opening (by decide)).sound (by decide) (.flatMap fun item _ => ?_)
    exact nestsIff_inElement (by decide) (by decide) (by decide) item
  | paragraph lines =>
    cases shown
    exact (nestsIff_inElement (by decide) (by decide) (by decide) (joinLines lines)).congr
      (by simp [Block.inlineTexts])

/-- The mark inside the address closes the strong emphasis, whose closing tag is lost in a value. -/
theorem swallowed_closing_tag :
    (render (highlight fun _ => .ok fun _ => none) "**[x](a**b)".toList).map checkNesting =
      .ok (.error (.wrongClosing 1 "p".toList "strong".toList)) := by
  decide +kernel

/-- A hover text is shown if its code is read. Its markup is then well nested just if that of each of its
inline texts is: blocks and fenced code never break it. It is so in particular where strong emphasis and
emphasis enclose only whole stretches. -/
theorem hover_markup_nested_iff (parse : Parse) (text : List Char) :
    ((∃ html, render (highlight parse) text = .ok html) ↔ ∀ block ∈ blocks text, block.Reads parse) ∧
    ∀ html, render (highlight parse) text = .ok html →
      (checkNesting html = .ok () ↔
        ∀ block ∈ blocks text, ∀ line ∈ block.inlineTexts, checkNesting (Inline.render line) = .ok ()) ∧
      ((∀ block ∈ blocks text, ∀ line ∈ block.inlineTexts, ∀ stretch ∈ Inline.stretches line,
          Inline.EnclosesWhole stretch) →
        checkNesting html = .ok ()) := by
  refine ⟨exists_render_iff parse text, fun html shown => ?_⟩
  obtain ⟨markup, each, rfl⟩ := render_eq_ok shown
  have nests : NestsIff _ ((blocks text).flatMap markup) :=
    .flatMap fun block mem => nestsIff_block (leveled_blocksFrom .nothing _ block mem) (each block mem)
  refine ⟨nests.checkNesting_iff, fun whole => nests.checkNesting_iff.mpr fun block mem line listed => ?_⟩
  exact (Inline.nestsIff_render (whole block mem line listed)).checkNesting_iff.mpr trivial

/-- A link in strong emphasis, and strong emphasis in emphasis. -/
def nestedText : List Char :=
  "See **[x](a_b_)**, *y **z** w* and `**` & <i>".toList

theorem hover_markup_nested_iff_nestedText :
    (∀ block ∈ blocks nestedText, ∀ line ∈ block.inlineTexts, ∀ stretch ∈ Inline.stretches line,
      Inline.EnclosesWhole stretch) ∧
    ∃ html, render (highlight fun _ => .ok fun _ => none) nestedText = .ok html ∧
      checkNesting html = .ok () := by
  have whole : ∀ block ∈ blocks nestedText, ∀ line ∈ block.inlineTexts, ∀ stretch ∈ Inline.stretches line,
      Inline.EnclosesWhole stretch := by decide +kernel
  obtain ⟨html, shown⟩ := exists_eq_ok
    (show (render (highlight fun _ => .ok fun _ => none) nestedText).isOk = true by decide)
  exact ⟨whole, html, shown, ((hover_markup_nested_iff _ nestedText).2 html shown).2 whole⟩

end Markdown

end CodeAtlas
