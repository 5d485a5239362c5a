import CodeAtlas.Proofs.Markup.Tags
import CodeAtlas.Proofs.Render.Highlighting
import CodeAtlas.Proofs.Text.Encoding
import CodeAtlas.Text.Lines

/-!
# Highlighted source shows the source

`shown` is what is left of markup without its tags and with its entities decoded. Highlighted source is a
sequence of marks, each the tag of a span or one character, so it shows the source, line by line, whatever
tree it was highlighted from.
-/

namespace CodeAtlas

namespace Markup

/-! ### What markup shows -/

/-- Markup without its tags: what goes from a `<` through the next `>` is left out. `inside` says whether a
tag is open at the start. -/
def dropTags (inside : Bool) : List Char → List Char
  | [] => []
  | c :: rest =>
    if inside then dropTags (c != '>') rest
    else if c = '<' then dropTags true rest
    else c :: dropTags false rest

/-- The text that markup shows. -/
def shown (markup : List Char) : List Char :=
  Decoder.unescape (dropTags false markup)

theorem dropTags_inside {inside : List Char} (free : '>' ∉ inside) (rest : List Char) :
    dropTags true (inside ++ '>' :: rest) = dropTags false rest := by
  induction inside with
  | nil => simp [dropTags]
  | cons c inside ih =>
    obtain ⟨different, free⟩ := not_or.mp (mt List.mem_cons.mpr free)
    have open' : (c != '>') = true := by simpa using Ne.symm different
    rw [List.cons_append, dropTags, if_pos rfl, open', ih free]

theorem dropTags_append_of_notMem {text : List Char} (free : '<' ∉ text) (rest : List Char) :
    dropTags false (text ++ rest) = text ++ dropTags false rest := by
  induction text with
  | nil => rfl
  | cons c text ih =>
    obtain ⟨different, free⟩ := not_or.mp (mt List.mem_cons.mpr free)
    rw [List.cons_append, dropTags, if_neg Bool.false_ne_true, if_neg (Ne.symm different), ih free,
      List.cons_append]

theorem bracket_notMem_escapeChar (c : Char) : '<' ∉ escapeChar c := by
  rw [← escape_singleton]
  exact Nesting.notMem_escape (by decide) [c]

end Markup

namespace Token

open Markup

/-! ### Marks -/

inductive Mark where
  | opening (tokenClass : TokenClass)
  | closing
  | char (c : Char)
  deriving DecidableEq

namespace Mark

def text : Mark → List Char
  | .opening tokenClass => Token.opening tokenClass
  | .closing => Token.closing
  | .char c => escapeChar c

def shown : Mark → List Char
  | .char c => [c]
  | _ => []

end Mark

def Run.marks (run : Run) : List Mark :=
  match run.tokenClass with
  | none => run.text.map .char
  | some tokenClass => .opening tokenClass :: (run.text.map .char ++ [.closing])

theorem Run.markup_eq_marks (run : Run) : run.markup = run.marks.flatMap Mark.text := by
  obtain ⟨tokenClass, text⟩ := run
  have chars : (text.map Mark.char).flatMap Mark.text = escape text := by
    rw [List.flatMap_map]
    rfl
  cases tokenClass with
  | none => exact chars.symm
  | some tokenClass =>
    simp only [markup, marks, wrap_some, List.flatMap_cons, List.flatMap_append, chars, List.flatMap_nil,
      List.append_nil, Mark.text]

theorem Run.text_eq_marks (run : Run) : run.text = run.marks.flatMap Mark.shown := by
  obtain ⟨tokenClass, text⟩ := run
  have chars : (text.map Mark.char).flatMap Mark.shown = text := by
    simp [List.flatMap_map, Mark.shown]
  cases tokenClass with
  | none => exact chars.symm
  | some tokenClass => simp [marks, List.flatMap_append, chars, Mark.shown]

variable {parse : Parse} {source html : List Char} {languageId : String}

theorem highlight_eq_marks (shows : highlight parse source languageId = .ok html) :
    ∃ marks : List Mark, marks.flatMap Mark.shown = source ∧ html = marks.flatMap Mark.text := by
  obtain ⟨runs, text, markup⟩ := highlight_eq_runs shows
  refine ⟨runs.flatMap Run.marks, ?_, ?_⟩
  · rw [List.flatMap_assoc, ← text]
    exact List.flatMap_congr fun run _ => run.text_eq_marks.symm
  · rw [List.flatMap_assoc, markup]
    exact List.flatMap_congr fun run _ => run.markup_eq_marks

/-! ### What marks show -/

theorem bracketed_opening (tokenClass : TokenClass) :
    ∃ inside, '>' ∉ inside ∧ opening tokenClass = '<' :: (inside ++ ['>']) := by
  refine ⟨"span class=\"".toList ++ tokenClass.style.toList ++ ['"'], ?_, ?_⟩
  · cases tokenClass <;> decide
  · cases tokenClass <;> rfl

theorem dropTags_mark (mark : Mark) (rest : List Char) :
    dropTags false (mark.text ++ rest) = escape mark.shown ++ dropTags false rest := by
  have tag : ∀ {inside}, '>' ∉ inside →
      dropTags false ('<' :: (inside ++ ['>']) ++ rest) = dropTags false rest := by
    intro inside free
    rw [List.cons_append, List.append_assoc, dropTags, if_neg Bool.false_ne_true, if_pos rfl]
    exact dropTags_inside free rest
  cases mark with
  | opening tokenClass =>
    obtain ⟨inside, free, shape⟩ := bracketed_opening tokenClass
    rw [Mark.text, shape, tag free]
    rfl
  | closing =>
    have free : '>' ∉ "/span".toList := by decide
    exact tag free
  | char c =>
    rw [Mark.text, dropTags_append_of_notMem (bracket_notMem_escapeChar c), Mark.shown,
      escape_singleton]

theorem dropTags_marks (marks : List Mark) :
    dropTags false (marks.flatMap Mark.text) = escape (marks.flatMap Mark.shown) := by
  induction marks with
  | nil => rfl
  | cons mark marks ih => rw [List.flatMap_cons, dropTags_mark, ih, List.flatMap_cons, escape_append]

theorem shown_marks (marks : List Mark) :
    shown (marks.flatMap Mark.text) = marks.flatMap Mark.shown := by
  rw [shown, dropTags_marks, Decoder.unescape_escape]

/-! ### Lines -/

/-- Cutting at newlines is the same before and after the marks are written out. -/
theorem pieces_flatMap_marks {write : Mark → List Char} (newline : write (.char '\n') = ['\n'])
    (others : ∀ mark, mark ≠ .char '\n' → '\n' ∉ write mark) (marks : List Mark) :
    Text.pieces (marks.flatMap write) = (marks.splitOn (.char '\n')).map (·.flatMap write) := by
  unfold Text.pieces
  induction marks with
  | nil => rfl
  | cons mark marks ih =>
    rw [List.flatMap_cons, List.splitOn_cons_eq_if_modifyHead]
    by_cases ends : mark = .char '\n'
    · subst ends
      rw [newline, List.singleton_append, List.splitOn_cons_eq_if_modifyHead, ih]
      simp
    · rw [Text.splitOn_append_of_notMem (others mark ends), ih, if_neg (by simpa using ends)]
      cases marks.splitOn (.char '\n') with
      | nil => rfl
      | cons line lines => simp

theorem newline_notMem_text {mark : Mark} (different : mark ≠ .char '\n') : '\n' ∉ mark.text := by
  cases mark with
  | opening tokenClass => cases tokenClass <;> decide
  | closing => decide
  | char c =>
    have other : c ≠ '\n' := fun same => different (same ▸ rfl)
    rw [Mark.text]
    unfold escapeChar
    split <;> first | decide | simpa using Ne.symm other

theorem pieces_shown_marks (marks : List Mark) :
    (Text.pieces (marks.flatMap Mark.text)).map shown = Text.pieces (marks.flatMap Mark.shown) := by
  have newline : ∀ mark : Mark, mark ≠ .char '\n' → '\n' ∉ mark.shown := by
    intro mark different
    cases mark with
    | char c =>
      have other : c ≠ '\n' := fun same => different (same ▸ rfl)
      simpa [Mark.shown] using Ne.symm other
    | _ => simp [Mark.shown]
  rw [pieces_flatMap_marks rfl fun _ => newline_notMem_text, pieces_flatMap_marks rfl newline, List.map_map]
  exact List.map_congr_left fun line _ => shown_marks line

/-! ### Entities -/

def entities : List (List Char) :=
  ["&amp;", "&lt;", "&gt;", "&quot;", "&#39;"].map String.toList

theorem escapeChar_cases (c : Char) :
    (escapeChar c = [c] ∧ c ≠ '&') ∨
      ∃ body, escapeChar c = '&' :: body ∧ '&' ∉ body ∧ '&' :: body ∈ entities := by
  unfold escapeChar
  split
  · exact .inr ⟨"amp;".toList, rfl, by decide, by decide⟩
  · exact .inr ⟨"lt;".toList, rfl, by decide, by decide⟩
  · exact .inr ⟨"gt;".toList, rfl, by decide, by decide⟩
  · exact .inr ⟨"quot;".toList, rfl, by decide, by decide⟩
  · exact .inr ⟨"#39;".toList, rfl, by decide, by decide⟩
  · rename_i notEntity _ _ _ _
    exact .inl ⟨rfl, notEntity⟩

theorem entity_of_text_eq {mark : Mark} {before behind : List Char}
    (split : mark.text = before ++ '&' :: behind) : before = [] ∧ '&' :: behind ∈ entities := by
  cases mark with
  | opening tokenClass =>
    have free : '&' ∉ opening tokenClass := by cases tokenClass <;> decide
    rw [Mark.text] at split
    simp [split] at free
  | closing =>
    have free : '&' ∉ closing := by decide
    rw [Mark.text] at split
    simp [split] at free
  | char c =>
    rw [Mark.text] at split
    rcases escapeChar_cases c with ⟨plain, different⟩ | ⟨body, entity, free, mem⟩
    · rw [plain] at split
      cases before with
      | nil => exact absurd (List.cons.inj split).1 different
      | cons d before => simp at split
    · rw [entity] at split
      cases before with
      | nil =>
        rw [← List.nil_append ('&' :: behind), ← split]
        exact ⟨rfl, mem⟩
      | cons d before =>
        rw [(List.cons.inj split).2] at free
        simp at free

/-- An `&` in highlighted source starts an entity that escaping writes. -/
theorem entity_of_suffix {marks : List Mark} {rest : List Char}
    (ends : '&' :: rest <:+ marks.flatMap Mark.text) : ∃ entity ∈ entities, entity <+: '&' :: rest := by
  induction marks with
  | nil => simp at ends
  | cons mark marks ih =>
    obtain ⟨before, same⟩ := ends
    rw [List.flatMap_cons] at same
    rcases List.append_eq_append_iff.mp same with ⟨between, text, tail⟩ | ⟨between, _, tail⟩
    · cases between with
      | nil => exact ih ⟨[], tail⟩
      | cons c between =>
        obtain ⟨rfl, rfl⟩ := List.cons.inj tail
        obtain ⟨rfl, mem⟩ := entity_of_text_eq text
        exact ⟨_, mem, List.prefix_append _ _⟩
    · exact ih ⟨between, tail.symm⟩

/-! ### Tags -/

def spanOf (tokenClass : TokenClass) : List Piece :=
  [.tag (opening tokenClass), .tag closing]

theorem Run.tags_units (run : Run) :
    run.units.filter Piece.isTag = run.tokenClass.toList.flatMap spanOf := by
  obtain ⟨tokenClass, text⟩ := run
  have none : (text.map escapedUnit).filter Piece.isTag = [] := by
    simp [List.filter_map, isTag_escapedUnit]
  cases tokenClass with
  | none => exact none
  | some tokenClass => simp [units, List.filter_cons, none, Piece.isTag, spanOf]

theorem tags_highlight (shows : highlight parse source languageId = .ok html) :
    ∃ classes : List TokenClass, (pieces html).filter Piece.isTag = classes.flatMap spanOf := by
  obtain ⟨runs, _, markup⟩ := highlight_eq_runs shows
  refine ⟨runs.flatMap fun run => run.tokenClass.toList, ?_⟩
  rw [markup, (cut_runs runs).pieces_eq, List.filter_flatMap, List.flatMap_assoc]
  exact List.flatMap_congr fun run _ => run.tags_units

theorem newline_notMem_of_mem_spanOf {tokenClass : TokenClass} {tag : Piece}
    (mem : tag ∈ spanOf tokenClass) : '\n' ∉ tag.text := by
  have starts : '\n' ∉ (Mark.opening tokenClass).text := newline_notMem_text (by simp)
  have ends : '\n' ∉ Mark.closing.text := newline_notMem_text (by simp)
  rcases List.mem_pair.mp mem with rfl | rfl
  · exact starts
  · exact ends

/-- Source is highlighted if it gets a tree or needs none. Highlighted source has no tags but those of spans,
each closed before the next one opens, and none of them has a newline. Every `&` in it starts an entity that
escaping writes. Without the tags it is the escaped source, and line by line it shows the source. -/
theorem highlight_shows_source (parse : Parse) (source : List Char) (languageId : String) :
    ((∃ html, highlight parse source languageId = .ok html) ↔ parse.Reads source languageId) ∧
    ∀ html, highlight parse source languageId = .ok html →
      (∃ classes : List TokenClass, (pieces html).filter Piece.isTag =
        classes.flatMap fun tokenClass => [.tag (opening tokenClass), .tag closing]) ∧
      (∀ tag ∈ (pieces html).filter Piece.isTag, '\n' ∉ tag.text) ∧
      (∀ rest, '&' :: rest <:+ html → ∃ entity ∈ entities, entity <+: '&' :: rest) ∧
      dropTags false html = escape source ∧ shown html = source ∧
      (Text.pieces html).map shown = Text.pieces source := by
  refine ⟨exists_highlight_iff parse source languageId, fun html shows => ?_⟩
  obtain ⟨classes, tags⟩ := tags_highlight shows
  obtain ⟨marks, text, markup⟩ := highlight_eq_marks shows
  refine ⟨⟨classes, tags⟩, ?_, ?_, ?_, ?_, ?_⟩
  · intro tag mem
    rw [tags] at mem
    obtain ⟨tokenClass, _, inside⟩ := List.mem_flatMap.mp mem
    exact newline_notMem_of_mem_spanOf inside
  · rw [markup]
    exact fun rest => entity_of_suffix
  · rw [markup, dropTags_marks, text]
  · rw [markup, shown_marks, text]
  · rw [markup, pieces_shown_marks, text]

end Token

end CodeAtlas
