import CodeAtlas.Proofs.Markup.Placement
import CodeAtlas.Proofs.Text.Bytes
import CodeAtlas.Render.Token

/-!
# Highlighting keeps the text

Highlighted source is a sequence of runs, each a stretch of the source that is escaped and perhaps put
in a span. Weaving cuts the runs as they were written, so the spans have no influence on where an
insertion lands.
-/

namespace CodeAtlas

/-- The source gets a parse tree, unless its language has no grammar and it needs none. -/
def Parse.Reads (parse : Parse) (source : List Char) (languageId : String) : Prop :=
  ∀ language, Language.ofId? languageId = some language →
    ∃ trees, parse language = .ok trees ∧ ∃ tree, trees source = some tree

namespace Token

open Markup

/-! ### Spans -/

def opening (tokenClass : TokenClass) : List Char :=
  "<span class=\"".toList ++ tokenClass.style.toList ++ "\">".toList

def closing : List Char :=
  "</span>".toList

theorem wrap_none (text : List Char) : wrap none text = text := rfl

theorem wrap_some (tokenClass : TokenClass) (text : List Char) :
    wrap (some tokenClass) text = opening tokenClass ++ (text ++ closing) :=
  List.append_assoc (opening tokenClass) text closing

def spanTags : List Piece :=
  .tag closing ::
    [TokenClass.comment, .string, .constant, .keyword, .number, .type, .function].map
      fun tokenClass => .tag (opening tokenClass)

theorem opening_mem_spanTags (tokenClass : TokenClass) : .tag (opening tokenClass) ∈ spanTags :=
  List.mem_cons_of_mem _ (List.mem_map_of_mem (by cases tokenClass <;> decide))

theorem closing_mem_spanTags : .tag closing ∈ spanTags :=
  List.mem_cons_self

theorem isTag_of_mem_spanTags {unit : Piece} (mem : unit ∈ spanTags) : unit.isTag = true := by
  rcases List.mem_cons.mp mem with rfl | opens
  · rfl
  · obtain ⟨_, _, rfl⟩ := List.mem_map.mp opens
    rfl

theorem cut_opening (tokenClass : TokenClass) {rest : List Char} {units : List Piece}
    (cut : Cut rest units) :
    Cut (opening tokenClass ++ rest) (.tag (opening tokenClass) :: units) := by
  obtain ⟨inside, free, shape⟩ : ∃ inside, '>' ∉ inside ∧
      opening tokenClass = '<' :: (inside ++ ['>']) := by
    refine ⟨"span class=\"".toList ++ tokenClass.style.toList ++ ['"'], ?_, ?_⟩
    · cases tokenClass <;> decide
    · cases tokenClass <;> rfl
  rw [shape]
  simpa using Cut.closedTag free cut

theorem cut_closing {rest : List Char} {units : List Piece} (cut : Cut rest units) :
    Cut (closing ++ rest) (.tag closing :: units) := by
  have free : '>' ∉ "/span".toList := by decide
  exact Cut.closedTag free cut

/-! ### Runs -/

/-- A stretch of the source that is written in one go. -/
structure Run where
  tokenClass : Option TokenClass
  text : List Char

def Run.markup (run : Run) : List Char :=
  wrap run.tokenClass (escape run.text)

/-- The runs are what is written so far, and their texts are the source up to the rest. -/
structure Rendering.Covers (r : Rendering) (source : List Char) (runs : List Run) : Prop where
  written : r.written.reverse = runs.flatMap Run.markup
  text : runs.flatMap Run.text ++ r.rest = source

theorem Rendering.step_covers {r : Rendering} {source : List Char} {runs : List Run}
    (covers : r.Covers source runs) (size : Nat) (token : Token) :
    ∃ runs, (r.step size token).Covers source runs := by
  obtain ⟨written, text⟩ := covers
  unfold step
  split
  · exact ⟨runs, written, text⟩
  · generalize first : Text.splitBytes (token.start - r.position) r.rest = gap
    obtain ⟨gap, rest⟩ := gap
    dsimp only
    generalize second : Text.splitBytes (token.stop - token.start) rest = inner
    obtain ⟨inner, tail⟩ := inner
    have outer : gap ++ rest = r.rest := by
      rw [← Text.splitBytes_append (token.start - r.position) r.rest, first]
    have inside : inner ++ tail = rest := by
      rw [← Text.splitBytes_append (token.stop - token.start) rest, second]
    refine ⟨runs ++ [⟨none, gap⟩, ⟨token.classify (String.ofList inner), inner⟩], ?_, ?_⟩
    · simp only [List.reverseAux_eq, List.reverse_append, List.reverse_reverse, written,
        List.flatMap_append, List.flatMap_cons, List.flatMap_nil, List.append_nil, Run.markup,
        wrap_none, List.append_assoc]
    · rw [← text, ← outer, ← inside]
      simp

theorem Rendering.foldl_covers {r : Rendering} {source : List Char} {runs : List Run}
    (covers : r.Covers source runs) (size : Nat) (tokens : List Token) :
    ∃ runs, (tokens.foldl (step size) r).Covers source runs := by
  induction tokens generalizing r runs with
  | nil => exact ⟨runs, covers⟩
  | cons token tokens ih =>
    obtain ⟨_, next⟩ := step_covers covers size token
    exact ih next

theorem render_eq_runs (source : List Char) (tokens : List Token) :
    ∃ runs : List Run, runs.flatMap Run.text = source ∧
      render source tokens = runs.flatMap Run.markup := by
  have start : Rendering.Covers ⟨0, source, []⟩ source [] := ⟨rfl, rfl⟩
  obtain ⟨runs, written, text⟩ := Rendering.foldl_covers start (Text.byteLength source) tokens
  rw [render]
  generalize tokens.foldl (Rendering.step (Text.byteLength source)) ⟨0, source, []⟩ = last
    at written text
  refine ⟨runs ++ [⟨none, last.rest⟩], ?_, ?_⟩
  · rw [← text]
    simp
  · rw [written, List.flatMap_append]
    simp [Run.markup, wrap_none]

theorem exists_highlight_iff (parse : Parse) (source : List Char) (languageId : String) :
    (∃ html, highlight parse source languageId = .ok html) ↔ parse.Reads source languageId := by
  unfold highlight Parse.Reads
  cases Language.ofId? languageId with
  | none => simp
  | some language =>
    cases set : parse language with
    | error reason => simp [set]
    | ok trees => cases had : trees source <;> simp [set, had]

/-- Highlighted source is the source cut into runs, whatever the tree says. -/
theorem highlight_eq_runs {parse : Parse} {source html : List Char} {languageId : String}
    (shown : highlight parse source languageId = .ok html) :
    ∃ runs : List Run, runs.flatMap Run.text = source ∧ html = runs.flatMap Run.markup := by
  unfold highlight at shown
  split at shown
  · cases shown
    exact ⟨[⟨none, source⟩], by simp, by simp [Run.markup, wrap_none]⟩
  · split at shown
    · cases shown
    · split at shown
      · cases shown
      · cases shown
        exact render_eq_runs source _

def Run.units (run : Run) : List Piece :=
  match run.tokenClass with
  | none => run.text.map escapedUnit
  | some tokenClass =>
    .tag (opening tokenClass) :: (run.text.map escapedUnit ++ [.tag closing])

theorem Run.cut_markup (run : Run) {rest : List Char} {units : List Piece} (cut : Cut rest units) :
    Cut (run.markup ++ rest) (run.units ++ units) := by
  obtain ⟨tokenClass, text⟩ := run
  cases tokenClass with
  | none => exact cut_escape text cut
  | some tokenClass =>
    have whole := cut_opening tokenClass (cut_escape text (cut_closing cut))
    simpa only [Run.markup, Run.units, wrap_some, List.append_assoc, List.cons_append,
      List.nil_append] using whole

theorem cut_runs (runs : List Run) : Cut (runs.flatMap Run.markup) (runs.flatMap Run.units) := by
  induction runs with
  | nil => exact .nil
  | cons run runs ih => exact run.cut_markup ih

theorem escapedUnit_not_mem_spanTags (c : Char) : escapedUnit c ∉ spanTags := by
  intro mem
  have tag := isTag_of_mem_spanTags mem
  unfold escapedUnit at tag
  split at tag <;> cases tag

/-- Without its tags a run is its text, escaped. -/
theorem Run.units_filter (run : Run) :
    run.units.filter (· ∉ spanTags) = run.text.map escapedUnit := by
  have kept : (run.text.map escapedUnit).filter (· ∉ spanTags) = run.text.map escapedUnit := by
    rw [List.filter_eq_self]
    intro unit mem
    obtain ⟨c, _, rfl⟩ := List.mem_map.mp mem
    simpa using escapedUnit_not_mem_spanTags c
  obtain ⟨tokenClass, text⟩ := run
  cases tokenClass with
  | none => exact kept
  | some tokenClass =>
    rw [Run.units, List.filter_cons_of_neg (by simpa using opening_mem_spanTags tokenClass),
      List.filter_append, kept, List.filter_cons_of_neg (by simpa using closing_mem_spanTags)]
    simp

theorem runs_filter (runs : List Run) :
    (runs.flatMap Run.units).filter (· ∉ spanTags) = (runs.flatMap Run.text).map escapedUnit := by
  rw [List.filter_flatMap, List.map_flatMap]
  exact congrArg (List.flatMap · runs) (funext Run.units_filter)

/-- Source is highlighted if it gets a tree or needs none. Highlighting moves no insertion: where the woven
fragments of highlighted source lose the tags of its spans, those of the escaped source are left. -/
theorem weave_highlight (parse : Parse) (source : List Char) (languageId : String)
    (insertions : List Insertion) :
    ((∃ html, highlight parse source languageId = .ok html) ↔ parse.Reads source languageId) ∧
    ∀ html, highlight parse source languageId = .ok html →
      ∃ fragments, Woven html insertions fragments ∧
        fragments.flatMap Fragment.text = weave html insertions ∧
        Woven (escape source) insertions (keepUnits (· ∉ spanTags) fragments) ∧
        (keepUnits (· ∉ spanTags) fragments).flatMap Fragment.text =
          weave (escape source) insertions := by
  refine ⟨exists_highlight_iff parse source languageId, fun html shown => ?_⟩
  obtain ⟨runs, text, markup⟩ := highlight_eq_runs shown
  have onlyTags : ∀ unit : Piece, decide (unit ∉ spanTags) = false → unit.isTag = true := by
    intro unit left
    exact isTag_of_mem_spanTags (by simpa using left)
  have plain : pieces (escape source) = source.map escapedUnit := by
    simpa using (cut_escape source .nil).pieces_eq
  have kept : keepUnits (· ∉ spanTags)
      (interleave [] (insertions.mergeSort Insertion.before) (pieces html)) =
      interleave [] (insertions.mergeSort Insertion.before) (pieces (escape source)) := by
    rw [keepUnits_interleave onlyTags, markup, (cut_runs runs).pieces_eq, runs_filter, text, plain]
    rfl
  refine ⟨_, woven_iff.mpr rfl, (weave_eq_interleave _ _).symm, ?_, ?_⟩
  · rw [kept]
    exact woven_iff.mpr rfl
  · rw [kept, weave_eq_interleave]

end Token

end CodeAtlas
