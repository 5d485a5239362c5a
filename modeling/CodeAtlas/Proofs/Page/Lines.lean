import CodeAtlas.Proofs.Markup.Tags
import CodeAtlas.Proofs.Page.Balance
import CodeAtlas.Proofs.Render.Fences
import CodeAtlas.Proofs.Symbol.Wrapping
import CodeAtlas.Proofs.Text.Bytes
import CodeAtlas.Proofs.Text.Encoding
import CodeAtlas.Source

/-!
# Lines of a source and of its page

Three things on a page count lines: the source text, the walk that weaves insertions into its markup, and
the numbers beside it. Each is described by the pieces between the newlines of the text, entry by entry, so
that all three have the same lines.
-/

namespace CodeAtlas

/-! ### Pieces of a text -/

namespace Text

def length16 (text : List Char) : Nat :=
  text.foldr (fun c units => units16 c + units) 0

theorem dropReturn_eq_iff {piece line : List Char} :
    dropReturn piece = line ↔ piece = line ++ ['\r'] ∨ piece = line ∧ ¬ ['\r'] <:+ piece := by
  unfold dropReturn
  split
  · rename_i closed
    obtain ⟨front, rfl⟩ := List.getLast?_eq_some_iff.mp closed
    simp
  · rename_i unclosed
    have plain : ¬ ['\r'] <:+ piece := by
      rintro ⟨front, rfl⟩
      simp at unclosed
    constructor
    · rintro rfl
      exact .inr ⟨rfl, plain⟩
    · rintro (rfl | ⟨rfl, _⟩)
      · simp at unclosed
      · rfl

/-- A map that sends the separator, and nothing else, to a separator keeps the parts. -/
theorem splitOn_map {α β : Type} [BEq α] [LawfulBEq α] [BEq β] [LawfulBEq β] {f : α → β} {sep : α}
    {image : β} (only : ∀ item, f item = image ↔ item = sep) (items : List α) :
    (items.map f).splitOn image = (items.splitOn sep).map (List.map f) := by
  induction items with
  | nil => rfl
  | cons item items ih =>
    rw [List.map_cons, List.splitOn_cons_eq_if_modifyHead, List.splitOn_cons_eq_if_modifyHead, ih]
    by_cases same : item = sep
    · simp [same, (only sep).mpr rfl]
    · have other : f item ≠ image := fun equal => same ((only item).mp equal)
      obtain ⟨first, others, split⟩ := List.exists_cons_of_ne_nil (List.splitOn_ne_nil sep items)
      simp [same, other, split]

end Text

namespace SourceText

theorem length_startsAfter (start : Nat) (text : List Char) :
    (startsAfter start text).length = text.count '\n' := by
  induction text generalizing start with
  | nil => rfl
  | cons c text ih =>
    unfold startsAfter
    by_cases newline : c = '\n'
    · simp [newline, ih]
    · simp [newline, ih]

theorem lineCount_ofText (text : List Char) : (ofText text).lineCount = text.count '\n' + 1 := by
  unfold lineCount ofText
  rw [List.size_toArray, List.length_cons, length_startsAfter]

/-- What stands in `text` from the place with the given number up to the byte before the next one. -/
def between? (text : List Char) (starts : List Nat) (number : Nat) : Option (List Char) :=
  starts[number]?.bind fun start =>
    Text.slice? text start ((starts[number + 1]?.map (· - 1)).getD (Text.byteLength text))

theorem line?_eq (source : SourceText) (i : Nat) :
    source.line? i = (between? source.text source.lineStarts.toList i).map Text.dropReturn := by
  unfold line? between?
  rw [Array.getElem?_toList, Array.getElem?_toList]
  cases source.lineStarts[i]? with
  | none => rfl
  | some start => exact Option.map_eq_bind.symm

/-- The places after the newlines cut the text into its pieces. The first `front` is passed, and of the
current line `line` is passed as well. -/
theorem between?_startsAfter (front line text : List Char) (flat : '\n' ∉ line) (i : Nat) :
    between? (front ++ (line ++ text))
        (Text.byteLength front :: startsAfter (Text.byteLength (front ++ line)) text) i =
      (Text.pieces (line ++ text))[i]? := by
  induction text generalizing front line i with
  | nil =>
    rw [List.append_nil, Text.pieces_of_notMem flat]
    cases i with
    | zero =>
      have whole := Text.slice?_append front line []
      rw [List.append_nil, ← Text.byteLength_append] at whole
      simpa [between?, startsAfter] using whole
    | succ i => simp [between?, startsAfter]
  | cons c text ih =>
    by_cases newline : c = '\n'
    · subst newline
      have next : Text.byteLength (front ++ line) + '\n'.utf8Size =
          Text.byteLength (front ++ line ++ ['\n']) := by
        rw [Text.byteLength_append _ ['\n']]
        rfl
      have starts : startsAfter (Text.byteLength (front ++ line)) ('\n' :: text) =
          Text.byteLength (front ++ line ++ ['\n']) ::
            startsAfter (Text.byteLength (front ++ line ++ ['\n'])) text := by
        rw [startsAfter, if_pos rfl, next]
      have pieces : Text.pieces (line ++ '\n' :: text) = line :: Text.pieces text := by
        rw [Text.pieces_append_newline, Text.pieces_of_notMem flat]
        rfl
      rw [starts, pieces]
      cases i with
      | zero =>
        have stop : Text.byteLength (front ++ line ++ ['\n']) - 1 =
            Text.byteLength front + Text.byteLength line := by
          rw [← next, Text.byteLength_append]
          rfl
        have first := Text.slice?_append front line ('\n' :: text)
        rw [← stop] at first
        exact first
      | succ i =>
        have later := ih (front ++ line ++ ['\n']) [] (by simp) i
        rw [List.append_nil, List.nil_append] at later
        rw [List.getElem?_cons_succ, ← later]
        simp [between?]
    · have starts : startsAfter (Text.byteLength (front ++ line)) (c :: text) =
          startsAfter (Text.byteLength (front ++ (line ++ [c]))) text := by
        rw [startsAfter, if_neg newline, ← List.append_assoc, Text.byteLength_append _ [c]]
        rfl
      have later := ih front (line ++ [c]) (by simpa [newline] using ⟨flat, Ne.symm newline⟩) i
      rw [starts]
      simpa using later

theorem line?_ofText (text : List Char) (i : Nat) :
    (ofText text).line? i = (Text.pieces text)[i]?.map Text.dropReturn := by
  have cut := between?_startsAfter [] [] text (by simp) i
  rw [List.nil_append, List.nil_append] at cut
  rw [line?_eq, ← cut]
  rfl

end SourceText

namespace Markup

/-! ### The walk, line by line -/

namespace Weaving

/-- The states that weaving goes through, the first before the first unit and the last after the last. -/
def course (w : Weaving) (units : List Piece) : List Weaving :=
  units.scanl step w

/-- The units that are passed on a line, but for the newline that ends it. -/
def unitsOn (w : Weaving) (units : List Piece) (line : Nat) : List Piece :=
  ((units.zip (w.course units)).filter fun passed =>
    passed.2.line == line && passed.1 != .newline).map Prod.fst

/-- The column that is reached on a line in the end. -/
def lastColumn? (w : Weaving) (units : List Piece) (line : Nat) : Option Nat :=
  ((w.course units).filter fun state => state.line == line).getLast?.map column

theorem step_newline (w : Weaving) :
    (w.step .newline).line = w.line + 1 ∧ (w.step .newline).column = 0 :=
  ⟨rfl, rfl⟩

theorem step_of_ne_newline (w : Weaving) {unit : Piece} (other : unit ≠ .newline) :
    (w.step unit).line = w.line ∧ (w.step unit).column = w.column + unit.columns := by
  cases unit with
  | newline => exact absurd rfl other
  | tag text => exact ⟨rfl, rfl⟩
  | entity body => exact ⟨rfl, rfl⟩
  | glyph c => exact ⟨rfl, rfl⟩

/-- The walk does not go back, and each newline takes it one line on. -/
theorem line_of_mem_course {w state : Weaving} {units : List Piece} (mem : state ∈ w.course units) :
    w.line ≤ state.line ∧ state.line ≤ w.line + units.count .newline := by
  unfold course at mem
  induction units generalizing w with
  | nil =>
    obtain rfl := List.mem_singleton.mp mem
    exact ⟨Nat.le_refl _, Nat.le_add_right _ _⟩
  | cons unit units ih =>
    rw [List.scanl_cons] at mem
    rcases List.mem_cons.mp mem with rfl | later
    · exact ⟨Nat.le_refl _, Nat.le_add_right _ _⟩
    · obtain ⟨least, most⟩ := ih later
      by_cases newline : unit = .newline
      · subst newline
        have next := w.step_newline.1
        rw [List.count_cons_self]
        omega
      · have same := (w.step_of_ne_newline newline).1
        rw [List.count_cons_of_ne newline]
        omega

theorem unitsOn_cons (w : Weaving) (unit : Piece) (units : List Piece) (line : Nat) :
    w.unitsOn (unit :: units) line =
      (if w.line = line ∧ unit ≠ .newline then [unit] else []) ++ (w.step unit).unitsOn units line := by
  unfold unitsOn course
  rw [List.scanl_cons, List.zip_cons_cons, List.filter_cons]
  split <;> simp_all

theorem unitsOn_of_lt {w : Weaving} {line : Nat} (passed : line < w.line) (units : List Piece) :
    w.unitsOn units line = [] := by
  unfold unitsOn
  rw [List.map_eq_nil_iff, List.filter_eq_nil_iff]
  rintro ⟨unit, state⟩ mem
  have later := (line_of_mem_course (List.of_mem_zip mem).2).1
  have different : state.line ≠ line := by omega
  simp [different]

theorem lastColumn?_cons (w : Weaving) (unit : Piece) (units : List Piece) (line : Nat) :
    w.lastColumn? (unit :: units) line =
      ((w.step unit).lastColumn? units line).or (if w.line = line then some w.column else none) := by
  unfold lastColumn? course
  rw [List.scanl_cons, List.filter_cons]
  by_cases here : w.line = line
  · simp only [here, beq_self_eq_true, if_true, List.getLast?_cons, Option.map_some]
    cases ((units.scanl step (w.step unit)).filter fun state => state.line == line).getLast? <;> rfl
  · simp [here]

theorem lastColumn?_of_lt {w : Weaving} {line : Nat} (passed : line < w.line) (units : List Piece) :
    w.lastColumn? units line = none := by
  unfold lastColumn?
  rw [Option.map_eq_none_iff, List.getLast?_eq_none_iff, List.filter_eq_nil_iff]
  intro state mem
  have later := (line_of_mem_course mem).1
  have different : state.line ≠ line := by omega
  simp [different]

def width (units : List Piece) : Nat :=
  units.foldr (fun unit columns => unit.columns + columns) 0

/-- The walk counts on a line what stands between two newlines, and gets to the column that this takes. -/
theorem line_spec (w : Weaving) {units line : List Piece} {k : Nat}
    (found : (units.splitOn .newline)[k]? = some line) :
    w.unitsOn units (w.line + k) = line ∧
      w.lastColumn? units (w.line + k) = some ((if k = 0 then w.column else 0) + width line) := by
  -- Along the units, `k` counts the newlines that are still to come before the line.
  induction units generalizing w k line with
  | nil =>
    cases k with
    | zero =>
      cases found
      exact ⟨rfl, by simp [lastColumn?, course, width]⟩
    | succ k => simp at found
  | cons unit units ih =>
    rw [List.splitOn_cons_eq_if_modifyHead] at found
    rw [unitsOn_cons, lastColumn?_cons]
    by_cases newline : unit = .newline
    · subst newline
      obtain ⟨next, column⟩ := w.step_newline
      rw [if_pos (by simp)] at found
      cases k with
      | zero =>
        cases found
        have past : w.line + 0 < (w.step .newline).line := by omega
        rw [unitsOn_of_lt past, lastColumn?_of_lt past]
        simp [width]
      | succ k =>
        obtain ⟨passed, reached⟩ := ih (w.step .newline) found
        rw [next, Nat.add_assoc, Nat.add_comm 1 k] at passed reached
        rw [passed, reached, column]
        simp
    · obtain ⟨same, column⟩ := w.step_of_ne_newline newline
      rw [if_neg (by simpa using newline)] at found
      obtain ⟨first, others, split⟩ := List.exists_cons_of_ne_nil (List.splitOn_ne_nil .newline units)
      rw [split, List.modifyHead_cons] at found
      cases k with
      | zero =>
        cases found
        have here : (units.splitOn .newline)[0]? = some first := by rw [split]; rfl
        obtain ⟨passed, reached⟩ := ih (w.step unit) here
        rw [same] at passed reached
        rw [passed, reached, column]
        simp [newline, width, Nat.add_assoc]
      | succ k =>
        have later : (units.splitOn .newline)[k + 1]? = some line := by rw [split]; exact found
        obtain ⟨passed, reached⟩ := ih (w.step unit) later
        rw [same] at passed reached
        rw [passed, reached]
        simp

end Weaving

def startOf (insertions : List Insertion) : Weaving :=
  ⟨0, 0, insertions.mergeSort Insertion.before, []⟩

/-- `weave` gives what is written in the last state of its course. -/
theorem getLast?_course (markup : List Char) (insertions : List Insertion) :
    ((startOf insertions).course (pieces markup)).getLast?.map
        (fun w => (w.flush fun _ => true).written.reverse) =
      some (weave markup insertions) := by
  unfold Weaving.course
  rw [List.getLast?_scanl]
  rfl

theorem width_map_escapedUnit {text : List Char} (flat : '\n' ∉ text) :
    Weaving.width (text.map escapedUnit) = Text.length16 text := by
  unfold Weaving.width Text.length16
  induction text with
  | nil => rfl
  | cons c text ih =>
    obtain ⟨different, rest⟩ := not_or.mp (mt List.mem_cons.mpr flat)
    rw [List.map_cons, List.foldr_cons, List.foldr_cons, ih rest, columns_escapedUnit (Ne.symm different)]

theorem unescape_text_escapedUnit (c : Char) : Decoder.unescape (escapedUnit c).text = [c] := by
  rw [text_escapedUnit, ← escape_singleton, Decoder.unescape_escape]

/-- On a line of escaped text, weaving counts the units of that line's characters. -/
theorem line_escape (insertions : List Insertion) {text piece : List Char} {i : Nat}
    (found : (Text.pieces text)[i]? = some piece) :
    (startOf insertions).unitsOn (pieces (escape text)) i = piece.map escapedUnit ∧
      (startOf insertions).lastColumn? (pieces (escape text)) i = some (Text.length16 piece) := by
  have split : ((pieces (escape text)).splitOn .newline)[i]? = some (piece.map escapedUnit) := by
    rw [pieces_escape, Text.splitOn_map escapedUnit_eq_newline_iff, List.getElem?_map]
    exact congrArg _ found
  have flat : '\n' ∉ piece := Text.notMem_of_mem_splitOn (List.mem_of_getElem? found)
  obtain ⟨passed, reached⟩ := (startOf insertions).line_spec split
  have start : (startOf insertions).line + i = i := Nat.zero_add i
  have left : (startOf insertions).column = 0 := rfl
  rw [start] at passed reached
  rw [left, ite_self, Nat.zero_add, width_map_escapedUnit flat] at reached
  exact ⟨passed, reached⟩

/-- Over escaped text, weaving gets to just the lines that the text has. -/
theorem isSome_lastColumn?_escape (insertions : List Insertion) (text : List Char) (i : Nat) :
    ((startOf insertions).lastColumn? (pieces (escape text)) i).isSome = true ↔
      i < text.count '\n' + 1 := by
  constructor
  · intro reached
    obtain ⟨column, reached⟩ := Option.isSome_iff_exists.mp reached
    obtain ⟨state, last, _⟩ := Option.map_eq_some_iff.mp reached
    obtain ⟨mem, line⟩ := List.mem_filter.mp (List.mem_of_getLast? last)
    have most := (Weaving.line_of_mem_course mem).2
    have newlines : (pieces (escape text)).count .newline = text.count '\n' := by
      rw [pieces_escape]
      exact lineAfter_map_escapedUnit text
    have start : (startOf insertions).line = 0 := rfl
    have here : state.line = i := eq_of_beq line
    omega
  · intro inside
    rw [← Text.length_splitOn] at inside
    obtain ⟨_, reached⟩ := line_escape insertions (List.getElem?_eq_getElem inside)
    rw [reached]
    rfl

/-! ### Lines of woven markup -/

theorem Cut.flatMap_text {markup : List Char} {units : List Piece} (cut : Cut markup units) :
    units.flatMap Piece.text = markup := by
  induction cut with
  | nil => rfl
  | closedTag _ _ ih => simp [Piece.text, ih]
  | openTag _ => simp [Piece.text]
  | newline _ ih => simp [Piece.text, ih]
  | entity _ _ ih => simp [Piece.text, ih]
  | glyph _ _ _ _ ih => simp [Piece.text, ih]

theorem count_flatMap_text (c : Char) (fragments : List Fragment) :
    (fragments.flatMap Fragment.text).count c =
      ((unitsOf fragments).flatMap Piece.text).count c +
        ((insertionsOf fragments).flatMap Insertion.text).count c := by
  induction fragments with
  | nil => rfl
  | cons fragment fragments ih =>
    rw [List.flatMap_cons, List.count_append, ih]
    cases fragment with
    | unit unit =>
      rw [unitsOf_cons_unit, insertionsOf_cons_unit, List.flatMap_cons, List.count_append, Nat.add_assoc]
      rfl
    | inserted insertion =>
      rw [unitsOf_cons_inserted, insertionsOf_cons_inserted, List.flatMap_cons, List.count_append]
      exact Nat.add_left_comm _ _ _

/-- Weaving loses and makes up no character. -/
theorem count_weave (c : Char) (markup : List Char) (insertions : List Insertion) :
    (weave markup insertions).count c =
      markup.count c + (insertions.flatMap Insertion.text).count c := by
  have queue := (List.mergeSort_perm insertions Insertion.before).flatMap_right Insertion.text
  rw [weave_eq_interleave, count_flatMap_text, unitsOf_interleave, insertionsOf_interleave,
    (cut_iff.mpr rfl).flatMap_text, queue.count_eq]

theorem count_newline_escape (text : List Char) : (escape text).count '\n' = text.count '\n' := by
  have each : ∀ c, (escapeChar c).count '\n' = if c == '\n' then 1 else 0 := by
    intro c
    unfold escapeChar
    split
    · decide
    · decide
    · decide
    · decide
    · decide
    · exact List.count_singleton
  unfold escape
  induction text with
  | nil => rfl
  | cons c text ih => rw [List.flatMap_cons, List.count_append, ih, each, List.count_cons, Nat.add_comm]

/-- Insertions without newlines leave escaped text with its lines. -/
theorem count_newline_weave {insertions : List Insertion}
    (flat : ∀ insertion ∈ insertions, '\n' ∉ insertion.text) (text : List Char) :
    (weave (escape text) insertions).count '\n' = text.count '\n' := by
  have none : (insertions.flatMap Insertion.text).count '\n' = 0 := by
    apply List.count_eq_zero.mpr
    intro mem
    obtain ⟨insertion, listed, inside⟩ := List.mem_flatMap.mp mem
    exact flat insertion listed inside
  rw [count_weave, count_newline_escape, none, Nat.add_zero]

end Markup

/-! ### Rows of numbers -/

theorem Text.lines_flatMap {rows : List (List Char)}
    (plain : ∀ row ∈ rows, '\n' ∉ row ∧ dropReturn row = row) :
    lines (rows.flatMap fun row => row ++ ['\n']) = rows := by
  induction rows with
  | nil => rfl
  | cons row rows ih =>
    obtain ⟨⟨flat, kept⟩, rest⟩ := List.forall_mem_cons.mp plain
    rw [List.flatMap_cons, List.append_assoc, List.singleton_append, lines_append_newline,
      pieces_of_notMem flat, ih rest, List.map_singleton, kept, List.singleton_append]

namespace Page

def row (number : Nat) : List Char :=
  s!"<span id=\"L{number}\" data-line=\"{number}\">{number}</span>".toList

theorem lineNumber_eq_row (number : Nat) : lineNumber number = row number ++ ['\n'] := by
  simp [lineNumber, row, ToString.toString]

theorem newline_notMem_row (number : Nat) : '\n' ∉ row number := by
  have digits : '\n' ∉ (toString number).toList :=
    fun mem => absurd (isDigit_of_mem_toString mem) (by decide)
  simp only [row, ToString.toString, String.toList_append, List.mem_append, not_or]
  exact ⟨⟨⟨⟨⟨⟨by decide, digits⟩, by decide⟩, digits⟩, by decide⟩, digits⟩, by decide⟩

theorem dropReturn_row (number : Nat) : Text.dropReturn (row number) = row number := by
  have last : (row number).getLast? = some '>' := by
    unfold row
    rw [String.toList_append, List.getLast?_append_of_ne_nil _ (by decide)]
    decide
  apply if_neg
  rw [last]
  decide

theorem lines_lineNumbers {count : Nat} (some : 0 < count) :
    Text.lines (lineNumbers count) = (List.range count).map fun i => row (i + 1) := by
  have numbers : List.range' 1 (max count 1) = (List.range count).map (· + 1) := by
    rw [Nat.max_eq_left some, List.range'_eq_map_range]
    exact List.map_congr_left fun i _ => Nat.add_comm 1 i
  have rows : lineNumbers count =
      ((List.range count).map fun i => row (i + 1)).flatMap fun row => row ++ ['\n'] := by
    unfold lineNumbers
    rw [numbers, List.flatMap_map, List.flatMap_map]
    exact List.flatMap_congr fun i _ => lineNumber_eq_row (i + 1)
  rw [rows, Text.lines_flatMap]
  intro row mem
  obtain ⟨i, _, rfl⟩ := List.mem_map.mp mem
  exact ⟨newline_notMem_row (i + 1), dropReturn_row (i + 1)⟩

open Markup in
/-- A source has one line more than newlines. Its lines are the pieces between the newlines, each without
one carriage return at its end, and the pieces joined are the source. Over the escaped source, weaving gets to
just these lines; on each it counts units that decode to the piece, and reaches the column that is the piece's
length in UTF-16. Woven with insertions that have no newlines, the escaped source has as many lines as the
source, and so many rows of numbers stand beside it. -/
theorem lines_coincide (text : List Char) :
    (SourceText.ofText text).lineCount = text.count '\n' + 1 ∧
    (∀ i, ((SourceText.ofText text).line? i).isSome = true ↔ i < (SourceText.ofText text).lineCount) ∧
    (∀ i line, (SourceText.ofText text).line? i = some line ↔
      ∃ piece, (Text.pieces text)[i]? = some piece ∧
        (piece = line ++ ['\r'] ∨ piece = line ∧ ¬ ['\r'] <:+ piece)) ∧
    (['\n'].intercalate (Text.pieces text) = text ∧ ∀ piece ∈ Text.pieces text, '\n' ∉ piece) ∧
    (∀ insertions,
      ((startOf insertions).course (pieces (escape text))).getLast?.map
          (fun w => (w.flush fun _ => true).written.reverse) = some (weave (escape text) insertions) ∧
      (∀ i, ((startOf insertions).lastColumn? (pieces (escape text)) i).isSome = true ↔
        i < (SourceText.ofText text).lineCount) ∧
      ∀ i piece, (Text.pieces text)[i]? = some piece →
        (((startOf insertions).unitsOn (pieces (escape text)) i).flatMap fun unit =>
          Decoder.unescape unit.text) = piece ∧
        (startOf insertions).lastColumn? (pieces (escape text)) i = some (Text.length16 piece)) ∧
    (∀ insertions : List Insertion, (∀ insertion ∈ insertions, '\n' ∉ insertion.text) →
      (weave (escape text) insertions).count '\n' + 1 = (SourceText.ofText text).lineCount) ∧
    Text.lines (lineNumbers (SourceText.ofText text).lineCount) =
      (List.range (SourceText.ofText text).lineCount).map fun i => row (i + 1) := by
  have count := SourceText.lineCount_ofText text
  refine ⟨count, fun i => ?_, fun i line => ?_, ⟨List.intercalate_splitOn _, fun piece mem => ?_⟩,
    fun insertions => ⟨getLast?_course _ _, fun i => ?_, fun i piece found => ?_⟩,
    fun insertions flat => ?_, ?_⟩
  · rw [SourceText.line?_ofText, count, ← Text.length_splitOn]
    simp [Text.pieces]
  · rw [SourceText.line?_ofText, Option.map_eq_some_iff]
    simp only [Text.dropReturn_eq_iff]
  · exact Text.notMem_of_mem_splitOn mem
  · rw [count]
    exact isSome_lastColumn?_escape insertions text i
  · obtain ⟨passed, reached⟩ := line_escape insertions found
    refine ⟨?_, reached⟩
    rw [passed, List.flatMap_map]
    simp [unescape_text_escapedUnit]
  · rw [count_newline_weave flat, count]
  · exact lines_lineNumbers (by omega)

/-- A source with both kinds of line ends, an escaped character and one of two UTF-16 units, and an
insertion past the end of its last line, which is empty. -/
theorem lines_coincide_mixed :
    (Text.pieces ['a', '\r', '\n', '&', '😀', '\n'])[1]? = some ['&', '😀'] ∧
    (SourceText.ofText ['a', '\r', '\n', '&', '😀', '\n']).lineStarts = #[0, 3, 9] ∧
    (SourceText.ofText ['a', '\r', '\n', '&', '😀', '\n']).line? 0 = some ['a'] ∧
    (Markup.startOf [⟨⟨2, 9⟩, ['<', 'i', '>']⟩]).lastColumn?
      (Markup.pieces (Markup.escape ['a', '\r', '\n', '&', '😀', '\n'])) 1 = some 3 ∧
    (Markup.weave (Markup.escape ['a', '\r', '\n', '&', '😀', '\n'])
      [⟨⟨2, 9⟩, ['<', 'i', '>']⟩]).count '\n' + 1 = 3 := by
  obtain ⟨count, _, lines, _, walk, woven, _⟩ := lines_coincide ['a', '\r', '\n', '&', '😀', '\n']
  have second : (Text.pieces ['a', '\r', '\n', '&', '😀', '\n'])[1]? = some ['&', '😀'] := by decide
  refine ⟨second, by decide, (lines 0 ['a']).mpr ⟨['a', '\r'], by decide, .inl rfl⟩,
    ((walk _).2.2 1 _ second).2, ?_⟩
  rw [woven [⟨⟨2, 9⟩, ['<', 'i', '>']⟩] (by decide), count]
  decide

end Page

end CodeAtlas
