import CodeAtlas.Render.Markdown
import CodeAtlas.Symbol.Hover
import Mathlib.Data.List.DropRight
import Mathlib.Data.List.Infix
import Mathlib.Data.List.TakeWhile

/-!
# Fenced code

Hover contents give code with its language, and it becomes a fenced block of Markdown. The fence is longer than
any run of backticks in the code, so the block ends where the code does: whatever the code is, the renderer
shows all of it and nothing else (`HoverText.snippets_survive`).
-/

namespace CodeAtlas

/-! ### Lines -/

namespace Text

theorem pieces_append_newline (first second : List Char) :
    pieces (first ++ '\n' :: second) = pieces first ++ pieces second :=
  List.splitOn_append_cons_self ..

theorem pieces_of_notMem {text : List Char} (flat : '\n' ∉ text) : pieces text = [text] :=
  List.splitOn_eq_singleton flat

theorem lines_append_newline (first second : List Char) :
    lines (first ++ '\n' :: second) = (pieces first).map dropReturn ++ lines second := by
  have some : pieces second ≠ [] := List.splitOn_ne_nil _ _
  rw [lines, lines, pieces_append_newline, List.dropLast_append_of_ne_nil some, List.map_append,
    List.getLast?_append_of_ne_nil _ some, List.append_assoc]

theorem lines_of_notMem {text : List Char} (flat : '\n' ∉ text) (nonempty : text ≠ []) :
    lines text = [text] := by
  rw [lines, pieces_of_notMem flat]
  cases text with
  | nil => exact absurd rfl nonempty
  | cons c text => rfl

/-- No line of the text ends in a carriage return. -/
def KeepsLines (text : List Char) : Prop :=
  ¬ ['\r', '\n'] <:+: text ∧ ¬ ['\r'] <:+ text

instance (text : List Char) : Decidable (KeepsLines text) :=
  inferInstanceAs (Decidable (_ ∧ _))

/-- A piece stands before a newline or at the end. -/
theorem exists_around_of_mem_pieces {text piece : List Char} (mem : piece ∈ pieces text) :
    ∃ before after, text = before ++ (piece ++ after) ∧ (after = [] ∨ ∃ rest, after = '\n' :: rest) := by
  have general : ∀ all : List (List Char), piece ∈ all → ∃ before after,
      ['\n'].intercalate all = before ++ (piece ++ after) ∧
        (after = [] ∨ ∃ rest, after = '\n' :: rest) := by
    intro all mem
    induction all with
    | nil => cases mem
    | cons first others ih =>
      cases others with
      | nil =>
        obtain rfl := List.mem_singleton.mp mem
        exact ⟨[], [], by simp, .inl rfl⟩
      | cons second others =>
        rw [List.intercalate_cons_cons]
        rcases List.mem_cons.mp mem with rfl | later
        · exact ⟨[], _, by rw [List.nil_append, List.append_assoc]; rfl, .inr ⟨_, rfl⟩⟩
        · obtain ⟨before, after, same, ends⟩ := ih later
          exact ⟨first ++ '\n' :: before, after, by simp [same], ends⟩
  have whole := general (pieces text) mem
  rwa [pieces, List.intercalate_splitOn] at whole

theorem KeepsLines.dropReturn_eq {text piece : List Char} (keeps : KeepsLines text)
    (mem : piece ∈ pieces text) : dropReturn piece = piece := by
  obtain ⟨before, after, rfl, ends⟩ := exists_around_of_mem_pieces mem
  refine if_neg fun last => ?_
  obtain ⟨front, rfl⟩ := List.getLast?_eq_some_iff.mp last
  rcases ends with rfl | ⟨rest, rfl⟩
  · exact keeps.2 ⟨before ++ front, by simp⟩
  · exact keeps.1 ⟨before ++ front, rest, by simp⟩

theorem KeepsLines.map_dropReturn {text : List Char} (keeps : KeepsLines text) :
    (pieces text).map dropReturn = pieces text :=
  (List.map_congr_left fun _ => keeps.dropReturn_eq).trans (List.map_id _)

/-! ### Words -/

theorem firstWord_append_blanks {blanks : List Char} (blank : ∀ c ∈ blanks, isBlank c = true)
    (text : List Char) : firstWord (text ++ blanks) = firstWord text := by
  have stops : blanks.takeWhile (fun c => !isBlank c) = [] := by
    cases blanks with
    | nil => rfl
    | cons c blanks => rw [List.takeWhile_cons_of_neg (by simp [blank c List.mem_cons_self])]
  rw [firstWord, firstWord, trimStart, trimStart, List.dropWhile_append]
  split
  · rename_i empty
    rw [List.dropWhile_eq_nil_iff.mpr blank, List.isEmpty_iff.mp empty]
  · rw [List.takeWhile_append]
    split
    · rename_i all
      rw [stops, List.append_nil, (List.takeWhile_prefix _).eq_of_length all]
    · rfl

theorem exists_blanks_trimEnd (text : List Char) :
    ∃ blanks, (∀ c ∈ blanks, isBlank c = true) ∧ text = trimEnd text ++ blanks := by
  refine ⟨(text.reverse.takeWhile isBlank).reverse, ?_, ?_⟩
  · intro c mem
    exact List.all_eq_true.mp List.all_takeWhile c (List.mem_reverse.mp mem)
  · rw [trimEnd, ← List.reverse_append, List.takeWhile_append_dropWhile, List.reverse_reverse]

theorem firstWord_trim (text : List Char) : firstWord (trim text) = firstWord text := by
  obtain ⟨blanks, blank, same⟩ := exists_blanks_trimEnd (trimStart text)
  have started : firstWord (trimStart text) = firstWord text := by
    rw [firstWord, firstWord, trimStart, trimStart, List.dropWhile_idempotent]
  rw [← started, trim]
  conv_rhs => rw [same]
  exact (firstWord_append_blanks blank _).symm

theorem firstWord_dropReturn (text : List Char) : firstWord (dropReturn text) = firstWord text := by
  unfold dropReturn
  split
  · rename_i last
    obtain ⟨front, rfl⟩ := List.getLast?_eq_some_iff.mp last
    rw [List.dropLast_concat]
    exact (firstWord_append_blanks (List.forall_mem_singleton.mpr rfl) front).symm
  · rfl

end Text

/-! ### Runs of backticks -/

namespace HoverText

theorem le_longestRun (run longest : Nat) (text : List Char) : longest ≤ longestRun run longest text := by
  induction text generalizing run longest with
  | nil => exact Nat.le_refl _
  | cons c text ih =>
    rw [longestRun]
    split
    · exact (Nat.le_max_left _ _).trans (ih _ _)
    · exact ih _ _

/-- Backticks at the start of a text go on with the run that ends there. -/
theorem add_le_longestRun {count : Nat} {text : List Char} (starts : List.replicate (count + 1) '`' <+: text)
    (run longest : Nat) : run + (count + 1) ≤ longestRun run longest text := by
  induction count generalizing text run longest with
  | zero =>
    obtain ⟨rest, rfl⟩ := starts
    rw [List.replicate_one, List.singleton_append, longestRun, if_pos rfl]
    exact (Nat.le_max_right _ _).trans (le_longestRun _ _ _)
  | succ count ih =>
    obtain ⟨rest, rfl⟩ := starts
    rw [List.replicate_succ, List.cons_append, longestRun, if_pos rfl]
    have later := ih (List.prefix_append _ rest) (run + 1) (max longest (run + 1))
    omega

theorem le_longestRun_of_inside {count : Nat} {text : List Char} (inside : List.replicate count '`' <:+: text)
    (run longest : Nat) : count ≤ longestRun run longest text := by
  obtain ⟨before, after, rfl⟩ := inside
  induction before generalizing run longest with
  | nil =>
    cases count with
    | zero => exact Nat.zero_le _
    | succ count =>
      have starts := add_le_longestRun (List.prefix_append (List.replicate (count + 1) '`') after) run longest
      rw [List.nil_append]
      omega
  | cons c before ih =>
    rw [List.cons_append, List.cons_append, longestRun]
    split
    · exact ih _ _
    · exact ih _ _

theorem exists_fenceFor (code : List Char) :
    ∃ more, fenceFor code = List.replicate (more + 3) '`' ∧ longestRun 0 0 code < more + 3 :=
  ⟨max (longestRun 0 0 code) 2 - 2, by rw [fenceFor]; congr 1; omega, by omega⟩

end HoverText

/-! ### Blocks -/

namespace Markdown

open HoverText

theorem infix_of_trim (text : List Char) : Text.trim text <:+: text := by
  have start : Text.trimStart text <:+ text := List.dropWhile_suffix _
  have stop : Text.trim text <+: Text.trimStart text := by
    obtain ⟨blanks, _, same⟩ := Text.exists_blanks_trimEnd (Text.trimStart text)
    exact ⟨blanks, same.symm⟩
  exact stop.isInfix.trans start.isInfix

def fenceOf (language code : List Char) : Fence :=
  ⟨'`', (fenceFor code).length, Text.trim (Text.dropReturn language)⟩

theorem fence?_fenceFor {language : List Char} (free : '`' ∉ language) (code : List Char) :
    fence? (Text.trimStart (Text.dropReturn (fenceFor code ++ language))) = some (fenceOf language code) := by
  obtain ⟨more, fence, _⟩ := exists_fenceFor code
  have line : Text.dropReturn (fenceFor code ++ language) = fenceFor code ++ Text.dropReturn language := by
    unfold Text.dropReturn
    cases language using List.reverseRecOn with
    | nil => simp [fence, List.getLast?_replicate]
    | append_singleton front c => split <;> simp_all
  have free : '`' ∉ Text.dropReturn language := by
    unfold Text.dropReturn
    split
    · exact mt List.mem_of_mem_dropLast free
    · exact free
  have started : Text.trimStart (fenceFor code ++ Text.dropReturn language) =
      fenceFor code ++ Text.dropReturn language := by
    rw [fence, List.replicate_succ, List.cons_append, Text.trimStart,
      List.dropWhile_cons_of_neg (by decide)]
  have marks : ∀ c ∈ fenceFor code, (c == '`') = true := by
    intro c mem
    rw [fence] at mem
    simp [List.eq_of_mem_replicate mem]
  have notMark : ∀ c ∈ Text.dropReturn language, (c == '`') = false := by
    intro c mem
    exact beq_eq_false_iff_ne.mpr fun same => free (same ▸ mem)
  have taken : (fenceFor code ++ Text.dropReturn language).takeWhile (· == '`') = fenceFor code := by
    rw [List.takeWhile_append_of_pos marks]
    cases rest : Text.dropReturn language with
    | nil => simp
    | cons c others => rw [List.takeWhile_cons_of_neg (by simp [notMark c (rest ▸ List.mem_cons_self)]), List.append_nil]
  have dropped : (fenceFor code ++ Text.dropReturn language).dropWhile (· == '`') = Text.dropReturn language := by
    rw [List.dropWhile_append_of_pos marks]
    cases rest : Text.dropReturn language with
    | nil => rfl
    | cons c others => rw [List.dropWhile_cons_of_neg (by simp [notMark c (rest ▸ List.mem_cons_self)])]
  have long : ¬ (fenceFor code).length < 3 := by
    rw [fence, List.length_replicate]
    omega
  have head : ∃ others, fenceFor code ++ Text.dropReturn language = '`' :: others :=
    ⟨List.replicate (more + 2) '`' ++ Text.dropReturn language, by rw [fence]; rfl⟩
  rw [line, started]
  obtain ⟨others, shape⟩ := head
  rw [shape] at taken dropped ⊢
  simp [fence?, taken, dropped, long, free, fenceOf]

theorem isClosedBy_iff {fence : Fence} {line : List Char} : fence.isClosedBy line = true ↔
    fence.length ≤ (Text.trim line).length ∧ ∀ c ∈ Text.trim line, c = fence.mark := by
  simp [Fence.isClosedBy]

/-- No line of the code closes its fence, for it would hold a run of backticks as long as the fence. -/
theorem not_isClosedBy {language code line : List Char} (mem : line ∈ Text.pieces code) :
    (fenceOf language code).isClosedBy line = false := by
  obtain ⟨more, fence, short⟩ := exists_fenceFor code
  rw [Bool.eq_false_iff, ne_eq, isClosedBy_iff]
  rintro ⟨long, marks⟩
  have run : Text.trim line = List.replicate (Text.trim line).length '`' :=
    List.eq_replicate_of_mem marks
  have inside : Text.trim line <:+: code := by
    obtain ⟨before, after, same, _⟩ := Text.exists_around_of_mem_pieces mem
    exact (infix_of_trim line).trans ⟨before, after, by rw [same, List.append_assoc]⟩
  rw [run] at inside
  have bounded := le_longestRun_of_inside inside 0 0
  have long : more + 3 ≤ (Text.trim line).length := by simpa [fenceOf, fence] using long
  omega

theorem isClosedBy_fenceFor (language code : List Char) :
    (fenceOf language code).isClosedBy (fenceFor code) = true := by
  obtain ⟨more, fence, _⟩ := exists_fenceFor code
  have trimmed : Text.trim (fenceFor code) = fenceFor code := by
    rw [fence, Text.trim, Text.trimEnd, Text.trimStart, List.replicate_succ,
      List.dropWhile_cons_of_neg (by decide), ← List.replicate_succ, List.reverse_replicate,
      List.replicate_succ, List.dropWhile_cons_of_neg (by decide), ← List.replicate_succ,
      List.reverse_replicate]
  rw [isClosedBy_iff, trimmed]
  refine ⟨Nat.le_refl _, fun c mem => ?_⟩
  rw [fence] at mem
  exact List.eq_of_mem_replicate mem

/-- The lines up to the one that closes a fence are the code in it. -/
theorem blocksFrom_code {fence : Fence} {last : List Char} (closes : fence.isClosedBy last = true)
    {lines : List (List Char)} (inside : ∀ line ∈ lines, fence.isClosedBy line = false)
    (passed rest : List (List Char)) :
    blocksFrom (.code fence passed) (lines ++ last :: rest) =
      .code fence.info (passed.reverse ++ lines) :: blocksFrom .nothing rest := by
  induction lines generalizing passed with
  | nil => simp [blocksFrom, Pending.step, closes, Pending.close]
  | cons line lines ih =>
    obtain ⟨first, inside⟩ := List.forall_mem_cons.mp inside
    simp [blocksFrom, Pending.step, first, ih inside]

/-- A fenced block, up to its closing fence. -/
theorem blocksFrom_fenced {language code : List Char} (free : '`' ∉ language) (flat : '\n' ∉ language)
    (keeps : Text.KeepsLines code) {tail : List Char} {others : List (List Char)}
    (ends : Text.lines (fenceFor code ++ tail) = fenceFor code :: others) :
    blocksFrom .nothing (Text.lines (fenced language code ++ tail)) =
      .code (Text.trim (Text.dropReturn language)) (Text.pieces code) :: blocksFrom .nothing others := by
  have flatFence : '\n' ∉ fenceFor code ++ language := by
    obtain ⟨more, fence, _⟩ := exists_fenceFor code
    rw [List.mem_append, fence]
    exact not_or.mpr ⟨fun mem => absurd (List.eq_of_mem_replicate mem) (by decide), flat⟩
  have shape : fenced language code ++ tail =
      (fenceFor code ++ language) ++ '\n' :: (code ++ '\n' :: (fenceFor code ++ tail)) := by
    simp [fenced]
  have lines : Text.lines (fenced language code ++ tail) =
      Text.dropReturn (fenceFor code ++ language) :: (Text.pieces code ++ fenceFor code :: others) := by
    rw [shape, Text.lines_append_newline, Text.pieces_of_notMem flatFence, Text.lines_append_newline,
      keeps.map_dropReturn, ends]
    rfl
  have opens : Pending.nothing.step (Text.dropReturn (fenceFor code ++ language)) =
      ([], .code (fenceOf language code) []) := by
    simp [Pending.step, Pending.addLine, fence?_fenceFor free, Pending.close]
  rw [lines, blocksFrom, opens]
  exact blocksFrom_code (isClosedBy_fenceFor language code) (fun line => not_isClosedBy) [] others

end Markdown

/-! ### Snippets -/

structure Snippet where
  language : String
  code : String
  deriving DecidableEq, Repr

namespace Snippet

/-- The contents are an object with the language and the code of the snippet. -/
def GivenBy (snippet : Snippet) (contents : Json) : Prop :=
  ∃ fields, contents = .object fields ∧
    Json.Fields.last? fields "language" = some (.string snippet.language) ∧
    Json.Fields.last? fields "value" = some (.string snippet.code)

/-- The language fits on the line of a fence, and no line of the code ends in a carriage return. -/
def Fits (snippet : Snippet) : Prop :=
  '`' ∉ snippet.language.toList ∧ '\n' ∉ snippet.language.toList ∧ Text.KeepsLines snippet.code.toList

instance (snippet : Snippet) : Decidable snippet.Fits :=
  inferInstanceAs (Decidable (_ ∧ _))

def fenced (snippet : Snippet) : List Char :=
  HoverText.fenced snippet.language.toList snippet.code.toList

/-- The snippet as a code block: highlighted by the first word of its language, or escaped if it has none. -/
def block (highlighter : Highlighter) (snippet : Snippet) : Except HighlightFault (List Char) :=
  match Text.firstWord snippet.language.toList with
  | [] => .ok ("<pre><code>".toList ++ Markup.escape snippet.code.toList ++ "</code></pre>".toList)
  | word => do
    let body ← highlighter snippet.code.toList (String.ofList word)
    return "<pre><code class=\"language-".toList ++ Markup.escape word ++ "\">".toList ++ body ++
      "</code></pre>".toList

variable {highlighter : Highlighter} {snippet : Snippet}

theorem render_code (highlighter : Highlighter) (snippet : Snippet) :
    (Markdown.Block.code (Text.trim (Text.dropReturn snippet.language.toList))
      (Text.pieces snippet.code.toList)).render highlighter = snippet.block highlighter := by
  have code : Markdown.joinLines (Text.pieces snippet.code.toList) = snippet.code.toList :=
    List.intercalate_splitOn _
  rw [Markdown.Block.render, Markdown.codeMarkup, code, Text.firstWord_trim, Text.firstWord_dropReturn, block]
  cases Text.firstWord snippet.language.toList with
  | nil => rfl
  | cons c word =>
    simp only [List.isEmpty_cons, Bool.false_eq_true, if_false]
    cases highlighter snippet.code.toList (String.ofList (c :: word)) <;> rfl

theorem ofMarked?_of_givenBy {contents : Json} (given : snippet.GivenBy contents) :
    HoverText.ofMarked? contents = some snippet.fenced := by
  obtain ⟨fields, rfl, language, code⟩ := given
  simp [HoverText.ofMarked?, language, code, fenced]

end Snippet

namespace HoverText

theorem lines_separator {front : List Char} (flat : '\n' ∉ front) (open' : front.getLast? ≠ some '\r')
    (rest : List Char) :
    Text.lines (front ++ (separator ++ rest)) = front :: [] :: ['-', '-', '-'] :: [] :: Text.lines rest := by
  have shape : front ++ (separator ++ rest) =
      front ++ '\n' :: ([] ++ '\n' :: (['-', '-', '-'] ++ '\n' :: ([] ++ '\n' :: rest))) := rfl
  have kept : Text.dropReturn front = front := if_neg open'
  rw [shape, Text.lines_append_newline, Text.lines_append_newline, Text.lines_append_newline,
    Text.lines_append_newline, Text.pieces_of_notMem flat, List.map_singleton, kept]
  rfl

theorem blocksFrom_break (lines : List (List Char)) :
    Markdown.blocksFrom .nothing ([] :: ['-', '-', '-'] :: [] :: lines) =
      .thematicBreak :: Markdown.blocksFrom .nothing lines :=
  rfl

theorem flatten_mapM_cons {ε α : Type} (f : α → Except ε (List Char)) (first : α) (rest : List α) :
    ((first :: rest).mapM f).map List.flatten =
      f first >>= fun head => ((rest.mapM f).map List.flatten).map (head ++ ·) := by
  rw [List.mapM_cons]
  cases f first with
  | error fault => rfl
  | ok head => cases rest.mapM f <;> rfl

theorem intercalate_mapM_cons {ε α : Type} (f : α → Except ε (List Char)) (between : List Char)
    (first next : α) (rest : List α) :
    ((first :: next :: rest).mapM f).map between.intercalate =
      f first >>= fun head =>
        (((next :: rest).mapM f).map between.intercalate).map (head ++ between ++ ·) := by
  rw [List.mapM_cons, List.mapM_cons]
  cases f first with
  | error fault => rfl
  | ok head =>
    cases f next with
    | error fault => rfl
    | ok second =>
      cases rest.mapM f with
      | error fault => rfl
      | ok others => exact congrArg Except.ok List.intercalate_cons_cons

/-- Fenced blocks between separators are code blocks between thematic breaks. -/
theorem render_snippets (highlighter : Highlighter) {snippets : List Snippet}
    (fits : ∀ snippet ∈ snippets, snippet.Fits) :
    Markdown.render highlighter (separator.intercalate (snippets.map Snippet.fenced)) =
      (snippets.mapM (Snippet.block highlighter)).map "<hr>".toList.intercalate := by
  induction snippets with
  | nil => rfl
  | cons snippet others ih =>
    obtain ⟨⟨free, flat, keeps⟩, later⟩ := List.forall_mem_cons.mp fits
    obtain ⟨more, fence, _⟩ := exists_fenceFor snippet.code.toList
    have flatFence : '\n' ∉ fenceFor snippet.code.toList := by
      rw [fence]
      exact fun mem => absurd (List.eq_of_mem_replicate mem) (by decide)
    cases others with
    | nil =>
      have ends : Text.lines (fenceFor snippet.code.toList ++ []) = [fenceFor snippet.code.toList] := by
        rw [List.append_nil]
        exact Text.lines_of_notMem flatFence (by simp [fence])
      have last : Markdown.blocksFrom .nothing [] = [] := rfl
      have blocks := Markdown.blocksFrom_fenced free flat keeps ends
      rw [List.append_nil, last] at blocks
      rw [List.map_singleton, List.intercalate_singleton, Markdown.render, Markdown.blocks, Snippet.fenced,
        blocks, flatten_mapM_cons, Snippet.render_code, List.mapM_cons]
      cases snippet.block highlighter with
      | error fault => rfl
      | ok html => simp [bind, Except.bind, pure, Except.pure, Except.map]
    | cons next others =>
      have ends := lines_separator flatFence (by simp [fence, List.getLast?_replicate])
        (separator.intercalate ((next :: others).map Snippet.fenced))
      have blocks := Markdown.blocksFrom_fenced free flat keeps ends
      rw [blocksFrom_break, ← Markdown.blocks, ← Markdown.blocks] at blocks
      rw [List.map_cons, List.map_cons, List.intercalate_cons_cons, ← List.map_cons, List.append_assoc,
        intercalate_mapM_cons, ← ih later, Markdown.render, Snippet.fenced, blocks, flatten_mapM_cons,
        flatten_mapM_cons, Snippet.render_code, Markdown.render]
      cases snippet.block highlighter with
      | error fault => rfl
      | ok html =>
        cases (Markdown.blocks (separator.intercalate ((next :: others).map Snippet.fenced))).mapM
            (Markdown.Block.render highlighter) with
        | error fault => rfl
        | ok others => exact congrArg Except.ok (List.append_assoc ..).symm

theorem mapM_ofMarked? {snippets : List Snippet} {contents : List Json}
    (given : List.Forall₂ Snippet.GivenBy snippets contents) :
    contents.mapM ofMarked? = some (snippets.map Snippet.fenced) := by
  induction given with
  | nil => rfl
  | cons first _ ih => simp [Snippet.ofMarked?_of_givenBy first, ih]

theorem ofMarked?_array_object (fields : Json.Fields) (others : List Json) :
    ofMarked? (.array (.object fields :: others)) = none := by
  rcases others with _ | ⟨second, _ | ⟨third, others⟩⟩ <;> rfl

theorem ofContents_array {snippets : List Snippet} {contents : List Json} (nonempty : snippets ≠ [])
    (given : List.Forall₂ Snippet.GivenBy snippets contents) (id : ElementId) :
    ofContents id (.array contents) = .ok (.markdown (separator.intercalate (snippets.map Snippet.fenced))) := by
  have notMarked : ofMarked? (.array contents) = none := by
    cases given with
    | nil => exact absurd rfl nonempty
    | cons first _ =>
      obtain ⟨fields, rfl, _⟩ := first
      exact ofMarked?_array_object fields _
  rw [ofContents, ofJson?, notMarked, ofSections?, mapM_ofMarked? given]
  rfl

theorem ofContents_object {snippet : Snippet} {contents : Json} (given : snippet.GivenBy contents)
    (id : ElementId) : ofContents id contents = .ok (.markdown snippet.fenced) := by
  rw [ofContents, ofJson?, Snippet.ofMarked?_of_givenBy given]
  rfl

/-- Code given with its language comes out as one code block for each snippet, with breaks between them. It
does not matter what the code is: no line of it closes its fence, and nothing of it is read as Markdown. -/
theorem snippets_survive (highlighter : Highlighter) (id : ElementId) {snippets : List Snippet}
    {contents : List Json} (nonempty : snippets ≠ []) (fits : ∀ snippet ∈ snippets, snippet.Fits)
    (given : List.Forall₂ Snippet.GivenBy snippets contents) :
    (∃ text, ofContents id (.array contents) = .ok text ∧
      text.render (Markdown.render highlighter) =
        (snippets.mapM (Snippet.block highlighter)).map "<hr>".toList.intercalate) ∧
    ∀ only, contents = [only] → ∃ text, ofContents id only = .ok text ∧
      text.render (Markdown.render highlighter) =
        (snippets.mapM (Snippet.block highlighter)).map "<hr>".toList.intercalate := by
  have rendered := render_snippets highlighter fits
  constructor
  · exact ⟨_, ofContents_array nonempty given id, rendered⟩
  · rintro only rfl
    cases given with
    | cons first rest =>
      cases rest
      exact ⟨_, ofContents_object first id, by simpa [render] using rendered⟩

/-- Fences, blank lines, breaks and a last newline inside code. -/
def hardSnippets : List Snippet :=
  [⟨" md extra", "```\n\n---\n````\n"⟩, ⟨"\r", "<~~~>"⟩]

def hardContents : List Json :=
  hardSnippets.map fun snippet =>
    .object [("language", .string snippet.language), ("value", .string snippet.code)]

theorem snippets_survive_hard : ∃ text, ofContents ⟨"7"⟩ (.array hardContents) = .ok text ∧
    text.render (Markdown.render Presentation.plain.source) =
      .ok ("<pre><code class=\"language-md\">```\n\n---\n````\n</code></pre><hr>" ++
        "<pre><code>&lt;~~~&gt;</code></pre>").toList := by
  have given : List.Forall₂ Snippet.GivenBy hardSnippets hardContents :=
    .cons ⟨_, rfl, rfl, rfl⟩ (.cons ⟨_, rfl, rfl, rfl⟩ .nil)
  obtain ⟨text, read, rendered⟩ :=
    (snippets_survive Presentation.plain.source ⟨"7"⟩ (by decide) (by decide) given).1
  exact ⟨text, read, rendered.trans (by decide)⟩

end HoverText

end CodeAtlas
