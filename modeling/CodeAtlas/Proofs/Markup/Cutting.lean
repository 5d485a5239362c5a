import CodeAtlas.Render.Basic
import CodeAtlas.Markup.Piece
import Mathlib.Data.List.TakeWhile

/-!
# How markup is cut

`Cut` says what the units of a markup are, one rule for each kind of unit.
`cut_iff` shows that `pieces` finds the units, and that no other cut exists.
-/

namespace CodeAtlas.Markup

/-- What may stand between the `&` and the `;` of an entity: one to 32 ASCII letters and digits, of
which the first may be a `#` instead. -/
def EntityBody (body : List Char) : Prop :=
  body.length ≤ 32 ∧
    ∃ first others, body = first :: others ∧ (first.isAlphanum = true ∨ first = '#') ∧
      ∀ c ∈ others, c.isAlphanum = true

/-- The text after an `&` goes on so that the `&` starts an entity. -/
def OpensEntity (text : List Char) : Prop :=
  ∃ body rest, EntityBody body ∧ text = body ++ ';' :: rest

/-- The list has the units of the markup, in order. -/
inductive Cut : List Char → List Piece → Prop where
  | nil : Cut [] []
  /-- A tag ends at the next `>`. -/
  | closedTag {inside rest : List Char} {units : List Piece} :
    '>' ∉ inside → Cut rest units →
      Cut ('<' :: (inside ++ '>' :: rest)) (.tag ('<' :: (inside ++ ['>'])) :: units)
  /-- A tag with no `>` after it goes on to the end. -/
  | openTag {inside : List Char} : '>' ∉ inside → Cut ('<' :: inside) [.tag ('<' :: inside)]
  | newline {rest : List Char} {units : List Piece} :
    Cut rest units → Cut ('\n' :: rest) (.newline :: units)
  | entity {body rest : List Char} {units : List Piece} :
    EntityBody body → Cut rest units → Cut ('&' :: (body ++ ';' :: rest)) (.entity body :: units)
  | glyph {c : Char} {rest : List Char} {units : List Piece} :
    c ≠ '<' → c ≠ '\n' → (c = '&' → ¬ OpensEntity rest) → Cut rest units →
      Cut (c :: rest) (.glyph c :: units)

/-! ### Entities -/

theorem isEntityBody_iff (body : List Char) : isEntityBody body = true ↔ EntityBody body := by
  cases body with
  | nil => simp [isEntityBody, EntityBody]
  | cons first others =>
    simp only [isEntityBody, EntityBody, Bool.and_eq_true, Bool.or_eq_true, beq_iff_eq,
      decide_eq_true_eq, List.all_eq_true, List.length_cons, List.cons.injEq]
    constructor
    · rintro ⟨⟨start, plain⟩, short⟩
      exact ⟨by omega, first, others, ⟨rfl, rfl⟩, start, plain⟩
    · rintro ⟨short, _, _, ⟨rfl, rfl⟩, start, plain⟩
      exact ⟨⟨start, plain⟩, by omega⟩

theorem EntityBody.semicolon_not_mem {body : List Char} (valid : EntityBody body) : ';' ∉ body := by
  obtain ⟨_, first, others, rfl, start, plain⟩ := valid
  intro mem
  rcases List.mem_cons.mp mem with same | later
  · subst same
    rcases start with letter | sharp
    · exact absurd letter (by decide)
    · exact absurd sharp (by decide)
  · exact absurd (plain _ later) (by decide)

theorem takeWhile_ne_append {inside rest : List Char} {stop : Char} (free : stop ∉ inside) :
    (inside ++ stop :: rest).takeWhile (fun c => c != stop) = inside := by
  rw [List.takeWhile_append_of_pos]
  · simp
  · intro c mem
    simpa using fun same : c = stop => free (same ▸ mem)

theorem takeWhile_ne_eq_self {inside : List Char} {stop : Char} (free : stop ∉ inside) :
    inside.takeWhile (fun c => c != stop) = inside := by
  rw [List.takeWhile_eq_self_iff]
  intro c mem
  simpa using fun same : c = stop => free (same ▸ mem)

theorem entityBody?_eq_some_iff {text body : List Char} :
    entityBody? text = some body ↔ EntityBody body ∧ ∃ rest, text = body ++ ';' :: rest := by
  unfold entityBody?
  by_cases closed : ';' ∈ text
  · obtain ⟨before, after, rfl, free⟩ := List.eq_append_cons_of_mem closed
    simp only [takeWhile_ne_append free, List.length_append, List.length_cons,
      Bool.and_eq_true, decide_eq_true_eq, isEntityBody_iff, Option.ite_none_right_eq_some,
      Option.some.injEq]
    constructor
    · rintro ⟨⟨_, valid⟩, rfl⟩
      exact ⟨valid, after, rfl⟩
    · rintro ⟨valid, rest, same⟩
      have equal : before = body := by
        have cut := congrArg (List.takeWhile fun c => c != ';') same
        rwa [takeWhile_ne_append free, takeWhile_ne_append valid.semicolon_not_mem] at cut
      subst equal
      exact ⟨⟨by omega, valid⟩, rfl⟩
  · simp only [takeWhile_ne_eq_self closed, Nat.lt_irrefl, decide_false, Bool.false_and,
      Bool.false_eq_true, if_false, reduceCtorEq, false_iff]
    rintro ⟨_, rest, rfl⟩
    simp at closed

theorem entityBody?_eq_none_iff {text : List Char} :
    entityBody? text = none ↔ ¬ OpensEntity text := by
  rw [Option.eq_none_iff_forall_ne_some]
  constructor
  · rintro none ⟨body, rest, valid, same⟩
    exact none body (entityBody?_eq_some_iff.mpr ⟨valid, rest, same⟩)
  · intro closed body found
    obtain ⟨valid, rest, same⟩ := entityBody?_eq_some_iff.mp found
    exact closed ⟨body, rest, valid, same⟩

/-! ### The first unit -/

theorem firstPiece_closedTag {inside rest : List Char} (free : '>' ∉ inside) :
    firstPiece '<' (inside ++ '>' :: rest) = (.tag ('<' :: (inside ++ ['>'])), inside.length + 1) := by
  have taken : (inside ++ '>' :: rest).take (inside.length + 1) = inside ++ ['>'] := by
    rw [List.take_length_add_append]
    rfl
  simp [firstPiece, takeWhile_ne_append free, taken]

theorem firstPiece_openTag {inside : List Char} (free : '>' ∉ inside) :
    firstPiece '<' inside = (.tag ('<' :: inside), inside.length) := by
  simp [firstPiece, takeWhile_ne_eq_self free]

theorem firstPiece_entity {body rest : List Char} (valid : EntityBody body) :
    firstPiece '&' (body ++ ';' :: rest) = (.entity body, body.length + 1) := by
  have found : entityBody? (body ++ ';' :: rest) = some body :=
    entityBody?_eq_some_iff.mpr ⟨valid, rest, rfl⟩
  simp [firstPiece, found]

theorem firstPiece_glyph {c : Char} {rest : List Char} (notTag : c ≠ '<') (notNewline : c ≠ '\n')
    (alone : c = '&' → ¬ OpensEntity rest) : firstPiece c rest = (.glyph c, 0) := by
  by_cases ampersand : c = '&'
  · subst ampersand
    simp [firstPiece, entityBody?_eq_none_iff.mpr (alone rfl)]
  · simp [firstPiece, notTag, notNewline, ampersand]

/-! ### The whole cut -/

theorem piecesFrom_cons (done : List Piece) (c : Char) (rest : List Char) :
    piecesFrom done (c :: rest) =
      piecesFrom ((firstPiece c rest).1 :: done) (rest.drop (firstPiece c rest).2) := by
  rw [piecesFrom]

theorem piecesFrom_eq (done : List Piece) (markup : List Char) :
    piecesFrom done markup = done.reverse ++ pieces markup := by
  -- The pieces found already change along the scan, so both sides are compared for all of them.
  induction size : markup.length using Nat.strongRecOn generalizing done markup with
  | ind n ih =>
    cases markup with
    | nil => simp [pieces, piecesFrom]
    | cons c rest =>
      have shorter : (rest.drop (firstPiece c rest).2).length < n := by
        rw [← size, List.length_drop, List.length_cons]
        omega
      rw [pieces, piecesFrom_cons, piecesFrom_cons, ih _ shorter _ _ rfl, ih _ shorter _ _ rfl]
      simp

@[simp]
theorem pieces_nil : pieces [] = [] := by
  simp [pieces, piecesFrom]

theorem pieces_cons (c : Char) (rest : List Char) :
    pieces (c :: rest) = (firstPiece c rest).1 :: pieces (rest.drop (firstPiece c rest).2) := by
  rw [pieces, piecesFrom_cons, piecesFrom_eq]
  simp

theorem Cut.pieces_eq {markup : List Char} {units : List Piece} (cut : Cut markup units) :
    pieces markup = units := by
  induction cut with
  | nil => exact pieces_nil
  | closedTag free _ ih => simp [pieces_cons, firstPiece_closedTag free, List.drop_length_add_append, ih]
  | openTag free => simp [pieces_cons, firstPiece_openTag free]
  | newline _ ih => simp [pieces_cons, firstPiece, ih]
  | entity valid _ ih => simp [pieces_cons, firstPiece_entity valid, List.drop_length_add_append, ih]
  | glyph notTag notNewline alone _ ih =>
    simp [pieces_cons, firstPiece_glyph notTag notNewline alone, ih]

theorem exists_cut (markup : List Char) : ∃ units, Cut markup units := by
  induction size : markup.length using Nat.strongRecOn generalizing markup with
  | ind n ih =>
    cases markup with
    | nil => exact ⟨[], .nil⟩
    | cons c rest =>
      have later : ∀ tail : List Char, tail.length ≤ rest.length → ∃ units, Cut tail units := by
        intro tail short
        exact ih tail.length (by rw [← size, List.length_cons]; omega) tail rfl
      by_cases tag : c = '<'
      · subst tag
        by_cases closed : '>' ∈ rest
        · obtain ⟨inside, tail, rfl, free⟩ := List.eq_append_cons_of_mem closed
          obtain ⟨units, cut⟩ := later tail (by simp; omega)
          exact ⟨_, .closedTag free cut⟩
        · exact ⟨_, .openTag closed⟩
      by_cases newline : c = '\n'
      · subst newline
        obtain ⟨units, cut⟩ := later rest (Nat.le_refl _)
        exact ⟨_, .newline cut⟩
      by_cases entity : c = '&' ∧ OpensEntity rest
      · obtain ⟨rfl, body, tail, valid, rfl⟩ := entity
        obtain ⟨units, cut⟩ := later tail (by simp; omega)
        exact ⟨_, .entity valid cut⟩
      · obtain ⟨units, cut⟩ := later rest (Nat.le_refl _)
        exact ⟨_, .glyph tag newline (fun same opens => entity ⟨same, opens⟩) cut⟩

/-- `pieces` finds the one cut of a markup. -/
theorem cut_iff {markup : List Char} {units : List Piece} :
    Cut markup units ↔ pieces markup = units := by
  constructor
  · exact Cut.pieces_eq
  · rintro rfl
    obtain ⟨units, cut⟩ := exists_cut markup
    rw [cut.pieces_eq]
    exact cut

/-! ### Escaped text -/

theorem escape_singleton (c : Char) : escape [c] = escapeChar c :=
  List.flatMap_singleton ..

theorem escapeChar_eq_entity (c : Char) :
    (escapeChar c = [c] ∧ c ≠ '&' ∧ c ≠ '<') ∨
      ∃ body, EntityBody body ∧ escapeChar c = '&' :: (body ++ [';']) := by
  have entity : ∀ body, isEntityBody body = true → EntityBody body :=
    fun body => (isEntityBody_iff body).mp
  unfold escapeChar
  split
  · exact .inr ⟨"amp".toList, entity _ (by decide), rfl⟩
  · exact .inr ⟨"lt".toList, entity _ (by decide), rfl⟩
  · exact .inr ⟨"gt".toList, entity _ (by decide), rfl⟩
  · exact .inr ⟨"quot".toList, entity _ (by decide), rfl⟩
  · exact .inr ⟨"#39".toList, entity _ (by decide), rfl⟩
  · rename_i notAmpersand notLess _ _ _
    exact .inl ⟨rfl, notAmpersand, notLess⟩

def escapedUnit (c : Char) : Piece :=
  match c with
  | '&' => .entity "amp".toList
  | '<' => .entity "lt".toList
  | '>' => .entity "gt".toList
  | '"' => .entity "quot".toList
  | '\'' => .entity "#39".toList
  | '\n' => .newline
  | c => .glyph c

theorem text_escapedUnit (c : Char) : (escapedUnit c).text = escapeChar c := by
  unfold escapedUnit escapeChar
  split <;> first | rfl | simp_all [Piece.text]

theorem cut_escapeChar (c : Char) {rest : List Char} {units : List Piece} (cut : Cut rest units) :
    Cut (escapeChar c ++ rest) (escapedUnit c :: units) := by
  have entity : ∀ body, isEntityBody body = true →
      Cut ('&' :: (body ++ [';']) ++ rest) (.entity body :: units) := by
    intro body valid
    simpa using Cut.entity ((isEntityBody_iff body).mp valid) cut
  unfold escapedUnit
  split
  · exact entity "amp".toList (by decide)
  · exact entity "lt".toList (by decide)
  · exact entity "gt".toList (by decide)
  · exact entity "quot".toList (by decide)
  · exact entity "#39".toList (by decide)
  · exact .newline cut
  · rename_i notAmpersand notLess notGreater notQuote notApostrophe notNewline
    have plain : escapeChar c = [c] := by
      unfold escapeChar
      split <;> simp_all
    rw [plain]
    exact .glyph notLess notNewline (fun same => absurd same notAmpersand) cut

/-- Escaped text is cut into one unit a character, whatever follows. -/
theorem cut_escape (text : List Char) {rest : List Char} {units : List Piece}
    (cut : Cut rest units) : Cut (escape text ++ rest) (text.map escapedUnit ++ units) := by
  induction text with
  | nil => exact cut
  | cons c text ih =>
    rw [escape, List.flatMap_cons, List.append_assoc]
    exact cut_escapeChar c ih

theorem pieces_escape (text : List Char) : pieces (escape text) = text.map escapedUnit := by
  have cut := cut_escape text .nil
  rw [List.append_nil, List.append_nil] at cut
  exact cut.pieces_eq

end CodeAtlas.Markup
