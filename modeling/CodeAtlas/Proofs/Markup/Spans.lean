import CodeAtlas.Proofs.Markup.Filling
import CodeAtlas.Proofs.Render.Highlighting
import CodeAtlas.Proofs.Symbol.Wrapping

/-!
# Spans that overlap

The markers of occurrences may overlap each other and the spans of highlighting in any way. All of them are
spans, so a closing tag closes the innermost one whoever opened it, and only the number of open spans
counts. It never falls below zero along the markers, nor along the highlighted source, and so it does not
along the two woven together.
-/

namespace CodeAtlas.Markup

open Nesting

/-! ### Openings and closings -/

/-- No front of the items closes more than it opens, and all of them close as much as they open. -/
structure Level {α : Type} (opens closes : α → Bool) (items : List α) : Prop where
  enough : ∀ front, front <+: items → front.countP closes ≤ front.countP opens
  even : items.countP closes = items.countP opens

section Level

variable {α : Type} {opens closes : α → Bool}

theorem countP_of_neutral {items : List α}
    (neutral : ∀ item ∈ items, opens item = false ∧ closes item = false) :
    items.countP opens = 0 ∧ items.countP closes = 0 := by
  constructor
  · exact List.countP_eq_zero.mpr fun item mem => by simp [(neutral item mem).1]
  · exact List.countP_eq_zero.mpr fun item mem => by simp [(neutral item mem).2]

theorem Level.of_neutral {items : List α}
    (neutral : ∀ item ∈ items, opens item = false ∧ closes item = false) :
    Level opens closes items := by
  constructor
  · intro front start
    rw [(countP_of_neutral fun item mem => neutral item (start.subset mem)).2]
    exact Nat.zero_le _
  · obtain ⟨opened, closed⟩ := countP_of_neutral neutral
    rw [opened, closed]

theorem Level.append {first second : List α} (level : Level opens closes first)
    (later : Level opens closes second) : Level opens closes (first ++ second) where
  enough := by
    intro front start
    rcases List.prefix_or_prefix_of_prefix start (List.prefix_append first second) with short | long
    · exact level.enough front short
    · obtain ⟨rest, rfl⟩ := long
      have more := later.enough rest ((List.prefix_append_right_inj first).mp start)
      have even := level.even
      rw [List.countP_append, List.countP_append]
      omega
  even := by rw [List.countP_append, List.countP_append, level.even, later.even]

theorem Level.wrap {first last : α} {middle : List α} (starts : opens first = true)
    (notEnd : closes first = false) (ends : closes last = true) (notStart : opens last = false)
    (neutral : ∀ item ∈ middle, opens item = false ∧ closes item = false) :
    Level opens closes (first :: (middle ++ [last])) := by
  obtain ⟨opened, closed⟩ := countP_of_neutral neutral
  have once : (middle ++ [last]).countP closes = 1 := by simp [closed, ends]
  constructor
  · intro front start
    cases front with
    | nil => exact Nat.le_refl _
    | cons item front =>
      obtain ⟨rfl, inside⟩ := List.cons_prefix_cons.mp start
      have few : front.countP closes ≤ (middle ++ [last]).countP closes := inside.sublist.countP_le
      rw [List.countP_cons_of_neg (by simp [notEnd]), List.countP_cons_of_pos starts]
      omega
  · rw [List.countP_cons_of_neg (by simp [notEnd]), List.countP_cons_of_pos starts, once]
    simp [opened, notStart]

end Level

/-- An item that opens a span, closes one, or leaves open what is open. -/
inductive SpanItem (opens closes : Bool) (text : List Char) : Prop where
  | opening : opens = true → closes = false →
    (∀ outer, Passes outer text ("span".toList :: outer)) → SpanItem opens closes text
  | closing : opens = false → closes = true →
    (∀ outer, Passes ("span".toList :: outer) text outer) → SpanItem opens closes text
  | neutral : opens = false → closes = false → Balanced text → SpanItem opens closes text

theorem passes_spanItems {α : Type} {opens closes : α → Bool} {text : α → List Char} {items : List α}
    (each : ∀ item ∈ items, SpanItem (opens item) (closes item) (text item)) {height : Nat}
    (enough : ∀ front, front <+: items → front.countP closes ≤ height + front.countP opens)
    (outer : List (List Char)) :
    Passes (List.replicate height "span".toList ++ outer) (items.flatMap text)
      (List.replicate (height + items.countP opens - items.countP closes) "span".toList ++ outer) := by
  induction items generalizing height with
  | nil => exact .nil _
  | cons item items ih =>
    obtain ⟨first, each⟩ := List.forall_mem_cons.mp each
    have rest : ∀ front, front <+: items → (item :: front).countP closes ≤
        height + (item :: front).countP opens :=
      fun front start => enough (item :: front) (List.cons_prefix_cons.mpr ⟨rfl, start⟩)
    rw [List.flatMap_cons]
    cases first with
    | opening starts notEnd passes =>
      have opened : ∀ front, (item :: front).countP opens = front.countP opens + 1 :=
        fun front => List.countP_cons_of_pos starts
      have closed : ∀ front, (item :: front).countP closes = front.countP closes :=
        fun front => List.countP_cons_of_neg (by simp [notEnd])
      have higher : ∀ front, front <+: items →
          front.countP closes ≤ height + 1 + front.countP opens := by
        intro front start
        have here := rest front start
        rw [opened, closed] at here
        omega
      have same : height + (item :: items).countP opens = height + 1 + items.countP opens := by
        rw [opened]
        omega
      rw [same, closed]
      exact (passes _).append (ih each higher)
    | closing notStart ends passes =>
      have opened : ∀ front, (item :: front).countP opens = front.countP opens :=
        fun front => List.countP_cons_of_neg (by simp [notStart])
      have closed : ∀ front, (item :: front).countP closes = front.countP closes + 1 :=
        fun front => List.countP_cons_of_pos ends
      obtain ⟨lower, rfl⟩ : ∃ lower, height = lower + 1 := by
        have here := rest [] List.nil_prefix
        rw [opened, closed] at here
        exact ⟨height - 1, by simp at here; omega⟩
      have lowered : ∀ front, front <+: items → front.countP closes ≤ lower + front.countP opens := by
        intro front start
        have here := rest front start
        rw [opened, closed] at here
        omega
      have same : lower + 1 + (item :: items).countP opens - (item :: items).countP closes =
          lower + items.countP opens - items.countP closes := by
        rw [opened, closed]
        omega
      rw [same]
      exact (passes _).append (ih each lowered)
    | neutral notStart notEnd balanced =>
      have opened : ∀ front, (item :: front).countP opens = front.countP opens :=
        fun front => List.countP_cons_of_neg (by simp [notStart])
      have closed : ∀ front, (item :: front).countP closes = front.countP closes :=
        fun front => List.countP_cons_of_neg (by simp [notEnd])
      have kept : ∀ front, front <+: items → front.countP closes ≤ height + front.countP opens := by
        intro front start
        have here := rest front start
        rwa [opened, closed] at here
      rw [opened, closed]
      exact (balanced _).append (ih each kept)

theorem Level.balanced {α : Type} {opens closes : α → Bool} {text : α → List Char} {items : List α}
    (level : Level opens closes items)
    (each : ∀ item ∈ items, SpanItem (opens item) (closes item) (text item)) :
    Balanced (items.flatMap text) := by
  intro outer
  have enough : ∀ front, front <+: items → front.countP closes ≤ 0 + front.countP opens := by
    intro front start
    rw [Nat.zero_add]
    exact level.enough front start
  have passes := passes_spanItems each enough outer
  rw [level.even, Nat.zero_add, Nat.sub_self] at passes
  exact passes

/-! ### Two sequences woven together -/

/-- Whether a unit or insertion is the closing tag of a span. -/
def Piece.closes (unit : Piece) : Bool :=
  unit == .tag Token.closing

/-- Whether a unit is a tag other than the closing one of a span. -/
def Piece.opens (unit : Piece) : Bool :=
  unit.isTag && !unit.closes

def Insertion.closes (insertion : Insertion) : Bool :=
  insertion.text == Occurrence.closeMarker

def Insertion.opens (insertion : Insertion) : Bool :=
  !insertion.closes

namespace Fragment

def closes : Fragment → Bool
  | .unit piece => piece.closes
  | .inserted insertion => insertion.closes

def opens : Fragment → Bool
  | .unit piece => piece.opens
  | .inserted insertion => insertion.opens

end Fragment

theorem countP_fragments {p : Fragment → Bool} {ofUnit : Piece → Bool} {ofInsertion : Insertion → Bool}
    (unit : ∀ piece, p (.unit piece) = ofUnit piece)
    (inserted : ∀ insertion, p (.inserted insertion) = ofInsertion insertion)
    (fragments : List Fragment) :
    fragments.countP p = (unitsOf fragments).countP ofUnit + (insertionsOf fragments).countP ofInsertion := by
  induction fragments with
  | nil => rfl
  | cons fragment fragments ih =>
    cases fragment with
    | unit piece =>
      rw [unitsOf_cons_unit, insertionsOf_cons_unit, List.countP_cons, List.countP_cons, ih, unit]
      omega
    | inserted insertion =>
      rw [unitsOf_cons_inserted, insertionsOf_cons_inserted, List.countP_cons, List.countP_cons, ih,
        inserted]
      omega

/-- Where the units and the insertions are level, so are the fragments. -/
theorem level_fragments {fragments : List Fragment}
    (units : Level Piece.opens Piece.closes (unitsOf fragments))
    (insertions : Level Insertion.opens Insertion.closes (insertionsOf fragments)) :
    Level Fragment.opens Fragment.closes fragments := by
  have opened : ∀ front : List Fragment, front.countP Fragment.opens =
      (unitsOf front).countP Piece.opens + (insertionsOf front).countP Insertion.opens :=
    countP_fragments (fun _ => rfl) fun _ => rfl
  have closed : ∀ front : List Fragment, front.countP Fragment.closes =
      (unitsOf front).countP Piece.closes + (insertionsOf front).countP Insertion.closes :=
    countP_fragments (fun _ => rfl) fun _ => rfl
  constructor
  · intro front start
    have ofUnits := units.enough _ (start.filterMap Fragment.unit?)
    have ofInsertions := insertions.enough _ (start.filterMap Fragment.insertion?)
    rw [opened front, closed front]
    exact Nat.add_le_add ofUnits ofInsertions
  · rw [opened fragments, closed fragments, units.even, insertions.even]

/-! ### Highlighted source -/

theorem neutral_escapedUnit (c : Char) :
    (escapedUnit c).opens = false ∧ (escapedUnit c).closes = false := by
  have notTag := isTag_escapedUnit c
  refine ⟨by simp [Piece.opens, notTag], beq_eq_false_iff_ne.mpr fun same => ?_⟩
  rw [same] at notTag
  cases notTag

theorem level_units (run : Token.Run) : Level Piece.opens Piece.closes run.units := by
  have neutral : ∀ unit ∈ run.text.map escapedUnit, unit.opens = false ∧ unit.closes = false := by
    intro unit mem
    obtain ⟨c, _, rfl⟩ := List.mem_map.mp mem
    exact neutral_escapedUnit c
  obtain ⟨tokenClass, text⟩ := run
  cases tokenClass with
  | none => exact .of_neutral neutral
  | some tokenClass =>
    refine Level.wrap ?_ ?_ (by decide) (by decide) neutral
    · cases tokenClass <;> decide
    · cases tokenClass <;> decide

theorem level_runs (runs : List Token.Run) :
    Level Piece.opens Piece.closes (runs.flatMap Token.Run.units) := by
  induction runs with
  | nil => exact .of_neutral (by simp)
  | cons run runs ih =>
    rw [List.flatMap_cons]
    exact (level_units run).append ih

/-! ### Markers -/

theorem countP_markersOf (p : Insertion → Bool) (occurrences : List Occurrence) :
    (markersOf occurrences).countP p =
      occurrences.countP (fun occurrence => p occurrence.opening) +
        occurrences.countP (fun occurrence => p occurrence.closing) := by
  induction occurrences with
  | nil => rfl
  | cons occurrence occurrences ih =>
    have split : markersOf (occurrence :: occurrences) =
        occurrence.opening :: occurrence.closing :: markersOf occurrences := rfl
    rw [split, List.countP_cons, List.countP_cons, List.countP_cons, List.countP_cons, ih]
    omega

theorem closes_opening (occurrence : Occurrence) : occurrence.opening.closes = false :=
  beq_eq_false_iff_ne.mpr (Occurrence.openMarker_ne_closeMarker occurrence.rangeId)

theorem closes_closing (occurrence : Occurrence) : occurrence.closing.closes = true :=
  beq_self_eq_true _

/-- What closes at or before a place has opened before it. -/
theorem countP_closes_le {occurrences : List Occurrence}
    (forward : ∀ occurrence ∈ occurrences,
      occurrence.range.start.place < occurrence.range.stop.place) (place : ℕ ×ₗ ℕ) :
    ((markersOf occurrences).countP fun marker =>
        marker.closes && decide (marker.position.place ≤ place)) ≤
      (markersOf occurrences).countP fun marker =>
        marker.opens && decide (marker.position.place < place) := by
  rw [countP_markersOf, countP_markersOf]
  have noClosing : (occurrences.countP fun occurrence => occurrence.opening.closes &&
      decide (occurrence.opening.position.place ≤ place)) = 0 :=
    List.countP_eq_zero.mpr fun occurrence _ => by simp [closes_opening]
  have noOpening : (occurrences.countP fun occurrence => occurrence.closing.opens &&
      decide (occurrence.closing.position.place < place)) = 0 :=
    List.countP_eq_zero.mpr fun occurrence _ => by simp [Insertion.opens, closes_closing]
  rw [noClosing, noOpening, Nat.zero_add, Nat.add_zero]
  refine List.countP_mono_left fun occurrence mem stops => ?_
  rw [closes_closing, Bool.true_and, decide_eq_true_eq] at stops
  rw [Insertion.opens, closes_opening, Bool.not_false, Bool.true_and, decide_eq_true_eq]
  exact lt_of_lt_of_le (forward occurrence mem) stops

/-- In the order of their places the markers are level. -/
theorem level_queue {occurrences : List Occurrence} {queue : List Insertion}
    (forward : ∀ occurrence ∈ occurrences,
      occurrence.range.start.place < occurrence.range.stop.place)
    (perm : queue.Perm (markersOf occurrences))
    (sorted : queue.Pairwise fun a b => a.position.place ≤ b.position.place) :
    Level Insertion.opens Insertion.closes queue := by
  constructor
  · intro front start
    obtain ⟨back, rfl⟩ := start
    rcases List.eq_nil_or_concat front with rfl | ⟨before, last, rfl⟩
    · exact Nat.le_refl _
    · rw [List.concat_eq_append] at sorted perm ⊢
      obtain ⟨inFront, _, across⟩ := List.pairwise_append.mp sorted
      have early : ∀ insertion ∈ before ++ [last], insertion.position.place ≤ last.position.place := by
        intro insertion mem
        rcases List.mem_append.mp mem with earlier | same
        · exact (List.pairwise_append.mp inFront).2.2 insertion earlier last List.mem_cons_self
        · rw [List.mem_singleton.mp same]
      have late : ∀ insertion ∈ back, last.position.place ≤ insertion.position.place :=
        fun insertion mem => across last (List.mem_append_right _ List.mem_cons_self) insertion mem
      calc (before ++ [last]).countP Insertion.closes
          ≤ (before ++ [last]).countP fun insertion =>
              insertion.closes && decide (insertion.position.place ≤ last.position.place) := by
            refine List.countP_mono_left fun insertion mem closes => ?_
            simp [closes, early insertion mem]
        _ ≤ (before ++ [last] ++ back).countP fun insertion =>
              insertion.closes && decide (insertion.position.place ≤ last.position.place) :=
            (List.sublist_append_left _ _).countP_le
        _ ≤ (before ++ [last] ++ back).countP fun insertion =>
              insertion.opens && decide (insertion.position.place < last.position.place) := by
            rw [perm.countP_eq, perm.countP_eq]
            exact countP_closes_le forward last.position.place
        _ = (before ++ [last]).countP fun insertion =>
              insertion.opens && decide (insertion.position.place < last.position.place) := by
            have none : (back.countP fun insertion =>
                insertion.opens && decide (insertion.position.place < last.position.place)) = 0 :=
              List.countP_eq_zero.mpr fun insertion mem => by simp [late insertion mem]
            rw [List.countP_append, none, Nat.add_zero]
        _ ≤ (before ++ [last]).countP Insertion.opens := by
            refine List.countP_mono_left fun insertion _ opens => ?_
            exact (Bool.and_eq_true _ _ ▸ opens).1
  · rw [perm.countP_eq, perm.countP_eq, countP_markersOf, countP_markersOf]
    simp [Insertion.opens, closes_opening, closes_closing]

/-! ### Woven source -/

/-- Woven source is written in fragments: the units of its runs, and the markers by their places. -/
theorem exists_fragments_weave (runs : List Token.Run) (occurrences : List Occurrence) :
    ∃ fragments, weave (runs.flatMap Token.Run.markup) (markersOf occurrences) =
        fragments.flatMap Fragment.text ∧
      unitsOf fragments = runs.flatMap Token.Run.units ∧
      insertionsOf fragments = (markersOf occurrences).mergeSort Insertion.before := by
  rw [weave_eq_interleave, (Token.cut_runs runs).pieces_eq]
  exact ⟨_, rfl, unitsOf_interleave _ _ _, insertionsOf_interleave _ _ _⟩

theorem forall_fragments {P : Fragment → Prop} {fragments : List Fragment}
    (units : ∀ piece ∈ unitsOf fragments, P (.unit piece))
    (insertions : ∀ insertion ∈ insertionsOf fragments, P (.inserted insertion)) :
    ∀ fragment ∈ fragments, P fragment := by
  intro fragment mem
  cases fragment with
  | unit piece => exact units piece (List.mem_filterMap.mpr ⟨_, mem, rfl⟩)
  | inserted insertion => exact insertions insertion (List.mem_filterMap.mpr ⟨_, mem, rfl⟩)

theorem passes_endTag (outer : List (List Char)) :
    Passes ("span".toList :: outer) "</span>".toList outer := by
  have read : openAfter? [] [] ["span".toList] ("</span>".toList.map .char) = some [] := by decide
  exact passes_literal read outer

theorem spanItem_unit {runs : List Token.Run} {unit : Piece}
    (mem : unit ∈ runs.flatMap Token.Run.units) : SpanItem unit.opens unit.closes unit.text := by
  have escaped : ∀ text : List Char, unit ∈ text.map escapedUnit →
      SpanItem unit.opens unit.closes unit.text := by
    intro text inside
    obtain ⟨c, _, rfl⟩ := List.mem_map.mp inside
    obtain ⟨notStart, notEnd⟩ := neutral_escapedUnit c
    refine .neutral notStart notEnd ?_
    rw [text_escapedUnit]
    exact balanced_escapeChar c
  obtain ⟨⟨tokenClass, text⟩, _, inside⟩ := List.mem_flatMap.mp mem
  cases tokenClass with
  | none => exact escaped text inside
  | some tokenClass =>
    rcases List.mem_cons.mp inside with rfl | inside
    · have read : openAfter? [] [] [] ((Token.opening tokenClass).map .char) = some ["span".toList] := by
        cases tokenClass <;> decide
      exact .opening (by cases tokenClass <;> decide) (by cases tokenClass <;> decide)
        (passes_literal read)
    · rcases List.mem_append.mp inside with inside | last
      · exact escaped text inside
      · rw [List.mem_singleton.mp last]
        exact .closing (by decide) (by decide) passes_endTag

theorem spanItem_marker {occurrences : List Occurrence}
    (quoted : ∀ occurrence ∈ occurrences, '"' ∉ occurrence.rangeId.name.toList) {insertion : Insertion}
    (mem : insertion ∈ markersOf occurrences) :
    SpanItem insertion.opens insertion.closes insertion.text := by
  obtain ⟨occurrence, listed, inside⟩ := List.mem_flatMap.mp mem
  rcases List.mem_cons.mp inside with rfl | last
  · have read : openAfter? [] [[]] [] ("<span id=\"lsif".toList.map .char ++
        .place [] :: "\">".toList.map .char) = some ["span".toList] := by decide
    have notEnd := closes_opening occurrence
    exact .opening (congrArg not notEnd) notEnd (passes_attribute read (quoted occurrence listed))
  · rw [List.mem_singleton.mp last]
    have isEnd := closes_closing occurrence
    exact .closing (congrArg not isEnd) isEnd passes_endTag

/-- Source in which the markers of occurrences are woven is balanced, however they overlap. -/
theorem balanced_weave {runs : List Token.Run} {occurrences : List Occurrence}
    (forward : ∀ occurrence ∈ occurrences,
      occurrence.range.start.place < occurrence.range.stop.place)
    (quoted : ∀ occurrence ∈ occurrences, '"' ∉ occurrence.rangeId.name.toList) :
    Balanced (weave (runs.flatMap Token.Run.markup) (markersOf occurrences)) := by
  have order := inOrder_mergeSort (markersOf occurrences)
  have perm := List.mergeSort_perm (markersOf occurrences) Insertion.before
  obtain ⟨fragments, woven, units, insertions⟩ := exists_fragments_weave runs occurrences
  rw [woven]
  have level : Level Fragment.opens Fragment.closes fragments := by
    refine level_fragments ?_ ?_
    · rw [units]
      exact level_runs runs
    · rw [insertions]
      exact level_queue forward perm order.sorted
  refine level.balanced (forall_fragments ?_ ?_)
  · rw [units]
    intro piece mem
    exact spanItem_unit mem
  · rw [insertions]
    intro insertion mem
    exact spanItem_marker quoted (perm.mem_iff.mp mem)

end CodeAtlas.Markup
