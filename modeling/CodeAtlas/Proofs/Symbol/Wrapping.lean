import CodeAtlas.Proofs.Dump.Adjacency
import CodeAtlas.Proofs.Markup.Placement
import CodeAtlas.Symbol.Occurrence
import Mathlib.Data.List.Nodup

/-!
# What a marker encloses

A range of the source is to stand between its opening marker and the closing marker that matches it by
nesting. Closing markers do not say whose they are, and those that meet at one place keep the order in
which their ranges are listed. `markers_enclose_iff` says for which orders all goes well: no range may
be listed before one that ends where it starts.
-/

namespace CodeAtlas

/-! ### Places in a text -/

/-- The place that is reached after some characters: their line, and in it the UTF-16 units. -/
def Text.reached (passed : List Char) : ℕ ×ₗ ℕ :=
  toLex (passed.count '\n',
    (passed.rtakeWhile fun c => c != '\n').foldl (fun n c => n + units16 c) 0)

/-- The range goes from one character boundary of the source to another, and `text` is between. -/
def Range.Selects (range : Range) (source text : List Char) : Prop :=
  ∃ before after, source = before ++ text ++ after ∧
    range.start.place = Text.reached before ∧ range.stop.place = Text.reached (before ++ text)

namespace Markup

def reachedAfter (passed : List Piece) : ℕ ×ₗ ℕ :=
  toLex (lineAfter passed, columnAfter passed)

theorem escapedUnit_eq_newline_iff (c : Char) : escapedUnit c = .newline ↔ c = '\n' := by
  unfold escapedUnit
  split <;> simp_all

theorem eq_nil_of_escape_eq_nil {text : List Char} (empty : escape text = []) : text = [] := by
  cases text with
  | nil => rfl
  | cons c text =>
    have first : escapeChar c = [] := (List.append_eq_nil_iff.mp empty).1
    unfold escapeChar at first
    split at first <;> cases first

theorem columns_escapedUnit {c : Char} (notNewline : c ≠ '\n') :
    (escapedUnit c).columns = Text.units16 c := by
  unfold escapedUnit
  split <;> first | rfl | exact absurd rfl notNewline

theorem lineAfter_map_escapedUnit (passed : List Char) :
    lineAfter (passed.map escapedUnit) = passed.count '\n' := by
  rw [lineAfter, List.count, List.countP_map, List.count]
  apply List.countP_congr
  intro c _
  simp [escapedUnit_eq_newline_iff]

theorem columnAfter_map_escapedUnit (passed : List Char) :
    columnAfter (passed.map escapedUnit) =
      (passed.rtakeWhile fun c => c != '\n').foldl (fun n c => n + Text.units16 c) 0 := by
  induction passed using List.reverseRecOn with
  | nil => rfl
  | append_singleton passed last ih =>
    rw [List.map_append, List.map_singleton, columnAfter_append]
    by_cases newline : last = '\n'
    · simp [newline, escapedUnit_eq_newline_iff]
    · simp [newline, escapedUnit_eq_newline_iff, ih, columns_escapedUnit]

theorem reachedAfter_map_escapedUnit (passed : List Char) :
    reachedAfter (passed.map escapedUnit) = Text.reached passed := by
  rw [reachedAfter, lineAfter_map_escapedUnit, columnAfter_map_escapedUnit, Text.reached]

theorem line_lt_of_newline (passed : List Piece) (column : ℕ) :
    toLex (lineAfter passed, column) < reachedAfter (passed ++ [.newline]) := by
  rw [reachedAfter, lineAfter_append, if_pos rfl]
  exact Prod.Lex.toLex_lt_toLex.mpr (Or.inl (Nat.lt_succ_self _))

/-- Every character of a text leads on to a later place. -/
theorem reachedAfter_lt_append (passed : List Piece) (c : Char) :
    reachedAfter passed < reachedAfter (passed ++ [escapedUnit c]) := by
  by_cases newline : c = '\n'
  · subst newline
    exact line_lt_of_newline passed _
  · have other : escapedUnit c ≠ .newline := fun same => newline ((escapedUnit_eq_newline_iff c).mp same)
    have wide : 0 < Text.units16 c := by
      unfold Text.units16
      split <;> omega
    rw [reachedAfter, reachedAfter, lineAfter_append, columnAfter_append, if_neg other, if_neg other,
      columns_escapedUnit newline]
    exact Prod.Lex.toLex_lt_toLex.mpr (Or.inr ⟨rfl, Nat.lt_add_of_pos_right wide⟩)

theorem placeAfter_lt_reachedAfter (passed : List Piece) (c : Char) :
    placeAfter passed (escapedUnit c) < reachedAfter (passed ++ [escapedUnit c]) := by
  have step := reachedAfter_lt_append passed c
  cases unit : escapedUnit c with
  | newline => exact line_lt_of_newline passed _
  | _ => rwa [unit] at step

theorem reachedAfter_le_placeAfter_of_le {passed : List Piece} {insertion : Insertion}
    (due : insertion.position.place ≤ reachedAfter passed) (unit : Piece) :
    insertion.position.place ≤ placeAfter passed unit := by
  cases unit with
  | newline =>
    -- A line may be longer than any column that a position can name.
    have bound := insertion.position.character.toNat_lt_size
    rcases Prod.Lex.toLex_le_toLex.mp due with earlier | ⟨same, _⟩
    · exact Prod.Lex.toLex_le_toLex.mpr (Or.inl earlier)
    · exact Prod.Lex.toLex_le_toLex.mpr (Or.inr ⟨same, by dsimp only; omega⟩)
  | _ => exact due

end Markup

theorem Text.reached_lt_append_singleton (before : List Char) (c : Char) :
    Text.reached before < Text.reached (before ++ [c]) := by
  have step := Markup.reachedAfter_lt_append (before.map Markup.escapedUnit) c
  rwa [← List.map_singleton (f := Markup.escapedUnit), ← List.map_append,
    Markup.reachedAfter_map_escapedUnit, Markup.reachedAfter_map_escapedUnit] at step

theorem Text.reached_le_append (before text : List Char) :
    Text.reached before ≤ Text.reached (before ++ text) := by
  induction text using List.reverseRecOn with
  | nil => simp
  | append_singleton text last ih =>
    rw [← List.append_assoc]
    exact ih.trans (le_of_lt (Text.reached_lt_append_singleton _ _))

theorem Text.reached_lt_append (before : List Char) {text : List Char} (some : text ≠ []) :
    Text.reached before < Text.reached (before ++ text) := by
  cases text with
  | nil => exact absurd rfl some
  | cons c text =>
    rw [List.append_cons]
    exact lt_of_lt_of_le (Text.reached_lt_append_singleton before c) (Text.reached_le_append _ text)

theorem Range.Selects.start_lt_stop {range : Range} {source text : List Char}
    (selects : range.Selects source text) (some : text ≠ []) : range.start.place < range.stop.place := by
  obtain ⟨before, _, _, start, stop⟩ := selects
  rw [start, stop]
  exact Text.reached_lt_append before some

/-! ### Matching by nesting -/

namespace Markup

open Occurrence

/-- What stands before the closing marker that matches, if so many markers were opened since. -/
def untilClosed? (depth : Nat) : List Fragment → Option (List Char)
  | [] => none
  | .unit unit :: rest => (untilClosed? depth rest).map (unit.text ++ ·)
  | .inserted insertion :: rest =>
    if insertion.text = closeMarker then
      match depth with
      | 0 => some []
      | depth + 1 => (untilClosed? depth rest).map (insertion.text ++ ·)
    else (untilClosed? (depth + 1) rest).map (insertion.text ++ ·)

/-- What stands between the marker of a range and the closing marker that matches it by nesting. -/
def enclosed? (rangeId : ElementId) : List Fragment → Option (List Char)
  | [] => none
  | .unit _ :: rest => enclosed? rangeId rest
  | .inserted insertion :: rest =>
    if insertion.text = openMarker rangeId then untilClosed? 0 rest else enclosed? rangeId rest

theorem enclosed?_append {rangeId : ElementId} {fragments : List Fragment}
    (absent : ∀ insertion ∈ insertionsOf fragments, insertion.text ≠ openMarker rangeId)
    (rest : List Fragment) : enclosed? rangeId (fragments ++ rest) = enclosed? rangeId rest := by
  induction fragments with
  | nil => rfl
  | cons fragment fragments ih =>
    cases fragment with
    | unit unit => exact ih absent
    | inserted insertion =>
      obtain ⟨here, later⟩ := List.forall_mem_cons.mp absent
      rw [List.cons_append, enclosed?, if_neg here]
      exact ih later

theorem untilClosed?_units (text : List Char) (rest : List Fragment) (depth : Nat) :
    untilClosed? depth ((text.map escapedUnit).map .unit ++ rest) =
      (untilClosed? depth rest).map (escape text ++ ·) := by
  induction text with
  | nil => simp [escape]
  | cons c text ih =>
    rw [List.map_cons, List.map_cons, List.cons_append, untilClosed?, ih, Option.map_map,
      text_escapedUnit]
    simp [escape, Function.comp_def]

/-! ### Cutting the fragments at a place -/

theorem takeWhile_append_of_untaken {passed : List Piece} {unit : Piece} {later : List Insertion}
    (left : ∀ insertion ∈ later, ¬ Takes passed unit insertion) (queue : List Insertion) :
    (queue ++ later).takeWhile (fun i => decide (Takes passed unit i)) =
        queue.takeWhile (fun i => decide (Takes passed unit i)) ∧
      (queue ++ later).dropWhile (fun i => decide (Takes passed unit i)) =
        queue.dropWhile (fun i => decide (Takes passed unit i)) ++ later := by
  induction queue with
  | nil =>
    cases later with
    | nil => exact ⟨rfl, rfl⟩
    | cons first later =>
      have here := left first List.mem_cons_self
      simp [here]
  | cons insertion queue ih =>
    by_cases taken : Takes passed unit insertion
    · simpa [taken] using ih
    · simp [taken]

/-- The insertions that a place divides are set among the units before it and those after it. -/
theorem interleave_append {passed units more : List Piece} {queue later : List Insertion}
    (untaken : ∀ insertion ∈ later, ∀ before unit after, units = before ++ unit :: after →
      ¬ Takes (passed ++ before) unit insertion)
    (taken : ∀ insertion ∈ queue, ∀ unit rest, more = unit :: rest →
      Takes (passed ++ units) unit insertion) :
    interleave passed (queue ++ later) (units ++ more) =
      interleave passed queue units ++ interleave (passed ++ units) later more := by
  induction units generalizing passed queue with
  | nil =>
    rw [List.append_nil] at taken ⊢
    induction queue with
    | nil => rfl
    | cons insertion queue ih =>
      obtain ⟨here, others⟩ := List.forall_mem_cons.mp taken
      rw [List.cons_append, List.nil_append, interleave_cons_of_takes here]
      exact congrArg _ (ih others)
  | cons unit units ih =>
    have left : ∀ insertion ∈ later, ¬ Takes passed unit insertion := by
      intro insertion mem
      simpa using untaken insertion mem [] unit units rfl
    obtain ⟨head, tail⟩ := takeWhile_append_of_untaken left queue
    rw [List.cons_append, interleave_cons, interleave_cons, head, tail, ih]
    · simp
    · intro insertion mem before other after same
      simpa using untaken insertion mem (unit :: before) other after (by rw [same]; rfl)
    · intro insertion mem other rest same
      simpa using taken insertion (List.dropWhile_subset _ mem) other rest same

theorem takes_of_le_reached {passed : List Char} {insertion : Insertion}
    (due : insertion.position.place ≤ Text.reached passed) (c : Char) :
    Takes (passed.map escapedUnit) (escapedUnit c) insertion := by
  rw [← reachedAfter_map_escapedUnit] at due
  exact ⟨isTag_escapedUnit c, reachedAfter_le_placeAfter_of_le due _⟩

theorem not_takes_of_reached_le {passed text : List Char} {insertion : Insertion}
    (later : Text.reached (passed ++ text) ≤ insertion.position.place) {before after : List Piece}
    {unit : Piece} (same : text.map escapedUnit = before ++ unit :: after) :
    ¬ Takes (passed.map escapedUnit ++ before) unit insertion := by
  obtain ⟨first, others, rfl, rfl, rest⟩ := List.map_eq_append_iff.mp same
  obtain ⟨c, last, rfl, rfl, rfl⟩ := List.map_eq_cons_iff.mp rest
  rintro ⟨_, le⟩
  have reached : reachedAfter ((passed ++ first).map escapedUnit ++ [escapedUnit c]) ≤
      insertion.position.place := by
    rw [← List.map_singleton (f := escapedUnit), ← List.map_append, reachedAfter_map_escapedUnit]
    refine le_trans (Text.reached_le_append _ last) ?_
    simpa using later
  rw [← List.map_append] at le
  exact absurd (lt_of_lt_of_le (placeAfter_lt_reachedAfter _ c) reached) (not_lt_of_ge le)

/-- The fragments of a text whose queue is cut at the place after `text`. -/
theorem interleave_escaped (passed text more : List Char) {queue later : List Insertion}
    (due : ∀ insertion ∈ queue, insertion.position.place ≤ Text.reached (passed ++ text))
    (undue : ∀ insertion ∈ later, Text.reached (passed ++ text) ≤ insertion.position.place) :
    interleave (passed.map escapedUnit) (queue ++ later) ((text ++ more).map escapedUnit) =
      interleave (passed.map escapedUnit) queue (text.map escapedUnit) ++
        interleave ((passed ++ text).map escapedUnit) later (more.map escapedUnit) := by
  rw [List.map_append, interleave_append, List.map_append]
  · intro insertion mem before unit after same
    exact not_takes_of_reached_le (undue insertion mem) same
  · intro insertion mem unit rest same
    obtain ⟨c, _, _, rfl, _⟩ := List.map_eq_cons_iff.mp same
    rw [← List.map_append]
    exact takes_of_le_reached (due insertion mem) c

theorem interleave_nil (passed units : List Piece) :
    interleave passed [] units = units.map .unit := by
  induction units generalizing passed with
  | nil => rfl
  | cons unit units ih => simp [interleave, ih]

/-- A marker whose neighbour in the queue closes something encloses the text between their places. -/
theorem enclosed?_of_adjacent {before text after : List Char} {start stop : Position}
    {rangeId : ElementId} {earlier later : List Insertion}
    (startAt : start.place = Text.reached before) (stopAt : stop.place = Text.reached (before ++ text))
    (sorted : (earlier ++ ⟨start, openMarker rangeId⟩ :: ⟨stop, closeMarker⟩ :: later).Pairwise
      fun a b => a.position.place ≤ b.position.place)
    (absent : ∀ insertion ∈ earlier, insertion.text ≠ openMarker rangeId) :
    enclosed? rangeId
        (interleave [] (earlier ++ ⟨start, openMarker rangeId⟩ :: ⟨stop, closeMarker⟩ :: later)
          ((before ++ (text ++ after)).map escapedUnit)) = some (escape text) := by
  obtain ⟨_, ordered, ascending⟩ := List.pairwise_append.mp sorted
  obtain ⟨fromStart, ordered⟩ := List.pairwise_cons.mp ordered
  obtain ⟨fromStop, _⟩ := List.pairwise_cons.mp ordered
  have dueAtStart : ∀ insertion ∈ earlier, insertion.position.place ≤ Text.reached before :=
    fun insertion mem => startAt ▸ ascending insertion mem _ List.mem_cons_self
  have behindStart : ∀ insertion ∈ (⟨start, openMarker rangeId⟩ :: ⟨stop, closeMarker⟩ :: later :
      List Insertion), Text.reached before ≤ insertion.position.place :=
    List.forall_mem_cons.mpr ⟨le_of_eq startAt.symm, fun i mem => startAt ▸ fromStart i mem⟩
  have behindStop : ∀ insertion ∈ (⟨stop, closeMarker⟩ :: later : List Insertion),
      Text.reached (before ++ text) ≤ insertion.position.place :=
    List.forall_mem_cons.mpr ⟨le_of_eq stopAt.symm, fun i mem => stopAt ▸ fromStop i mem⟩
  -- The queue is cut three times: at the start, behind the opening marker, and at the stop.
  have atStart := interleave_escaped [] before (text ++ after) dueAtStart behindStart
  have opened : interleave (before.map escapedUnit)
      (⟨start, openMarker rangeId⟩ :: ⟨stop, closeMarker⟩ :: later) ((text ++ after).map escapedUnit) =
      .inserted ⟨start, openMarker rangeId⟩ :: interleave (before.map escapedUnit)
        (⟨stop, closeMarker⟩ :: later) ((text ++ after).map escapedUnit) := by
    refine interleave_cons_of_takes fun unit rest same => ?_
    obtain ⟨c, _, _, rfl, _⟩ := List.map_eq_cons_iff.mp same
    exact takes_of_le_reached (le_of_eq startAt) c
  have atStop := interleave_escaped before text after (List.forall_mem_nil _) behindStop
  have closed : interleave ((before ++ text).map escapedUnit) (⟨stop, closeMarker⟩ :: later)
      (after.map escapedUnit) = .inserted ⟨stop, closeMarker⟩ ::
        interleave ((before ++ text).map escapedUnit) later (after.map escapedUnit) := by
    refine interleave_cons_of_takes fun unit rest same => ?_
    obtain ⟨c, _, _, rfl, _⟩ := List.map_eq_cons_iff.mp same
    exact takes_of_le_reached (le_of_eq stopAt) c
  rw [List.map_nil, List.nil_append] at atStart
  rw [List.nil_append, interleave_nil, closed] at atStop
  rw [atStart, enclosed?_append (by rwa [insertionsOf_interleave]), opened, enclosed?, if_pos rfl,
    atStop, untilClosed?_units, untilClosed?, if_pos rfl]
  simp

end Markup

/-! ### The queue of markers -/

theorem Position.place_injective {a b : Position} (same : a.place = b.place) : a = b := by
  obtain ⟨line, character⟩ := Prod.mk.inj (toLex.injective same)
  cases a
  cases b
  congr 1
  · exact UInt32.toNat_inj.mp line
  · exact UInt32.toNat_inj.mp character

namespace Occurrence

open Markup

def opening (occurrence : Occurrence) : Insertion :=
  ⟨occurrence.range.start, openMarker occurrence.rangeId⟩

def closing (occurrence : Occurrence) : Insertion :=
  ⟨occurrence.range.stop, closeMarker⟩

theorem openMarker_injective {a b : ElementId} (same : openMarker a = openMarker b) : a = b := by
  have names := List.append_cancel_left (List.append_cancel_right same)
  cases a
  cases b
  exact congrArg ElementId.mk (String.toList_injective names)

theorem openMarker_ne_closeMarker (id : ElementId) : openMarker id ≠ closeMarker := by
  intro same
  have opens : (openMarker id)[1]? = some 's' := rfl
  have closes : closeMarker[1]? = some '/' := rfl
  rw [same, closes] at opens
  exact absurd opens (by decide)

theorem getElem?_markersOf (occurrences : List Occurrence) (n : Nat) :
    (markersOf occurrences)[2 * n]? = occurrences[n]?.map opening ∧
      (markersOf occurrences)[2 * n + 1]? = occurrences[n]?.map closing := by
  induction occurrences generalizing n with
  | nil => simp [markersOf]
  | cons first occurrences ih =>
    have split : markersOf (first :: occurrences) =
        first.opening :: first.closing :: markersOf occurrences := rfl
    rw [split]
    cases n with
    | zero => exact ⟨rfl, rfl⟩
    | succ n => simpa [Nat.mul_succ] using ih n

theorem mem_zipIdx_markersOf {occurrences : List Occurrence} {marker : Insertion × Nat}
    (mem : marker ∈ (markersOf occurrences).zipIdx) :
    ∃ n occurrence, occurrences[n]? = some occurrence ∧
      (marker = (occurrence.opening, 2 * n) ∨ marker = (occurrence.closing, 2 * n + 1)) := by
  obtain ⟨insertion, k⟩ := marker
  have found := List.mem_zipIdx_iff_getElem?.mp mem
  obtain ⟨n, rfl | rfl⟩ : ∃ n, k = 2 * n ∨ k = 2 * n + 1 := ⟨k / 2, by omega⟩
  · rw [(getElem?_markersOf occurrences n).1] at found
    obtain ⟨occurrence, listed, rfl⟩ := Option.map_eq_some_iff.mp found
    exact ⟨n, occurrence, listed, Or.inl rfl⟩
  · rw [(getElem?_markersOf occurrences n).2] at found
    obtain ⟨occurrence, listed, rfl⟩ := Option.map_eq_some_iff.mp found
    exact ⟨n, occurrence, listed, Or.inr rfl⟩

theorem opening_mem_zipIdx {occurrences : List Occurrence} {n : Nat} {occurrence : Occurrence}
    (listed : occurrences[n]? = some occurrence) :
    (occurrence.opening, 2 * n) ∈ (markersOf occurrences).zipIdx := by
  rw [List.mem_zipIdx_iff_getElem?, (getElem?_markersOf occurrences n).1, listed]
  rfl

theorem closing_mem_zipIdx {occurrences : List Occurrence} {n : Nat} {occurrence : Occurrence}
    (listed : occurrences[n]? = some occurrence) :
    (occurrence.closing, 2 * n + 1) ∈ (markersOf occurrences).zipIdx := by
  rw [List.mem_zipIdx_iff_getElem?, (getElem?_markersOf occurrences n).2, listed]
  rfl

/-- The ranges of the occurrences select texts of the source that are not empty, each range is listed
once, and of every two one ends before the other starts, or where it starts. -/
structure Separate (source : List Char) (occurrences : List Occurrence) : Prop where
  once : (occurrences.map Occurrence.rangeId).Nodup
  selects : ∀ occurrence ∈ occurrences, ∃ text, text ≠ [] ∧ occurrence.range.Selects source text
  disjoint : occurrences.Pairwise fun a b =>
    a.range.stop.place ≤ b.range.start.place ∨ b.range.stop.place ≤ a.range.start.place

namespace Separate

variable {source : List Char} {occurrences : List Occurrence}

theorem forward (separate : Separate source occurrences) {n : Nat} {occurrence : Occurrence}
    (listed : occurrences[n]? = some occurrence) :
    occurrence.range.start.place < occurrence.range.stop.place := by
  obtain ⟨text, some, selects⟩ := separate.selects occurrence (List.mem_of_getElem? listed)
  exact selects.start_lt_stop some

theorem apart (separate : Separate source occurrences) {n m : Nat} {a b : Occurrence}
    (first : occurrences[n]? = some a) (second : occurrences[m]? = some b) (different : n ≠ m) :
    a.range.stop.place ≤ b.range.start.place ∨ b.range.stop.place ≤ a.range.start.place := by
  obtain ⟨here, rfl⟩ := List.getElem?_eq_some_iff.mp first
  obtain ⟨there, rfl⟩ := List.getElem?_eq_some_iff.mp second
  have pairs := List.pairwise_iff_getElem.mp separate.disjoint
  rcases Nat.lt_or_gt_of_ne different with less | greater
  · exact pairs n m here there less
  · exact (pairs m n there here greater).symm

theorem index_eq (separate : Separate source occurrences) {n m : Nat} {a b : Occurrence}
    (first : occurrences[n]? = some a) (second : occurrences[m]? = some b)
    (same : a.rangeId = b.rangeId) : n = m := by
  have short : n < (occurrences.map Occurrence.rangeId).length := by
    rw [List.length_map]
    exact (List.getElem?_eq_some_iff.mp first).1
  refine (List.getElem?_inj short separate.once).mp ?_
  rw [List.getElem?_map, List.getElem?_map, first, second, Option.map_some, Option.map_some, same]

end Separate

/-! ### Neighbours in the queue -/

theorem exists_adjacent {queue : List (Insertion × Nat)} {a b : Insertion × Nat}
    (sorted : queue.Pairwise fun x y => rank x < rank y) (first : a ∈ queue) (second : b ∈ queue)
    (less : rank a < rank b) (none : ∀ c ∈ queue, rank a < rank c → ¬ rank c < rank b) :
    ∃ earlier later, queue = earlier ++ a :: b :: later := by
  obtain ⟨earlier, tail, rfl⟩ := List.append_of_mem first
  obtain ⟨_, ordered, ascending⟩ := List.pairwise_append.mp sorted
  obtain ⟨fromFirst, ordered⟩ := List.pairwise_cons.mp ordered
  have inTail : b ∈ tail := by
    rcases List.mem_append.mp second with before | same | after
    · exact absurd less (ascending b before a List.mem_cons_self).asymm
    · exact absurd less (lt_irrefl _)
    · assumption
  cases tail with
  | nil => cases inTail
  | cons next later =>
    rcases List.mem_cons.mp inTail with rfl | beyond
    · exact ⟨earlier, later, rfl⟩
    · refine absurd ((List.pairwise_cons.mp ordered).1 b beyond) (none next ?_ ?_)
      · simp
      · exact fromFirst next List.mem_cons_self

theorem rank_lt_iff {a b : Insertion} {n m : Nat} :
    rank (a, n) < rank (b, m) ↔
      a.position.place < b.position.place ∨ a.position.place = b.position.place ∧ n < m :=
  Prod.Lex.toLex_lt_toLex

namespace Separate

variable {source : List Char} {occurrences : List Occurrence}

/-- An opening marker encloses the text up to the place of its neighbour, if that is a closing one. -/
theorem enclosed?_eq (separate : Separate source occurrences) {n m : Nat} {a b : Occurrence}
    (first : occurrences[n]? = some a) (second : occurrences[m]? = some b)
    (less : rank (a.opening, 2 * n) < rank (b.closing, 2 * m + 1))
    (none : ∀ c ∈ (markersOf occurrences).zipIdx, rank (a.opening, 2 * n) < rank c →
      ¬ rank c < rank (b.closing, 2 * m + 1))
    (before text after : List Char) (split : source = before ++ (text ++ after))
    (start : a.range.start.place = Text.reached before)
    (stop : b.range.stop.place = Text.reached (before ++ text)) :
    enclosed? a.rangeId (interleave [] ((markersOf occurrences).mergeSort Insertion.before)
      (source.map escapedUnit)) = some (escape text) := by
  have order := inOrder_mergeSort (markersOf occurrences)
  have sorted := order.sorted
  obtain ⟨numbered, perm, ranked, same⟩ := order
  obtain ⟨earlier, later, rfl⟩ := exists_adjacent ranked
    (perm.mem_iff.mpr (opening_mem_zipIdx first)) (perm.mem_iff.mpr (closing_mem_zipIdx second)) less
    fun c mem => none c (perm.mem_iff.mp mem)
  rw [List.map_append, List.map_cons, List.map_cons] at same
  rw [same] at sorted ⊢
  rw [split]
  refine enclosed?_of_adjacent start stop sorted fun insertion mem marks => ?_
  -- The marker of another range, or a closing one, has another text.
  obtain ⟨marker, listed, rfl⟩ := List.mem_map.mp mem
  have ahead := (List.pairwise_append.mp ranked).2.2 marker listed _ List.mem_cons_self
  have known := perm.mem_iff.mp (List.mem_append_left _ listed)
  obtain ⟨k, occurrence, present, rfl | rfl⟩ := mem_zipIdx_markersOf known
  · obtain rfl := separate.index_eq present first (openMarker_injective marks)
    obtain rfl : occurrence = a := Option.some.inj (present.symm.trans first)
    exact lt_irrefl _ ahead
  · exact openMarker_ne_closeMarker _ marks.symm

/-- If ranges that touch are listed in their order, a marker and its own closing one are neighbours. -/
theorem own_closing_next (separate : Separate source occurrences)
    (inOrder : occurrences.Pairwise fun a b => b.range.stop ≠ a.range.start) {n : Nat}
    {a : Occurrence} (listed : occurrences[n]? = some a) (c : Insertion × Nat)
    (mem : c ∈ (markersOf occurrences).zipIdx) (after : rank (a.opening, 2 * n) < rank c) :
    ¬ rank c < rank (a.closing, 2 * n + 1) := by
  intro before
  have ordered : ∀ (k m : Nat) (x y : Occurrence), occurrences[k]? = some x →
      occurrences[m]? = some y → k < m → y.range.stop.place ≠ x.range.start.place := by
    intro k m x y first second less same
    obtain ⟨here, rfl⟩ := List.getElem?_eq_some_iff.mp first
    obtain ⟨there, rfl⟩ := List.getElem?_eq_some_iff.mp second
    exact List.pairwise_iff_getElem.mp inOrder k m here there less (Position.place_injective same)
  obtain ⟨m, b, present, rfl | rfl⟩ := mem_zipIdx_markersOf mem
  · by_cases same : m = n
    · obtain rfl := same
      obtain rfl : a = b := Option.some.inj (listed.symm.trans present)
      exact lt_irrefl _ after
    · have forward := separate.forward present
      rcases separate.apart listed present (Ne.symm same) with far | far
      · rcases rank_lt_iff.mp before with less | ⟨touch, less⟩
        · exact absurd less (not_lt_of_ge far)
        · exact ordered m n b a present listed (by omega) touch.symm
      · rcases rank_lt_iff.mp after with less | ⟨touch, _⟩
        · exact absurd (less.trans forward) (not_lt_of_ge far)
        · exact absurd (touch ▸ forward) (not_lt_of_ge far)
  · by_cases same : m = n
    · obtain rfl := same
      obtain rfl : a = b := Option.some.inj (listed.symm.trans present)
      exact lt_irrefl _ before
    · have forward := separate.forward present
      rcases separate.apart listed present (Ne.symm same) with far | far
      · rcases rank_lt_iff.mp before with less | ⟨touch, _⟩
        · exact absurd (forward.trans less) (not_lt_of_ge far)
        · exact absurd (touch ▸ forward) (not_lt_of_ge far)
      · rcases rank_lt_iff.mp after with less | ⟨touch, less⟩
        · exact absurd less (not_lt_of_ge far)
        · exact ordered n m a b listed present (by omega) touch.symm

/-- If a range is listed before one that ends where it starts, then the closing marker of that one
comes right behind its own opening marker. -/
theorem foreign_closing_next (separate : Separate source occurrences) {n m : Nat} {a b : Occurrence}
    (first : occurrences[n]? = some a) (second : occurrences[m]? = some b)
    (touch : b.range.stop.place = a.range.start.place) (c : Insertion × Nat)
    (mem : c ∈ (markersOf occurrences).zipIdx) (after : rank (a.opening, 2 * n) < rank c) :
    ¬ rank c < rank (b.closing, 2 * m + 1) := by
  intro before
  have here : c.1.position.place = a.range.start.place := by
    apply le_antisymm
    · rcases rank_lt_iff.mp before with less | ⟨same, _⟩
      · exact le_of_lt (touch ▸ less)
      · exact le_of_eq (same.trans touch)
    · rcases rank_lt_iff.mp after with less | ⟨same, _⟩
      · exact le_of_lt less
      · exact le_of_eq same
  obtain ⟨k, x, present, rfl | rfl⟩ := mem_zipIdx_markersOf mem
  · by_cases same : k = n
    · obtain rfl := same
      obtain rfl : a = x := Option.some.inj (first.symm.trans present)
      exact lt_irrefl _ after
    · rcases separate.apart first present (Ne.symm same) with far | far
      · exact absurd (separate.forward first) (not_lt_of_ge (here ▸ far))
      · exact absurd (separate.forward present) (not_lt_of_ge (here ▸ far))
  · by_cases same : k = m
    · obtain rfl := same
      obtain rfl : b = x := Option.some.inj (second.symm.trans present)
      exact lt_irrefl _ before
    · have stops : x.range.stop.place = b.range.stop.place := here.trans touch.symm
      rcases separate.apart second present (Ne.symm same) with far | far
      · exact absurd (separate.forward present) (not_lt_of_ge (stops ▸ far))
      · exact absurd (separate.forward second) (not_lt_of_ge (stops ▸ far))

end Separate

end Occurrence

/-- The markers of separate ranges are woven into escaped source so that each range stands between its
marker and the closing marker that matches it by nesting, exactly if no range is listed before one that
ends where it starts. -/
theorem markers_enclose_iff {source : List Char} {occurrences : List Occurrence}
    (separate : Occurrence.Separate source occurrences) :
    ∃ fragments, Markup.Woven (Markup.escape source) (markersOf occurrences) fragments ∧
      fragments.flatMap Markup.Fragment.text =
        Markup.weave (Markup.escape source) (markersOf occurrences) ∧
      ((∀ occurrence ∈ occurrences, ∀ text, occurrence.range.Selects source text →
          Markup.enclosed? occurrence.rangeId fragments = some (Markup.escape text)) ↔
        occurrences.Pairwise fun a b => b.range.stop ≠ a.range.start) := by
  have plain : Markup.pieces (Markup.escape source) = source.map Markup.escapedUnit := by
    simpa using (Markup.cut_escape source .nil).pieces_eq
  refine ⟨_, Markup.woven_iff.mpr rfl, (Markup.weave_eq_interleave _ _).symm, ?_⟩
  rw [plain]
  constructor
  · intro encloses
    rw [List.pairwise_iff_getElem]
    intro n m here there less touch
    have first : occurrences[n]? = some occurrences[n] := List.getElem?_eq_getElem here
    have second : occurrences[m]? = some occurrences[m] := List.getElem?_eq_getElem there
    obtain ⟨text, some, selects⟩ := separate.selects _ (List.getElem_mem here)
    have own := encloses _ (List.getElem_mem here) text selects
    obtain ⟨before, after, split, start, _⟩ := selects
    have empty := separate.enclosed?_eq first second
      (Occurrence.rank_lt_iff.mpr (Or.inr ⟨congrArg Position.place touch.symm, by omega⟩))
      (separate.foreign_closing_next first second (congrArg Position.place touch))
      before [] (text ++ after) (by simpa using split) start (by rw [List.append_nil, touch, start])
    exact some (Markup.eq_nil_of_escape_eq_nil (Option.some.inj (own.symm.trans empty)))
  · intro inOrder occurrence mem text selects
    obtain ⟨n, listed⟩ := List.getElem?_of_mem mem
    obtain ⟨before, after, split, start, stop⟩ := selects
    exact separate.enclosed?_eq listed listed
      (Occurrence.rank_lt_iff.mpr (Or.inl (separate.forward listed)))
      (separate.own_closing_next inOrder listed) before text after (by rw [split, List.append_assoc])
      start stop

def firstTouching : Occurrence :=
  ⟨⟨"3"⟩, ⟨⟨0, 0⟩, ⟨0, 1⟩⟩, some (⟨"5"⟩, Markup.preformatted ['x']), none, none⟩

def secondTouching : Occurrence :=
  ⟨⟨"4"⟩, ⟨⟨0, 1⟩, ⟨0, 2⟩⟩, some (⟨"5"⟩, Markup.preformatted ['x']), none, none⟩

theorem firstTouching_selects : firstTouching.range.Selects ['a', 'b'] ['a'] :=
  ⟨[], ['b'], rfl, rfl, rfl⟩

theorem secondTouching_selects : secondTouching.range.Selects ['a', 'b'] ['b'] :=
  ⟨['a'], [], rfl, rfl, rfl⟩

theorem separate_touching {occurrences : List Occurrence}
    (perm : occurrences.Perm [firstTouching, secondTouching]) :
    Occurrence.Separate ['a', 'b'] occurrences where
  once := (perm.map _).nodup_iff.mpr (by decide)
  selects occurrence mem := by
    rcases List.mem_pair.mp (perm.mem_iff.mp mem) with rfl | rfl
    · exact ⟨['a'], by decide, firstTouching_selects⟩
    · exact ⟨['b'], by decide, secondTouching_selects⟩
  disjoint := perm.symm.pairwise (by decide) Or.symm

theorem markers_enclose_iff_touching :
    Occurrence.Separate ['a', 'b'] [firstTouching, secondTouching] ∧
      ∃ fragments,
        Markup.Woven (Markup.escape ['a', 'b']) (markersOf [firstTouching, secondTouching]) fragments ∧
        Markup.enclosed? ⟨"3"⟩ fragments = some ['a'] ∧
        Markup.enclosed? ⟨"4"⟩ fragments = some ['b'] := by
  obtain ⟨fragments, woven, _, encloses⟩ := markers_enclose_iff (separate_touching (.refl _))
  have each := encloses.mpr (by decide)
  refine ⟨separate_touching (.refl _), fragments, woven, ?_, ?_⟩
  · exact each firstTouching (by simp) ['a'] firstTouching_selects
  · exact each secondTouching (by simp) ['b'] secondTouching_selects

/-- A document that lists the second of two touching ranges first. -/
def touchingDump : List Element :=
  [⟨⟨"1"⟩, .vertex (.metaData ⟨"file:///repo", none, none⟩)⟩,
    ⟨⟨"2"⟩, .vertex (.document ⟨"file:///repo/a.go", "go"⟩)⟩,
    ⟨⟨"3"⟩, .vertex (.range ⟨⟨0, 0⟩, ⟨0, 1⟩⟩)⟩,
    ⟨⟨"4"⟩, .vertex (.range ⟨⟨0, 1⟩, ⟨0, 2⟩⟩)⟩,
    ⟨⟨"5"⟩, .vertex (.hoverResult (.string "x"))⟩,
    ⟨⟨"6"⟩, .edge ⟨.contains, ⟨"2"⟩, ⟨"4"⟩, [⟨"3"⟩], none, none⟩⟩,
    ⟨⟨"7"⟩, .edge ⟨.hover, ⟨"3"⟩, ⟨"5"⟩, [], none, none⟩⟩,
    ⟨⟨"8"⟩, .edge ⟨.hover, ⟨"4"⟩, ⟨"5"⟩, [], none, none⟩⟩]

def touchingOccurrences : Except SiteFault (List Occurrence) := do
  let graph ← (Graph.ofElements touchingDump).mapError SiteFault.dump
  ((Query.occurrences ⟨graph, .ofRoot "file:///repo" .empty, ∅⟩ Presentation.plain.markdown ⟨"2"⟩).run
    .empty).1

/-- The marker of the second range encloses nothing, and that of the first encloses both. -/
theorem touching_ranges_swapped :
    ∃ occurrences, touchingOccurrences = .ok occurrences ∧
      Occurrence.Separate ['a', 'b'] occurrences ∧
      ∃ fragments, Markup.Woven (Markup.escape ['a', 'b']) (markersOf occurrences) fragments ∧
        Markup.weave (Markup.escape ['a', 'b']) (markersOf occurrences) =
          "<span id=\"lsif3\">a<span id=\"lsif4\"></span>b</span>".toList ∧
        secondTouching ∈ occurrences ∧ secondTouching.range.Selects ['a', 'b'] ['b'] ∧
        Markup.enclosed? secondTouching.rangeId fragments = some [] := by
  have extracted : touchingOccurrences.toOption = some [secondTouching, firstTouching] := by
    decide +kernel
  have ordered : Markup.InOrder (markersOf [secondTouching, firstTouching])
      [firstTouching.opening, secondTouching.opening, firstTouching.closing,
        secondTouching.closing] :=
    ⟨[(firstTouching.opening, 2), (secondTouching.opening, 0), (firstTouching.closing, 3),
      (secondTouching.closing, 1)], by decide, by decide, rfl⟩
  have queue := (Markup.inOrder_mergeSort _).unique ordered
  have plain : Markup.pieces (Markup.escape ['a', 'b']) = ['a', 'b'].map Markup.escapedUnit := by
    simpa using (Markup.cut_escape ['a', 'b'] .nil).pieces_eq
  refine ⟨[secondTouching, firstTouching], ?_, separate_touching (List.Perm.swap _ _ _), _,
    Markup.woven_iff.mpr rfl, ?_, List.mem_cons_self, secondTouching_selects, ?_⟩
  · exact ok_of_toOption_eq_some extracted
  · rw [Markup.weave_eq_interleave, queue, plain]
    decide
  · rw [queue, plain]
    decide

end CodeAtlas
