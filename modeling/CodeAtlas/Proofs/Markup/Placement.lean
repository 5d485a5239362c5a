import CodeAtlas.Markup.Weave
import CodeAtlas.Proofs.Markup.Cutting
import Mathlib.Data.List.DropRight
import Mathlib.Data.Prod.Lex

/-!
# Where insertions land

`Woven` says what weaving insertions into markup has to give, by units and places and without a walk:
every unit and every insertion once, and each insertion directly before the first unit that takes it.
The fragments that meet it exist and are determined (`woven_iff`), and `weave` writes them.
-/

namespace CodeAtlas

/-- A position as a pair that is ordered by line and then by column. -/
def Position.place (position : Position) : ℕ ×ₗ ℕ :=
  toLex (position.line.toNat, position.character.toNat)

namespace Markup

/-! ### Places of units -/

def Piece.isTag : Piece → Bool
  | .tag _ => true
  | _ => false

theorem isTag_escapedUnit (c : Char) : (escapedUnit c).isTag = false := by
  unfold escapedUnit
  split <;> rfl

/-- How many UTF-16 units of the text a unit of its markup shows. -/
def Piece.width : Piece → Nat
  | .tag _ | .newline => 0
  | .entity _ => 1
  | .glyph c => if c.toNat < 0x10000 then 1 else 2

theorem Piece.columns_eq_width (unit : Piece) : unit.columns = unit.width := by
  cases unit <;> rfl

def lineAfter (passed : List Piece) : Nat :=
  passed.count .newline

/-- The column that is reached after the given units: what those after the last newline take. -/
def columnAfter (passed : List Piece) : Nat :=
  (passed.rtakeWhile fun unit => unit != .newline).foldl (fun n unit => n + unit.width) 0

/-- The place of a unit that comes after `passed`. A newline stands at the last column there is. -/
def placeAfter (passed : List Piece) : Piece → ℕ ×ₗ ℕ
  | .newline => toLex (lineAfter passed, UInt32.size - 1)
  | _ => toLex (lineAfter passed, columnAfter passed)

/-- The unit that comes after `passed` stands at or after the insertion's place and is no tag. -/
def Takes (passed : List Piece) (unit : Piece) (insertion : Insertion) : Prop :=
  unit.isTag = false ∧ insertion.position.place ≤ placeAfter passed unit

instance (passed : List Piece) (unit : Piece) (insertion : Insertion) :
    Decidable (Takes passed unit insertion) :=
  inferInstanceAs (Decidable (_ ∧ _))

def PassedBy (passed : List Piece) (insertion : Insertion) : Prop :=
  ∀ before unit after, passed = before ++ unit :: after → ¬ Takes before unit insertion

/-! ### What weaving has to give -/

inductive Fragment where
  | unit (piece : Piece)
  | inserted (insertion : Insertion)
  deriving DecidableEq

namespace Fragment

def text : Fragment → List Char
  | .unit piece => piece.text
  | .inserted insertion => insertion.text

def unit? : Fragment → Option Piece
  | .unit piece => some piece
  | .inserted _ => none

def insertion? : Fragment → Option Insertion
  | .unit _ => none
  | .inserted insertion => some insertion

end Fragment

def unitsOf (fragments : List Fragment) : List Piece :=
  fragments.filterMap Fragment.unit?

def insertionsOf (fragments : List Fragment) : List Insertion :=
  fragments.filterMap Fragment.insertion?

/-- The rank of the insertion that was given as the one with this number. -/
def rank (numbered : Insertion × Nat) : (ℕ ×ₗ ℕ) ×ₗ ℕ :=
  toLex (numbered.1.position.place, numbered.2)

/-- `queue` has the given insertions by their places, those of one place in the order given. -/
def InOrder (insertions queue : List Insertion) : Prop :=
  ∃ numbered : List (Insertion × Nat), numbered.Perm insertions.zipIdx ∧
    numbered.Pairwise (fun a b => rank a < rank b) ∧ queue = numbered.map Prod.fst

/-- After the units `passed`, each insertion among the fragments stands directly before the first unit
that takes it, and at the end if there is none. -/
def Placed (passed : List Piece) (fragments : List Fragment) : Prop :=
  ∀ before insertion after, fragments = before ++ .inserted insertion :: after →
    PassedBy (passed ++ unitsOf before) insertion ∧
      ∀ unit rest, unitsOf after = unit :: rest → Takes (passed ++ unitsOf before) unit insertion

/-- The fragments are the units of the markup and the insertions, each once and where it belongs. -/
structure Woven (markup : List Char) (insertions : List Insertion) (fragments : List Fragment) :
    Prop where
  cut : Cut markup (unitsOf fragments)
  ordered : InOrder insertions (insertionsOf fragments)
  placed : Placed [] fragments

/-! ### Fragments one by one -/

@[simp]
theorem unitsOf_nil : unitsOf [] = [] := rfl

@[simp]
theorem unitsOf_cons_unit (unit : Piece) (fragments : List Fragment) :
    unitsOf (.unit unit :: fragments) = unit :: unitsOf fragments := rfl

@[simp]
theorem unitsOf_cons_inserted (insertion : Insertion) (fragments : List Fragment) :
    unitsOf (.inserted insertion :: fragments) = unitsOf fragments := rfl

@[simp]
theorem insertionsOf_nil : insertionsOf [] = [] := rfl

@[simp]
theorem insertionsOf_cons_unit (unit : Piece) (fragments : List Fragment) :
    insertionsOf (.unit unit :: fragments) = insertionsOf fragments := rfl

@[simp]
theorem insertionsOf_cons_inserted (insertion : Insertion) (fragments : List Fragment) :
    insertionsOf (.inserted insertion :: fragments) = insertion :: insertionsOf fragments := rfl

@[simp]
theorem unitsOf_inserted_append (queue : List Insertion) (fragments : List Fragment) :
    unitsOf (queue.map .inserted ++ fragments) = unitsOf fragments := by
  induction queue with
  | nil => rfl
  | cons insertion queue ih => simpa using ih

@[simp]
theorem insertionsOf_inserted_append (queue : List Insertion) (fragments : List Fragment) :
    insertionsOf (queue.map .inserted ++ fragments) = queue ++ insertionsOf fragments := by
  induction queue with
  | nil => rfl
  | cons insertion queue ih => simpa using ih

theorem placed_nil (passed : List Piece) : Placed passed [] := by
  intro before insertion after same
  simp at same

theorem placed_cons_unit {passed : List Piece} {unit : Piece} {fragments : List Fragment} :
    Placed passed (.unit unit :: fragments) ↔ Placed (passed ++ [unit]) fragments := by
  constructor
  · intro placed before insertion after same
    have here := placed (.unit unit :: before) insertion after (by rw [same]; rfl)
    simpa using here
  · intro placed before insertion after same
    cases before with
    | nil => simp at same
    | cons first before =>
      obtain ⟨rfl, rest⟩ := List.cons.inj same
      have here := placed before insertion after rest
      simpa using here

theorem placed_cons_inserted {passed : List Piece} {insertion : Insertion}
    {fragments : List Fragment} :
    Placed passed (.inserted insertion :: fragments) ↔
      (PassedBy passed insertion ∧
        ∀ unit rest, unitsOf fragments = unit :: rest → Takes passed unit insertion) ∧
      Placed passed fragments := by
  constructor
  · intro placed
    refine ⟨by simpa using placed [] insertion fragments rfl, ?_⟩
    intro before other after same
    have here := placed (.inserted insertion :: before) other after (by rw [same]; rfl)
    simpa using here
  · rintro ⟨first, placed⟩ before other after same
    cases before with
    | nil =>
      obtain ⟨head, rfl⟩ := List.cons.inj same
      cases head
      simpa using first
    | cons fragment before =>
      obtain ⟨rfl, rest⟩ := List.cons.inj same
      have here := placed before other after rest
      simpa using here

theorem placed_inserted_append {passed : List Piece} {queue : List Insertion}
    {fragments : List Fragment} :
    Placed passed (queue.map .inserted ++ fragments) ↔
      (∀ insertion ∈ queue, PassedBy passed insertion ∧
        ∀ unit rest, unitsOf fragments = unit :: rest → Takes passed unit insertion) ∧
      Placed passed fragments := by
  induction queue with
  | nil => simp
  | cons insertion queue ih =>
    rw [List.map_cons, List.cons_append, placed_cons_inserted, ih, unitsOf_inserted_append,
      List.forall_mem_cons]
    exact and_assoc.symm

/-! ### The order of insertions -/

theorem Insertion.before_iff (a b : Insertion) :
    a.before b = true ↔ a.position.place ≤ b.position.place := by
  simp [Insertion.before, Insertion.dueAt, Position.place, Prod.Lex.toLex_le_toLex]

theorem rank_lt_of_zipIdxLE {a b : Insertion × Nat}
    (le : List.zipIdxLE Insertion.before a b = true) (different : a.2 ≠ b.2) : rank a < rank b := by
  rw [List.zipIdxLE] at le
  split at le
  · rename_i notAfter
    rw [Insertion.before_iff] at notAfter
    split at le
    · rename_i notBefore
      rw [Insertion.before_iff] at notBefore
      have same := le_antisymm notAfter notBefore
      have earlier : a.2 < b.2 := by
        have := of_decide_eq_true le
        omega
      exact Prod.Lex.toLex_lt_toLex.mpr (Or.inr ⟨same, earlier⟩)
    · rename_i notBefore
      rw [Insertion.before_iff] at notBefore
      exact Prod.Lex.toLex_lt_toLex.mpr (Or.inl (lt_of_le_not_ge notAfter notBefore))
  · cases le

theorem inOrder_mergeSort (insertions : List Insertion) :
    InOrder insertions (insertions.mergeSort Insertion.before) := by
  have trans : ∀ a b c : Insertion, a.before b = true → b.before c = true → a.before c = true := by
    intro a b c ab bc
    rw [Insertion.before_iff] at ab bc ⊢
    exact le_trans ab bc
  have total : ∀ a b : Insertion, (a.before b || b.before a) = true := by
    intro a b
    rw [Bool.or_eq_true, Insertion.before_iff, Insertion.before_iff]
    exact le_total _ _
  have perm := List.mergeSort_perm insertions.zipIdx (List.zipIdxLE Insertion.before)
  have sorted := List.pairwise_mergeSort (List.zipIdxLE_trans trans) (List.zipIdxLE_total total)
    insertions.zipIdx
  have numbers : ((insertions.zipIdx.mergeSort (List.zipIdxLE Insertion.before)).map
      Prod.snd).Nodup := by
    rw [(perm.map Prod.snd).nodup_iff, List.zipIdx_map_snd]
    exact List.nodup_range'
  refine ⟨_, perm, ?_, List.mergeSort_zipIdx.symm⟩
  exact (sorted.and (List.pairwise_map.mp numbers)).imp fun both => rank_lt_of_zipIdxLE both.1 both.2

theorem InOrder.unique {insertions queue other : List Insertion} (first : InOrder insertions queue)
    (second : InOrder insertions other) : queue = other := by
  obtain ⟨numbered, perm, sorted, rfl⟩ := first
  obtain ⟨others, otherPerm, otherSorted, rfl⟩ := second
  have same : numbered = others :=
    List.Perm.eq_of_pairwise (fun _ _ _ _ lt gt => absurd lt gt.asymm) sorted otherSorted
      (perm.trans otherPerm.symm)
  rw [same]

theorem InOrder.sorted {insertions queue : List Insertion} (order : InOrder insertions queue) :
    queue.Pairwise fun a b => a.position.place ≤ b.position.place := by
  obtain ⟨numbered, _, sorted, rfl⟩ := order
  rw [List.pairwise_map]
  refine sorted.imp fun {a b} lt => ?_
  rcases Prod.Lex.toLex_lt_toLex.mp lt with earlier | ⟨same, _⟩
  · exact le_of_lt earlier
  · exact le_of_eq same

/-! ### Placing insertions unit by unit -/

/-- The fragments of `queue` and the units that come after `passed`: before each unit stand the
insertions at the head of the queue that it takes. -/
def interleave (passed : List Piece) (queue : List Insertion) : List Piece → List Fragment
  | [] => queue.map .inserted
  | unit :: units =>
    (queue.takeWhile fun insertion => decide (Takes passed unit insertion)).map .inserted ++
      .unit unit ::
        interleave (passed ++ [unit])
          (queue.dropWhile fun insertion => decide (Takes passed unit insertion)) units

theorem interleave_cons (passed : List Piece) (queue : List Insertion) (unit : Piece)
    (units : List Piece) :
    interleave passed queue (unit :: units) =
      (queue.takeWhile fun insertion => decide (Takes passed unit insertion)).map .inserted ++
        .unit unit ::
          interleave (passed ++ [unit])
            (queue.dropWhile fun insertion => decide (Takes passed unit insertion)) units := rfl

theorem unitsOf_interleave (passed : List Piece) (queue : List Insertion) (units : List Piece) :
    unitsOf (interleave passed queue units) = units := by
  induction units generalizing passed queue with
  | nil => simpa [interleave] using unitsOf_inserted_append queue []
  | cons unit units ih => simp [interleave, ih]

theorem insertionsOf_interleave (passed : List Piece) (queue : List Insertion)
    (units : List Piece) : insertionsOf (interleave passed queue units) = queue := by
  induction units generalizing passed queue with
  | nil => simpa [interleave] using insertionsOf_inserted_append queue []
  | cons unit units ih => simp [interleave, ih]

theorem Takes.of_place_le {passed : List Piece} {unit : Piece} {a b : Insertion}
    (takes : Takes passed unit b) (le : a.position.place ≤ b.position.place) :
    Takes passed unit a :=
  ⟨takes.1, le_trans le takes.2⟩

/-- What is left in a sorted queue after a unit is not taken by the unit. -/
theorem not_takes_of_mem_dropWhile {passed : List Piece} {unit : Piece} {queue : List Insertion}
    (sorted : queue.Pairwise fun a b => a.position.place ≤ b.position.place) {insertion : Insertion}
    (mem : insertion ∈ queue.dropWhile fun i => decide (Takes passed unit i)) :
    ¬ Takes passed unit insertion := by
  induction queue with
  | nil => simp at mem
  | cons first queue ih =>
    obtain ⟨least, sorted⟩ := List.pairwise_cons.mp sorted
    by_cases taken : Takes passed unit first
    · rw [List.dropWhile_cons_of_pos (by simpa using taken)] at mem
      exact ih sorted mem
    · rw [List.dropWhile_cons_of_neg (by simpa using taken)] at mem
      rcases List.mem_cons.mp mem with rfl | later
      · exact taken
      · exact fun takes => taken (takes.of_place_le (least _ later))

theorem passedBy_append_singleton {passed : List Piece} {unit : Piece} {insertion : Insertion}
    (earlier : PassedBy passed insertion) (last : ¬ Takes passed unit insertion) :
    PassedBy (passed ++ [unit]) insertion := by
  intro before other after same
  rcases List.eq_nil_or_concat after with rfl | ⟨front, final, rfl⟩
  · obtain ⟨rfl, head⟩ := List.append_inj' same rfl
    cases head
    exact last
  · have split : passed ++ [unit] = (before ++ other :: front) ++ [final] := by simp [same]
    exact earlier before other front (List.append_inj' split rfl).1

theorem placed_interleave {passed : List Piece} {queue : List Insertion} {units : List Piece}
    (sorted : queue.Pairwise fun a b => a.position.place ≤ b.position.place)
    (behind : ∀ insertion ∈ queue, PassedBy passed insertion) :
    Placed passed (interleave passed queue units) := by
  induction units generalizing passed queue with
  | nil =>
    have placed : Placed passed (queue.map .inserted ++ []) := by
      rw [placed_inserted_append]
      exact ⟨fun i mem => ⟨behind i mem, by simp⟩, placed_nil passed⟩
    simpa [interleave] using placed
  | cons unit units ih =>
    rw [interleave, placed_inserted_append, placed_cons_unit]
    constructor
    · intro insertion mem
      refine ⟨behind insertion (List.takeWhile_subset _ mem), ?_⟩
      rintro _ _ ⟨⟩
      simpa using List.mem_takeWhile_imp mem
    · apply ih
      · exact sorted.sublist (List.dropWhile_sublist _)
      · intro insertion mem
        exact passedBy_append_singleton (behind insertion (List.dropWhile_subset _ mem))
          (not_takes_of_mem_dropWhile sorted mem)

theorem interleave_cons_of_takes {passed : List Piece} {insertion : Insertion}
    {queue : List Insertion} {units : List Piece}
    (next : ∀ unit rest, units = unit :: rest → Takes passed unit insertion) :
    interleave passed (insertion :: queue) units =
      .inserted insertion :: interleave passed queue units := by
  cases units with
  | nil => rfl
  | cons unit units =>
    have takes := next unit units rfl
    simp [interleave, takes]

theorem interleave_cons_of_not_takes {passed : List Piece} {queue : List Insertion} {unit : Piece}
    {units : List Piece} (none : ∀ insertion ∈ queue, ¬ Takes passed unit insertion) :
    interleave passed queue (unit :: units) =
      .unit unit :: interleave (passed ++ [unit]) queue units := by
  cases queue with
  | nil => rfl
  | cons first queue =>
    have left := none first List.mem_cons_self
    simp [interleave, left]

theorem Placed.passedBy {passed : List Piece} {fragments : List Fragment}
    (placed : Placed passed fragments) {insertion : Insertion}
    (mem : insertion ∈ insertionsOf fragments) : PassedBy passed insertion := by
  obtain ⟨fragment, present, same⟩ := List.mem_filterMap.mp mem
  cases fragment with
  | unit unit => cases same
  | inserted _ =>
    cases same
    obtain ⟨before, after, rfl⟩ := List.append_of_mem present
    intro front unit back split
    have behind := (placed before insertion after rfl).1
    exact behind front unit (back ++ unitsOf before) (by simp [split])

theorem Placed.eq_interleave {passed : List Piece} {fragments : List Fragment}
    (placed : Placed passed fragments) :
    fragments = interleave passed (insertionsOf fragments) (unitsOf fragments) := by
  induction fragments generalizing passed with
  | nil => rfl
  | cons fragment fragments ih =>
    cases fragment with
    | unit unit =>
      have later := placed_cons_unit.mp placed
      have left : ∀ insertion ∈ insertionsOf fragments, ¬ Takes passed unit insertion :=
        fun insertion mem => later.passedBy mem passed unit [] rfl
      rw [insertionsOf_cons_unit, unitsOf_cons_unit, interleave_cons_of_not_takes left, ← ih later]
    | inserted insertion =>
      obtain ⟨⟨_, next⟩, later⟩ := placed_cons_inserted.mp placed
      rw [insertionsOf_cons_inserted, unitsOf_cons_inserted, interleave_cons_of_takes next,
        ← ih later]

/-! ### The place after a unit -/

theorem lineAfter_append (passed : List Piece) (unit : Piece) :
    lineAfter (passed ++ [unit]) = lineAfter passed + if unit = .newline then 1 else 0 := by
  simp [lineAfter, List.count_singleton]

theorem columnAfter_append (passed : List Piece) (unit : Piece) :
    columnAfter (passed ++ [unit]) =
      if unit = .newline then 0 else columnAfter passed + unit.columns := by
  by_cases newline : unit = .newline
  · subst newline
    simp [columnAfter]
  · simp [columnAfter, newline, Piece.columns_eq_width]

/-! ### Tags left out -/

def keepUnits (keep : Piece → Bool) (fragments : List Fragment) : List Fragment :=
  fragments.filter fun fragment => fragment.unit?.all keep

theorem keepUnits_inserted_append (keep : Piece → Bool) (queue : List Insertion)
    (fragments : List Fragment) :
    keepUnits keep (queue.map .inserted ++ fragments) =
      queue.map .inserted ++ keepUnits keep fragments := by
  have kept : (queue.map Fragment.inserted).filter (fun f => f.unit?.all keep) =
      queue.map .inserted := by
    rw [List.filter_eq_self]
    intro fragment mem
    obtain ⟨insertion, _, rfl⟩ := List.mem_map.mp mem
    rfl
  rw [keepUnits, List.filter_append, kept, keepUnits]

theorem keepUnits_cons_unit (keep : Piece → Bool) (unit : Piece) (fragments : List Fragment) :
    keepUnits keep (.unit unit :: fragments) =
      if keep unit then .unit unit :: keepUnits keep fragments else keepUnits keep fragments := by
  simp [keepUnits, List.filter_cons, Fragment.unit?]

section LeftOut

variable {keep : Piece → Bool} (onlyTags : ∀ unit, keep unit = false → unit.isTag = true)
include onlyTags

theorem lineAfter_filter (passed : List Piece) :
    lineAfter (passed.filter keep) = lineAfter passed := by
  apply List.count_filter
  by_contra left
  exact absurd (onlyTags _ (by simpa using left)) (by decide)

theorem columnAfter_filter (passed : List Piece) :
    columnAfter (passed.filter keep) = columnAfter passed := by
  induction passed using List.reverseRecOn with
  | nil => rfl
  | append_singleton passed last ih =>
    rw [List.filter_append, columnAfter_append]
    cases kept : keep last with
    | true => simp [kept, columnAfter_append, ih]
    | false =>
      cases last with
      | tag text => simp [kept, Piece.columns, ih]
      | _ => exact absurd (onlyTags _ kept) (by simp [Piece.isTag])

theorem takes_filter (passed : List Piece) (unit : Piece) (insertion : Insertion) :
    Takes (passed.filter keep) unit insertion ↔ Takes passed unit insertion := by
  have same : placeAfter (passed.filter keep) unit = placeAfter passed unit := by
    cases unit <;> simp [placeAfter, lineAfter_filter onlyTags, columnAfter_filter onlyTags]
  rw [Takes, Takes, same]

/-- Leaving out tags moves no insertion. -/
theorem keepUnits_interleave (passed : List Piece) (queue : List Insertion) (units : List Piece) :
    keepUnits keep (interleave passed queue units) =
      interleave (passed.filter keep) queue (units.filter keep) := by
  induction units generalizing passed queue with
  | nil =>
    have only := keepUnits_inserted_append keep queue []
    simpa [interleave, keepUnits] using only
  | cons unit units ih =>
    cases kept : keep unit with
    | true =>
      rw [List.filter_cons_of_pos kept, interleave_cons, interleave_cons, keepUnits_inserted_append,
        keepUnits_cons_unit, ih]
      simp [kept, takes_filter onlyTags]
    | false =>
      have tag : ∀ insertion ∈ queue, ¬ Takes passed unit insertion := by
        intro insertion _ takes
        exact absurd takes.1 (by simp [onlyTags unit kept])
      rw [interleave_cons_of_not_takes tag, keepUnits_cons_unit, ih, List.filter_append,
        List.filter_cons_of_neg (by simp [kept])]
      simp [kept]

end LeftOut

/-! ### The walk -/

theorem dueAt_eq_takes {passed : List Piece} {unit : Piece} (notTag : unit.isTag = false)
    (notNewline : unit ≠ .newline) :
    Insertion.dueAt (lineAfter passed) (columnAfter passed) =
      fun insertion => decide (Takes passed unit insertion) := by
  funext insertion
  rw [Bool.eq_iff_iff, decide_eq_true_iff, Takes]
  cases unit with
  | newline => exact absurd rfl notNewline
  | tag => cases notTag
  | _ => simp [Insertion.dueAt, Position.place, placeAfter, notTag, Prod.Lex.toLex_le_toLex]

theorem dueBy_eq_takes (passed : List Piece) :
    Insertion.dueBy (lineAfter passed) =
      fun insertion => decide (Takes passed .newline insertion) := by
  funext insertion
  -- No column of a position lies after the place of a newline.
  have bound := insertion.position.character.toNat_lt_size
  rw [Bool.eq_iff_iff, decide_eq_true_iff, Takes]
  simp only [Insertion.dueBy, Position.place, placeAfter, Piece.isTag, Prod.Lex.toLex_le_toLex,
    decide_eq_true_eq, true_and]
  omega

@[simp]
theorem not_takes_tag (passed : List Piece) (text : List Char) (insertion : Insertion) :
    ¬ Takes passed (.tag text) insertion := by
  simp [Takes, Piece.isTag]

namespace Weaving

theorem flush_written (w : Weaving) (due : Insertion → Bool) :
    (w.flush due).written = ((w.pending.takeWhile due).flatMap Insertion.text).reverse ++ w.written := by
  rw [flush]
  generalize w.written = written
  induction w.pending.takeWhile due generalizing written with
  | nil => rfl
  | cons insertion queue ih =>
    rw [List.foldl_cons, ih, List.reverseAux_eq, List.flatMap_cons, List.reverse_append,
      List.append_assoc]

theorem write_written (w : Weaving) (text : List Char) :
    (w.write text).written = text.reverse ++ w.written := by
  rw [write, List.reverseAux_eq]

structure After (w : Weaving) (passed : List Piece) : Prop where
  line : w.line = lineAfter passed
  column : w.column = columnAfter passed

/-- One step writes the insertions that the unit takes, and then the unit. -/
theorem step_spec {w : Weaving} {passed : List Piece} (reached : w.After passed) (unit : Piece) :
    (w.step unit).After (passed ++ [unit]) ∧
      (w.step unit).pending =
        w.pending.dropWhile (fun insertion => decide (Takes passed unit insertion)) ∧
      (w.step unit).written =
        unit.text.reverse ++
          (((w.pending.takeWhile fun insertion => decide (Takes passed unit insertion)).flatMap
            Insertion.text).reverse ++ w.written) := by
  obtain ⟨line, column⟩ := reached
  cases unit with
  | tag text =>
    have kept : w.pending.dropWhile (fun i => decide (Takes passed (.tag text) i)) = w.pending :=
      List.dropWhile_eq_self_iff.mpr (by simp)
    have none : w.pending.takeWhile (fun i => decide (Takes passed (.tag text) i)) = [] :=
      List.takeWhile_eq_nil_iff.mpr (by simp)
    rw [kept, none]
    refine ⟨⟨?_, ?_⟩, rfl, ?_⟩
    · simp [step, write, line, lineAfter_append]
    · simp [step, write, column, columnAfter_append, Piece.columns]
    · simp [step, write_written, Piece.text]
  | newline =>
    rw [← dueBy_eq_takes, ← line]
    refine ⟨⟨?_, ?_⟩, rfl, ?_⟩
    · simp [step, line, lineAfter_append]
    · simp [step, columnAfter_append]
    · rw [← flush_written, ← write_written]
      rfl
  | entity _ | glyph _ =>
    rw [← dueAt_eq_takes rfl (by simp), ← line, ← column]
    refine ⟨⟨?_, ?_⟩, rfl, ?_⟩
    · simp [step, flush, write, line, lineAfter_append]
    · simp [step, column, columnAfter_append]
    · rw [← flush_written, ← write_written]
      rfl

/-- The rest of the walk writes what `interleave` gives for the units that are left. -/
theorem run_spec {w : Weaving} {passed : List Piece} (reached : w.After passed)
    (units : List Piece) :
    ((units.foldl step w).flush fun _ => true).written =
      ((interleave passed w.pending units).flatMap Fragment.text).reverse ++ w.written := by
  induction units generalizing w passed with
  | nil =>
    rw [List.foldl_nil, flush_written, interleave, List.flatMap_map, List.takeWhile_eq_self_iff.mpr]
    · rfl
    · simp
  | cons unit units ih =>
    obtain ⟨after, pending, written⟩ := step_spec reached unit
    rw [List.foldl_cons, ih after, pending, written, interleave, List.flatMap_append,
      List.flatMap_cons, List.flatMap_map]
    simp [Fragment.text]

end Weaving

theorem weave_eq_interleave (markup : List Char) (insertions : List Insertion) :
    weave markup insertions =
      (interleave [] (insertions.mergeSort Insertion.before) (pieces markup)).flatMap
        Fragment.text := by
  have start : Weaving.After ⟨0, 0, insertions.mergeSort Insertion.before, []⟩ [] := ⟨rfl, rfl⟩
  rw [weave, Weaving.run_spec start]
  simp

/-- The fragments that weaving has to give exist and are determined. -/
theorem woven_iff {markup : List Char} {insertions : List Insertion} {fragments : List Fragment} :
    Woven markup insertions fragments ↔
      fragments = interleave [] (insertions.mergeSort Insertion.before) (pieces markup) := by
  have order := inOrder_mergeSort insertions
  constructor
  · rintro ⟨cut, ordered, placed⟩
    rw [placed.eq_interleave, ordered.unique order, cut_iff.mp cut]
  · rintro rfl
    refine ⟨?_, ?_, ?_⟩
    · rw [unitsOf_interleave, cut_iff]
    · rw [insertionsOf_interleave]
      exact order
    · apply placed_interleave order.sorted
      intro insertion _ before unit after same
      simp at same

/-- A text is what `weave` gives exactly if it is the markup's units and the insertions written one
after another, every one of them once, each insertion directly before the first unit other than a
tag that stands at or after its place, or at the end. -/
theorem weave_iff_woven (markup : List Char) (insertions : List Insertion) (text : List Char) :
    weave markup insertions = text ↔
      ∃ fragments, Woven markup insertions fragments ∧ fragments.flatMap Fragment.text = text := by
  rw [weave_eq_interleave]
  constructor
  · intro same
    exact ⟨_, woven_iff.mpr rfl, same⟩
  · rintro ⟨fragments, woven, same⟩
    rw [← woven_iff.mp woven]
    exact same

example : weave "<i>𝒶&lt;b</i>\nc".toList [⟨⟨1, 9⟩, "]".toList⟩, ⟨⟨0, 3⟩, "[".toList⟩] =
    "<i>𝒶&lt;[b</i>\nc]".toList := by cbv

end Markup

end CodeAtlas
