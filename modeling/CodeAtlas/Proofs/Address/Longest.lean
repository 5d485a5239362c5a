import CodeAtlas.Address.PagePath
import Mathlib.Data.List.Nodup

/-!
# The longest start of a URI

The table of URI prefixes is sorted by length, and the first entry that fits is taken. `lookup_longest` says
which one that is without the sort: the entry with the longest start, and of several with one start the first
that was given. So the order of the table does not matter where no start is given twice.
-/

namespace CodeAtlas.UriMap

variable {entries : List (String × String)} {uri : String}

/-! ### Starts of one text -/

theorem toList_eq_append_iff {text start : String} {rest : List Char} :
    text.toList = start.toList ++ rest ↔ text = start ++ String.ofList rest := by
  rw [← String.toList_inj, String.toList_append, String.toList_ofList]

/-- Of two starts of one text the one with fewer bytes is a start of the other. -/
theorem exists_eq_append_of_le {first second rest other : String} (same : first ++ rest = second ++ other)
    (shorter : first.utf8ByteSize ≤ second.utf8ByteSize) : ∃ more, second = first ++ more := by
  have characters := congrArg String.toList same
  rw [String.toList_append, String.toList_append] at characters
  rcases List.append_eq_append_iff.mp characters with ⟨more, longer, _⟩ | ⟨more, longer, _⟩
  · exact ⟨String.ofList more, toList_eq_append_iff.mp longer⟩
  · -- The second is a start of the first and not shorter, so nothing comes after it.
    obtain rfl := toList_eq_append_iff.mp longer
    rw [String.utf8ByteSize_append] at shorter
    obtain empty : String.ofList more = "" := String.utf8ByteSize_eq_zero_iff.mp (by omega)
    exact ⟨"", by simp [empty]⟩

theorem send?_eq_some_iff {entry : String × String} {path : String} :
    send? uri entry = some path ↔ ∃ rest, uri = entry.1 ++ rest ∧ path = entry.2 ++ rest := by
  rw [send?, Option.map_eq_some_iff]
  constructor
  · rintro ⟨rest, cut, rfl⟩
    exact ⟨String.ofList rest, toList_eq_append_iff.mp (Text.dropRun?_eq_some_iff.mp cut), rfl⟩
  · rintro ⟨rest, rfl, rfl⟩
    exact ⟨rest.toList, Text.dropRun?_eq_some_iff.mpr String.toList_append, by rw [String.ofList_toList]⟩

theorem send?_eq_none_iff {entry : String × String} :
    send? uri entry = none ↔ ∀ rest, uri ≠ entry.1 ++ rest := by
  rw [Option.eq_none_iff_forall_ne_some]
  constructor
  · intro nothing rest cut
    exact nothing _ (send?_eq_some_iff.mpr ⟨rest, cut, rfl⟩)
  · intro nothing path sent
    obtain ⟨rest, cut, _⟩ := send?_eq_some_iff.mp sent
    exact nothing rest cut

/-! ### The sorted table -/

theorem mem_ofEntries {entry : String × String} : entry ∈ (ofEntries entries).entries ↔ entry ∈ entries :=
  List.mem_mergeSort

theorem sorted_trans (a b c : String × String) (first : decide (b.1.utf8ByteSize ≤ a.1.utf8ByteSize) = true)
    (second : decide (c.1.utf8ByteSize ≤ b.1.utf8ByteSize) = true) :
    decide (c.1.utf8ByteSize ≤ a.1.utf8ByteSize) = true := by
  rw [decide_eq_true_eq] at first second ⊢
  exact Nat.le_trans second first

theorem sorted_total (a b : String × String) :
    (decide (b.1.utf8ByteSize ≤ a.1.utf8ByteSize) || decide (a.1.utf8ByteSize ≤ b.1.utf8ByteSize)) = true := by
  simpa using Nat.le_total b.1.utf8ByteSize a.1.utf8ByteSize

theorem pairwise_ofEntries (entries : List (String × String)) :
    (ofEntries entries).entries.Pairwise fun a b => b.1.utf8ByteSize ≤ a.1.utf8ByteSize :=
  (List.pairwise_mergeSort sorted_trans sorted_total entries).imp of_decide_eq_true

/-- Sorting leaves the entries with one start in their order. -/
theorem filter_ofEntries (entries : List (String × String)) (start : String) :
    (ofEntries entries).entries.filter (fun entry => entry.1 == start) =
      entries.filter fun entry => entry.1 == start := by
  have level : (entries.filter fun entry => entry.1 == start).Pairwise fun a b =>
      decide (b.1.utf8ByteSize ≤ a.1.utf8ByteSize) = true := by
    rw [List.pairwise_filter]
    refine List.pairwise_of_forall fun a b here there => ?_
    rw [eq_of_beq here, eq_of_beq there]
    exact decide_eq_true (Nat.le_refl _)
  have kept : ((entries.filter fun entry => entry.1 == start).filter fun entry => entry.1 == start).Sublist
      ((ofEntries entries).entries.filter fun entry => entry.1 == start) :=
    (List.sublist_mergeSort sorted_trans sorted_total level List.filter_sublist).filter _
  have perm := (List.mergeSort_perm entries fun a b => b.1.utf8ByteSize ≤ a.1.utf8ByteSize).filter
    fun entry => entry.1 == start
  rw [List.filter_filter] at kept
  simp only [Bool.and_self] at kept
  exact (kept.eq_of_length perm.length_eq.symm).symm

theorem find?_ofEntries (entries : List (String × String)) (start : String) :
    (ofEntries entries).entries.find? (fun entry => entry.1 == start) =
      entries.find? fun entry => entry.1 == start := by
  rw [← List.head?_filter, filter_ofEntries, List.head?_filter]

/-! ### The entry that is taken -/

/-- The entry `(start, target)` has the longest start that `uri` has, and is the first with this start. -/
structure Wins (entries : List (String × String)) (uri start target rest : String) : Prop where
  cut : uri = start ++ rest
  longest : ∀ entry ∈ entries, ∀ other, uri = entry.1 ++ other → ∃ more, start = entry.1 ++ more
  first : entries.find? (fun entry => entry.1 == start) = some (start, target)

theorem wins_of_lookup {path : String} (found : (ofEntries entries).lookup uri = some path) :
    ∃ start target rest, Wins entries uri start target rest ∧ path = target ++ rest := by
  obtain ⟨before, ⟨start, target⟩, after, table, sent, missed⟩ := List.findSome?_eq_some_iff.mp found
  obtain ⟨rest, cut, rfl⟩ := send?_eq_some_iff.mp sent
  have unmatched : ∀ entry ∈ before, ∀ rest, uri ≠ entry.1 ++ rest := fun entry mem =>
    send?_eq_none_iff.mp (missed entry mem)
  refine ⟨start, target, rest, ⟨cut, ?_, ?_⟩, rfl⟩
  · intro entry mem other also
    have order := pairwise_ofEntries entries
    have listed := mem_ofEntries.mpr mem
    rw [table] at order listed
    rcases List.mem_append.mp listed with early | late
    · exact absurd also (unmatched entry early other)
    · have shorter : entry.1.utf8ByteSize ≤ start.utf8ByteSize := by
        rcases List.mem_cons.mp late with rfl | later
        · exact Nat.le_refl _
        · exact (List.pairwise_cons.mp (List.pairwise_append.mp order).2.1).1 entry later
      exact exists_eq_append_of_le (also.symm.trans cut) shorter
  · rw [← find?_ofEntries, table, List.find?_append, List.find?_eq_none.mpr, Option.none_or]
    · simp
    · intro entry early same
      exact unmatched entry early rest (by rw [cut, eq_of_beq same])

theorem Wins.unique {start target rest start' target' rest' : String} (here : Wins entries uri start target rest)
    (there : Wins entries uri start' target' rest') : start = start' ∧ target = target' ∧ rest = rest' := by
  obtain ⟨more, longer⟩ : ∃ more, start = start' ++ more :=
    here.longest _ (List.mem_of_find?_eq_some there.first) _ there.cut
  obtain ⟨more', longer'⟩ : ∃ more, start' = start ++ more :=
    there.longest _ (List.mem_of_find?_eq_some here.first) _ here.cut
  have size : more.utf8ByteSize = 0 := by
    have first := congrArg String.utf8ByteSize longer
    have second := congrArg String.utf8ByteSize longer'
    rw [String.utf8ByteSize_append] at first second
    omega
  obtain rfl : start = start' := by simpa [String.utf8ByteSize_eq_zero_iff.mp size] using longer
  obtain rfl : target = target' := by simpa using here.first.symm.trans there.first
  exact ⟨rfl, rfl, (String.append_right_inj start).mp (here.cut.symm.trans there.cut)⟩

theorem lookup_eq_none_iff :
    (ofEntries entries).lookup uri = none ↔ ∀ entry ∈ entries, ∀ rest, uri ≠ entry.1 ++ rest := by
  rw [lookup, List.findSome?_eq_none_iff]
  simp only [mem_ofEntries, send?_eq_none_iff]

theorem lookup_eq_some_iff {path : String} :
    (ofEntries entries).lookup uri = some path ↔
      ∃ start target rest, Wins entries uri start target rest ∧ path = target ++ rest := by
  refine ⟨wins_of_lookup, ?_⟩
  rintro ⟨start, target, rest, wins, rfl⟩
  cases found : (ofEntries entries).lookup uri with
  | none =>
    have listed := List.mem_of_find?_eq_some wins.first
    exact absurd wins.cut (lookup_eq_none_iff.mp found _ listed rest)
  | some path =>
    obtain ⟨start', target', rest', taken, rfl⟩ := wins_of_lookup found
    obtain ⟨rfl, rfl, rfl⟩ := wins.unique taken
    rfl

/-! ### Tables in another order -/

theorem find?_start_eq_some_iff (distinct : (entries.map Prod.fst).Nodup) {start : String}
    {entry : String × String} :
    entries.find? (fun entry => entry.1 == start) = some entry ↔ entry ∈ entries ∧ entry.1 = start := by
  constructor
  · intro found
    have same := List.find?_some found
    exact ⟨List.mem_of_find?_eq_some found, eq_of_beq same⟩
  · rintro ⟨mem, rfl⟩
    cases found : entries.find? (fun other => other.1 == entry.1) with
    | none => exact absurd (List.find?_eq_none.mp found entry mem) (by simp)
    | some other =>
      have same := List.find?_some found
      rw [List.inj_on_of_nodup_map distinct (List.mem_of_find?_eq_some found) mem (eq_of_beq same)]

theorem Wins.perm {other : List (String × String)} (perm : entries.Perm other)
    (distinct : (entries.map Prod.fst).Nodup) {start target rest : String}
    (wins : Wins entries uri start target rest) : Wins other uri start target rest where
  cut := wins.cut
  longest entry mem := wins.longest entry (perm.mem_iff.mpr mem)
  first := by
    obtain ⟨mem, same⟩ := (find?_start_eq_some_iff distinct).mp wins.first
    exact (find?_start_eq_some_iff ((perm.map _).nodup_iff.mp distinct)).mpr ⟨perm.mem_iff.mp mem, same⟩

theorem lookup_perm {other : List (String × String)} (perm : entries.Perm other)
    (distinct : (entries.map Prod.fst).Nodup) (uri : String) :
    (ofEntries entries).lookup uri = (ofEntries other).lookup uri := by
  have distinctOther := (perm.map Prod.fst).nodup_iff.mp distinct
  refine Option.ext fun path => ?_
  rw [lookup_eq_some_iff, lookup_eq_some_iff]
  constructor
  · rintro ⟨start, target, rest, wins, rfl⟩
    exact ⟨start, target, rest, wins.perm perm distinct, rfl⟩
  · rintro ⟨start, target, rest, wins, rfl⟩
    exact ⟨start, target, rest, wins.perm perm.symm distinctOther, rfl⟩

/-- The path of a page depends on the table only by what it sends the URI to. -/
theorem path?_congr {first second : UriMap} (same : first.lookup uri = second.lookup uri) (root : String) :
    (PageMap.ofRoot root first).path? uri = (PageMap.ofRoot root second).path? uri := by
  have target : (PageMap.ofRoot root first).target? uri = (PageMap.ofRoot root second).target? uri := by
    simp only [PageMap.target?, PageMap.ofRoot, same]
  simp only [PageMap.path?, target]

/-- A table leaves a URI alone just if no entry's start is one of the URI's. Otherwise it puts the target of
the longest such start in its place, and of several entries with this start the first counts. If no start
is given twice, neither the table's answers nor the paths of pages depend on the order of the entries. -/
theorem lookup_longest (entries : List (String × String)) :
    (∀ uri, (ofEntries entries).lookup uri = none ↔ ∀ entry ∈ entries, ∀ rest, uri ≠ entry.1 ++ rest) ∧
    (∀ uri path, (ofEntries entries).lookup uri = some path ↔
      ∃ start target rest, Wins entries uri start target rest ∧ path = target ++ rest) ∧
    ∀ other, entries.Perm other → (entries.map Prod.fst).Nodup → ∀ uri,
      (ofEntries entries).lookup uri = (ofEntries other).lookup uri ∧
      ∀ root, (PageMap.ofRoot root (ofEntries entries)).path? uri =
        (PageMap.ofRoot root (ofEntries other)).path? uri := by
  refine ⟨fun uri => lookup_eq_none_iff, fun uri path => lookup_eq_some_iff, ?_⟩
  intro other perm distinct uri
  have same := lookup_perm perm distinct uri
  exact ⟨same, path?_congr same⟩

/-- Starts of which each is a start of the next, one of them empty and one ending in a character of two bytes. -/
def nestedStarts : List (String × String) :=
  [("", "c/"), ("\u00e9", "a/"), ("\u00e9b", "b/")]

theorem lookup_longest_nestedStarts :
    (nestedStarts.map Prod.fst).Nodup ∧ (ofEntries nestedStarts).lookup "\u00e9bx" = some "b/x" ∧
      (ofEntries nestedStarts.reverse).lookup "\u00e9bx" = some "b/x" := by
  obtain ⟨_, found, reordered⟩ := lookup_longest nestedStarts
  have distinct : (nestedStarts.map Prod.fst).Nodup := by decide
  have wins : Wins nestedStarts "\u00e9bx" "\u00e9b" "b/" "x" := by
    refine ⟨by decide, ?_, by decide⟩
    intro entry mem other _
    simp only [nestedStarts, List.mem_cons, List.not_mem_nil, or_false] at mem
    rcases mem with rfl | rfl | rfl
    · exact ⟨"\u00e9b", by decide⟩
    · exact ⟨"b", by decide⟩
    · exact ⟨"", by decide⟩
  have answer := (found "\u00e9bx" "b/x").mpr ⟨_, _, _, wins, by decide⟩
  exact ⟨distinct, answer, (reordered _ (List.reverse_perm _).symm distinct _).1.symm.trans answer⟩

end CodeAtlas.UriMap
