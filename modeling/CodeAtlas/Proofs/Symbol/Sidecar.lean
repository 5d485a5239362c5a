import CodeAtlas.Proofs.Symbol.Occurrences
import CodeAtlas.Symbol.Sidecar

/-!
# Entries of the hover data

Every entry of the hover data comes from an occurrence of the page, and every occurrence has an entry
under its key. Occurrences of one range are equal, so the entry is that of the occurrence itself.
-/

namespace CodeAtlas

namespace Sidecar

theorem keyOf_injective {first second : ElementId} (same : keyOf first = keyOf second) :
    first = second := by
  have names := congrArg String.toList same
  simp only [keyOf, String.toList_append] at names
  cases first
  cases second
  exact congrArg ElementId.mk (String.toList_injective (List.append_cancel_left names))

/-- One more entry takes the place of one with its key, or goes to the end. -/
theorem mem_putEntry {hovers : List (String × SidecarEntry)} {key : String} {entry : SidecarEntry}
    {other : String × SidecarEntry} (mem : other ∈ putEntry hovers key entry) :
    other ∈ hovers ∨ other = (key, entry) := by
  unfold putEntry at mem
  split at mem
  · obtain ⟨old, listed, same⟩ := List.mem_map.mp mem
    split at same
    · exact .inr same.symm
    · exact .inl (same ▸ listed)
  · simpa using mem

theorem key_mem_putEntry (hovers : List (String × SidecarEntry)) (key : String) (entry : SidecarEntry)
    (other : String) :
    other ∈ (putEntry hovers key entry).map Prod.fst ↔ other ∈ hovers.map Prod.fst ∨ other = key := by
  unfold putEntry
  split
  · rename_i taken
    have kept : (hovers.map fun old => if old.1 == key then (key, entry) else old).map Prod.fst =
        hovers.map Prod.fst := by
      rw [List.map_map]
      refine List.map_congr_left fun old _ => ?_
      by_cases same : old.1 = key
      · simp [same]
      · simp [same]
    rw [kept]
    refine ⟨.inl, ?_⟩
    rintro (listed | rfl)
    · exact listed
    · obtain ⟨old, listed, same⟩ := List.any_eq_true.mp taken
      exact List.mem_map.mpr ⟨old, listed, eq_of_beq same⟩
  · simp

/-- After some occurrences, each entry is an old one or that of an occurrence. -/
theorem mem_hovers_foldl {occurrences : List Occurrence} {sidecar : Sidecar}
    {entry : String × SidecarEntry} (mem : entry ∈ (occurrences.foldl add sidecar).hovers) :
    entry ∈ sidecar.hovers ∨
      ∃ occurrence ∈ occurrences, entry = (keyOf occurrence.rangeId, entryOf occurrence) := by
  induction occurrences generalizing sidecar with
  | nil => exact .inl mem
  | cons occurrence occurrences ih =>
    rcases ih mem with added | ⟨later, listed, same⟩
    · rcases mem_putEntry added with old | same
      · exact .inl old
      · exact .inr ⟨occurrence, List.mem_cons_self, same⟩
    · exact .inr ⟨later, List.mem_cons_of_mem _ listed, same⟩

theorem key_mem_hovers_foldl (occurrences : List Occurrence) (sidecar : Sidecar) (key : String) :
    key ∈ (occurrences.foldl add sidecar).hovers.map Prod.fst ↔
      key ∈ sidecar.hovers.map Prod.fst ∨ ∃ occurrence ∈ occurrences, key = keyOf occurrence.rangeId := by
  induction occurrences generalizing sidecar with
  | nil => simp
  | cons occurrence occurrences ih =>
    rw [List.foldl_cons, ih, add, key_mem_putEntry, List.exists_mem_cons_iff, or_assoc]

theorem exists_of_mem_hovers {occurrences : List Occurrence} {entry : String × SidecarEntry}
    (mem : entry ∈ (ofOccurrences occurrences).hovers) :
    ∃ occurrence ∈ occurrences, entry = (keyOf occurrence.rangeId, entryOf occurrence) := by
  rcases mem_hovers_foldl mem with none | found
  · cases none
  · exact found

/-- Every occurrence has an entry under its key, made from an occurrence of the same range. -/
theorem exists_mem_hovers {occurrences : List Occurrence} {occurrence : Occurrence}
    (mem : occurrence ∈ occurrences) :
    ∃ other ∈ occurrences, other.rangeId = occurrence.rangeId ∧
      (keyOf occurrence.rangeId, entryOf other) ∈ (ofOccurrences occurrences).hovers := by
  obtain ⟨⟨key, entry⟩, listed, same⟩ := List.mem_map.mp
    ((key_mem_hovers_foldl occurrences ⟨[], []⟩ _).mpr (.inr ⟨occurrence, mem, rfl⟩))
  obtain ⟨other, inside, made⟩ := exists_of_mem_hovers listed
  cases made
  exact ⟨other, inside, keyOf_injective same, same ▸ listed⟩

end Sidecar

namespace Query

variable {locator : Locator} {renderer : MarkdownRenderer}

/-- A document has one occurrence of a range, however often it lists it. -/
theorem eq_of_rangeId_eq {document : ElementId} {found : List Occurrence}
    (done : (occurrences locator renderer document).outcome (locator.answer renderer) = .ok found)
    {first second : Occurrence} (mem : first ∈ found) (memSecond : second ∈ found)
    (same : first.rangeId = second.rangeId) : first = second := by
  obtain ⟨id, _, gave⟩ := outcome_of_mem_occurrences done mem
  obtain ⟨other, _, gaveSecond⟩ := outcome_of_mem_occurrences done memSecond
  have firstId := (found_of_occurrence gave).some_inv.1
  have secondId := (found_of_occurrence gaveSecond).some_inv.1
  obtain rfl : id = other := firstId.symm.trans (same.trans secondId)
  cases gave.symm.trans gaveSecond
  rfl

end Query

end CodeAtlas
