import CodeAtlas.Proofs.Symbol.Sidecar

/-!
# Hover data and markers agree

The hover data of a page is written with two policies: the first value under a key stays, and the last
entry of a range counts. Nothing is lost by either, because a result id stands for one text wherever it is
found: the hover text is that of the vertex, and a definition leads where the first item of its result does,
from whichever range it is asked. Only an id that is used both ways would have two texts.
-/

namespace CodeAtlas

/-! ### Values by key -/

theorem lookup_eq_some_of_mem {α β : Type} [BEq α] [LawfulBEq α] {entries : List (α × β)} {key : α}
    {value : β} (mem : (key, value) ∈ entries)
    (alone : ∀ other, (key, other) ∈ entries → other = value) : entries.lookup key = some value := by
  induction entries with
  | nil => cases mem
  | cons entry entries ih =>
    obtain ⟨first, held⟩ := entry
    rw [List.lookup_cons]
    by_cases same : key = first
    · subst same
      rw [beq_self_eq_true]
      exact congrArg some (alone held List.mem_cons_self)
    · rw [beq_eq_false_iff_ne.mpr same]
      have later : (key, value) ∈ entries := by
        rcases List.mem_cons.mp mem with here | later
        · exact absurd (congrArg Prod.fst here) same
        · exact later
      exact ih later fun other listed => alone other (List.mem_cons_of_mem _ listed)

namespace Sidecar

theorem any_key_iff {β : Type} (entries : List (String × β)) (key : String) :
    (entries.any fun entry => entry.1 == key) = true ↔ key ∈ entries.map Prod.fst := by
  rw [List.any_eq_true, List.mem_map]
  simp only [beq_iff_eq]

/-! ### Entries -/

theorem nodup_putEntry {hovers : List (String × SidecarEntry)} (once : (hovers.map Prod.fst).Nodup)
    (key : String) (entry : SidecarEntry) : ((putEntry hovers key entry).map Prod.fst).Nodup := by
  unfold putEntry
  split
  · have kept : (hovers.map fun other => if other.1 == key then (key, entry) else other).map Prod.fst =
        hovers.map Prod.fst := by
      rw [List.map_map]
      refine List.map_congr_left fun other _ => ?_
      by_cases same : other.1 = key
      · simp [same]
      · simp [same]
    rw [kept]
    exact once
  · rename_i new
    rw [List.map_append, List.map_singleton, ← List.concat_eq_append]
    exact List.Nodup.concat (mt (any_key_iff hovers key).mpr new) once

theorem nodup_hovers_foldl {occurrences : List Occurrence} {sidecar : Sidecar}
    (once : (sidecar.hovers.map Prod.fst).Nodup) :
    ((occurrences.foldl add sidecar).hovers.map Prod.fst).Nodup := by
  induction occurrences generalizing sidecar with
  | nil => exact once
  | cons occurrence occurrences ih => exact ih (nodup_putEntry once _ _)

/-! ### Data -/

/-- The data after some more, each of which stays away if its key is taken. -/
def addAll (data more : List (String × String)) : List (String × String) :=
  more.foldl (fun data entry => addData data entry.1 entry.2) data

theorem data_foldl_add (occurrences : List Occurrence) (sidecar : Sidecar) :
    (occurrences.foldl add sidecar).data = addAll sidecar.data (occurrences.flatMap dataOf) := by
  induction occurrences generalizing sidecar with
  | nil => rfl
  | cons occurrence occurrences ih =>
    rw [List.foldl_cons, ih, List.flatMap_cons, addAll, addAll, List.foldl_append]
    rfl

theorem nodup_addData {data : List (String × String)} (once : (data.map Prod.fst).Nodup)
    (key value : String) : ((addData data key value).map Prod.fst).Nodup := by
  unfold addData
  split
  · exact once
  · rename_i new
    rw [List.map_append, List.map_singleton, ← List.concat_eq_append]
    exact List.Nodup.concat (mt (any_key_iff data key).mpr new) once

theorem nodup_addAll {data : List (String × String)} (once : (data.map Prod.fst).Nodup)
    (more : List (String × String)) : ((addAll data more).map Prod.fst).Nodup := by
  induction more generalizing data with
  | nil => exact once
  | cons entry more ih => exact ih (nodup_addData once _ _)

theorem lookup_addData (data : List (String × String)) (key value other : String) :
    (addData data key value).lookup other = (data ++ [(key, value)]).lookup other := by
  unfold addData
  split
  · rename_i taken
    -- A key that is taken finds its value before it comes to the new one.
    by_cases same : other = key
    · subst same
      obtain ⟨entry, listed, here⟩ := List.mem_map.mp ((any_key_iff data other).mp taken)
      have found : (data.lookup other).isSome = true := by
        rw [List.lookup_isSome_iff]
        exact ⟨entry, listed, by simp [here]⟩
      obtain ⟨held, first⟩ := Option.isSome_iff_exists.mp found
      rw [List.lookup_append, first]
      rfl
    · have missing : List.lookup other [(key, value)] = none := by
        rw [List.lookup_cons, beq_eq_false_iff_ne.mpr same]
        rfl
      rw [List.lookup_append, missing, Option.or_none]
  · rfl

/-- The first value under a key is the one that counts. -/
theorem lookup_addAll (data more : List (String × String)) (key : String) :
    (addAll data more).lookup key = (data ++ more).lookup key := by
  induction more generalizing data with
  | nil => rw [List.append_nil]; rfl
  | cons entry more ih =>
    have next : addAll data (entry :: more) = addAll (addData data entry.1 entry.2) more := rfl
    rw [next, ih, List.lookup_append, lookup_addData, ← List.lookup_append, List.append_assoc]
    rfl

theorem mem_addData {data : List (String × String)} {key value : String} {entry : String × String}
    (mem : entry ∈ addData data key value) : entry ∈ data ∨ entry = (key, value) := by
  unfold addData at mem
  split at mem
  · exact .inl mem
  · simpa using mem

theorem mem_addAll {data more : List (String × String)} {entry : String × String}
    (mem : entry ∈ addAll data more) : entry ∈ data ∨ entry ∈ more := by
  induction more generalizing data with
  | nil => exact .inl mem
  | cons first more ih =>
    rcases ih mem with added | later
    · rcases mem_addData added with old | rfl
      · exact .inl old
      · exact .inr List.mem_cons_self
    · exact .inr (List.mem_cons_of_mem _ later)

/-! ### Agreement -/

/-- The hover data says about each occurrence what the occurrence holds, and nothing besides. -/
structure Agrees (sidecar : Sidecar) (occurrences : List Occurrence) : Prop where
  /-- Each range has one entry. -/
  once : (sidecar.hovers.map Prod.fst).Nodup
  keys : ∀ key, key ∈ sidecar.hovers.map Prod.fst ↔
    ∃ occurrence ∈ occurrences, key = keyOf occurrence.rangeId
  filled : ∀ key entry, (key, entry) ∈ sidecar.hovers →
    entry.content.isSome ∨ entry.definition.isSome ∨ entry.references.isSome
  /-- The entry of an occurrence has the parts that the occurrence has, and the data holds their texts. -/
  shown : ∀ occurrence ∈ occurrences, ∃ entry,
    sidecar.hovers.lookup (keyOf occurrence.rangeId) = some entry ∧
    (entry.content.map fun key => sidecar.data.lookup key) =
      occurrence.hover.map (fun hover => some (String.ofList hover.2)) ∧
    (entry.definition.map fun key => sidecar.data.lookup key) =
      occurrence.definition.map (fun definition => some definition.2.url) ∧
    entry.references = occurrence.references.map ElementId.fileStem
  /-- Each key has one text, and is used. -/
  dataOnce : (sidecar.data.map Prod.fst).Nodup
  used : ∀ key ∈ sidecar.data.map Prod.fst, ∃ entry ∈ sidecar.hovers,
    entry.2.content = some key ∨ entry.2.definition = some key

theorem mem_dataOf_iff {occurrence : Occurrence} {entry : String × String} :
    entry ∈ dataOf occurrence ↔
      (∃ id html, occurrence.hover = some (id, html) ∧ entry = (id.name, String.ofList html)) ∨
      ∃ id location, occurrence.definition = some (id, location) ∧ entry = (id.name, location.url) := by
  rw [dataOf, List.mem_append, Option.mem_toList, Option.mem_toList, Option.map_eq_some_iff,
    Option.map_eq_some_iff]
  simp only [Prod.exists, @eq_comm _ entry]

section Agreement

variable {occurrences : List Occurrence}
  (alone : ∀ first ∈ occurrences, ∀ second ∈ occurrences, first.rangeId = second.rangeId →
    first = second)
  (parts : ∀ occurrence ∈ occurrences,
    occurrence.hover.isSome ∨ occurrence.definition.isSome ∨ occurrence.references.isSome)
  (single : ∀ key value other, (key, value) ∈ occurrences.flatMap dataOf →
    (key, other) ∈ occurrences.flatMap dataOf → other = value)
include alone

theorem mem_hovers_of_mem {occurrence : Occurrence} (mem : occurrence ∈ occurrences) :
    (keyOf occurrence.rangeId, entryOf occurrence) ∈ (ofOccurrences occurrences).hovers := by
  obtain ⟨other, inside, same, listed⟩ := exists_mem_hovers mem
  rwa [alone other inside occurrence mem same] at listed

theorem lookup_hovers_of_mem {occurrence : Occurrence} (mem : occurrence ∈ occurrences) :
    (ofOccurrences occurrences).hovers.lookup (keyOf occurrence.rangeId) =
      some (entryOf occurrence) := by
  refine lookup_eq_some_of_mem (mem_hovers_of_mem alone mem) fun entry listed => ?_
  obtain ⟨other, inside, same⟩ := exists_of_mem_hovers listed
  obtain ⟨key, rfl⟩ := Prod.mk.inj same
  rw [alone other inside occurrence mem (keyOf_injective key).symm]

omit alone in
include single in
theorem lookup_data_of_mem {occurrence : Occurrence} (mem : occurrence ∈ occurrences)
    {entry : String × String} (held : entry ∈ dataOf occurrence) :
    (ofOccurrences occurrences).data.lookup entry.1 = some entry.2 := by
  have listed : entry ∈ occurrences.flatMap dataOf := List.mem_flatMap.mpr ⟨occurrence, mem, held⟩
  rw [ofOccurrences, data_foldl_add, lookup_addAll, List.nil_append]
  exact lookup_eq_some_of_mem listed fun other also => single entry.1 entry.2 other listed also

include parts single in
/-- The hover data of occurrences agrees with them if a range has one occurrence and a key one text. -/
theorem agrees_ofOccurrences : (ofOccurrences occurrences).Agrees occurrences where
  once := nodup_hovers_foldl .nil
  keys := by
    intro key
    have keys := key_mem_hovers_foldl occurrences ⟨[], []⟩ key
    rwa [List.map_nil, or_iff_right List.not_mem_nil] at keys
  filled := by
    intro key entry listed
    obtain ⟨occurrence, mem, same⟩ := exists_of_mem_hovers listed
    obtain ⟨_, rfl⟩ := Prod.mk.inj same
    simpa only [entryOf, Option.isSome_map] using parts occurrence mem
  shown := by
    intro occurrence mem
    refine ⟨entryOf occurrence, lookup_hovers_of_mem alone mem, ?_, ?_, rfl⟩
    · cases hover : occurrence.hover with
      | none => simp [entryOf, hover]
      | some held =>
        have entry := lookup_data_of_mem single mem (mem_dataOf_iff.mpr (.inl ⟨_, _, hover, rfl⟩))
        simpa [entryOf, hover] using entry
    · cases definition : occurrence.definition with
      | none => simp [entryOf, definition]
      | some held =>
        have entry := lookup_data_of_mem single mem (mem_dataOf_iff.mpr (.inr ⟨_, _, definition, rfl⟩))
        simpa [entryOf, definition] using entry
  dataOnce := by
    rw [ofOccurrences, data_foldl_add]
    refine nodup_addAll ?_ _
    exact List.nodup_nil
  used := by
    intro key listed
    obtain ⟨entry, held, rfl⟩ := List.mem_map.mp listed
    rw [ofOccurrences, data_foldl_add] at held
    obtain ⟨occurrence, mem, inside⟩ := List.mem_flatMap.mp ((mem_addAll held).resolve_left (by simp))
    refine ⟨_, mem_hovers_of_mem alone mem, ?_⟩
    rcases mem_dataOf_iff.mp inside with ⟨id, html, hover, rfl⟩ | ⟨id, location, definition, rfl⟩
    · exact .inl (by simp [entryOf, hover])
    · exact .inr (by simp [entryOf, definition])

end Agreement

end Sidecar

/-! ### What a document's ranges lead to -/

/-- Some range that the document lists, and that is not empty, leads to the result by the label. -/
def Locator.Reaches (locator : Locator) (document : ElementId) (label : EdgeLabel)
    (result : ElementId) : Prop :=
  ∃ start ∈ Query.contained locator document, ∃ range,
    locator.graph.vertex start = .ok (.range range) ∧ range.isEmpty = false ∧
      ∃ vertex, locator.graph.resolve start label = .ok (some (result, vertex))

namespace Query

variable {locator : Locator} {renderer : MarkdownRenderer} {document : ElementId}
  {found : List Occurrence}

theorem hoverOf_eq_some {rangeId id : ElementId} {html : List Char}
    (done : (hoverOf locator renderer rangeId).outcome (locator.answer renderer) = .ok (some (id, html))) :
    (∃ vertex, locator.graph.resolve rangeId .hover = .ok (some (id, vertex))) ∧
      locator.answer renderer (.hover id) = .ok html := by
  unfold hoverOf at done
  rw [lift_dump_eq] at done
  cases chain : locator.graph.resolve rangeId .hover with
  | error fault =>
    rw [chain] at done
    cases done
  | ok result =>
    rw [chain, mapError_ok, bind_done_ok] at done
    cases result with
    | none => cases done
    | some result =>
      obtain ⟨own, vertex⟩ := result
      cases vertex with
      | hoverResult contents =>
        dsimp only at done
        rw [outcome_bind] at done
        obtain ⟨markup, worked, same⟩ := ok_of_bind_eq_ok done
        cases same
        exact ⟨⟨_, rfl⟩, worked⟩
      | _ => cases done

theorem Found.parts_inv {id : ElementId} {occurrence : Occurrence} {asked : List Question}
    (about : Found locator renderer id (some occurrence) asked) :
    (hoverOf locator renderer id).outcome (locator.answer renderer) = .ok occurrence.hover ∧
      (occurrence.hover.isSome ∨ occurrence.definition.isSome ∨ occurrence.references.isSome) := by
  generalize same : some occurrence = result at about
  cases about with
  | nothing => cases same
  | @parts range hover definition references _ _ hovers _ _ =>
    unfold Occurrence.ofParts at same
    split at same
    · cases same
    · rename_i known
      cases same
      refine ⟨hovers, ?_⟩
      cases hover <;> cases definition <;> cases references <;> simp_all

theorem occurrence_parts
    (done : (occurrences locator renderer document).outcome (locator.answer renderer) = .ok found)
    {occurrence : Occurrence} (mem : occurrence ∈ found) :
    (occurrence.hover.isSome ∨ occurrence.definition.isSome ∨ occurrence.references.isSome) ∧
    (∀ id html, occurrence.hover = some (id, html) → locator.Reaches document .hover id ∧
      locator.answer renderer (.hover id) = .ok html) ∧
    ∀ id location, occurrence.definition = some (id, location) →
      locator.Reaches document .definition id ∧ ∃ link, locator.graph.firstLink? id .item = some link ∧
        locator.locate link.edge.target link.edge.document = .ok (some location) := by
  obtain ⟨rangeId, listed, gave⟩ := outcome_of_mem_occurrences done mem
  have about := found_of_occurrence gave
  obtain ⟨_, isRange, nonempty, defines⟩ := about.some_inv
  obtain ⟨hovers, part⟩ := about.parts_inv
  refine ⟨part, fun id html shows => ?_, fun id location leads => ?_⟩
  · rw [shows] at hovers
    obtain ⟨chain, answer⟩ := hoverOf_eq_some hovers
    exact ⟨⟨rangeId, listed, _, isRange, nonempty, chain⟩, answer⟩
  · rw [leads] at defines
    obtain ⟨chain, first⟩ := Locator.resolve_of_definitionOf? defines
    exact ⟨⟨rangeId, listed, _, isRange, nonempty, chain⟩, first⟩

/-- The texts under one key are the same, whichever ranges they were found for. -/
theorem data_unique
    (done : (occurrences locator renderer document).outcome (locator.answer renderer) = .ok found)
    (apart : ∀ result, locator.Reaches document .hover result →
      ¬ locator.Reaches document .definition result)
    {key value other : String} (first : (key, value) ∈ found.flatMap Sidecar.dataOf)
    (second : (key, other) ∈ found.flatMap Sidecar.dataOf) : other = value := by
  obtain ⟨occurrence, mem, held⟩ := List.mem_flatMap.mp first
  obtain ⟨another, memAnother, heldAnother⟩ := List.mem_flatMap.mp second
  obtain ⟨_, hover, definition⟩ := occurrence_parts done mem
  obtain ⟨_, hoverAnother, definitionAnother⟩ := occurrence_parts done memAnother
  have sameId : ∀ {id id' : ElementId}, key = id.name → key = id'.name → id = id' := by
    intro id id' one two
    cases id
    cases id'
    exact congrArg ElementId.mk (one.symm.trans two)
  rcases Sidecar.mem_dataOf_iff.mp held with ⟨id, html, shows, same⟩ | ⟨id, location, leads, same⟩
  · obtain ⟨named, rfl⟩ := Prod.mk.inj same
    rcases Sidecar.mem_dataOf_iff.mp heldAnother with ⟨id', html', shows', same'⟩ | ⟨id', _, leads', same'⟩
    · obtain ⟨named', rfl⟩ := Prod.mk.inj same'
      obtain rfl := sameId named named'
      have texts := (hover id html shows).2.symm.trans (hoverAnother id html' shows').2
      rw [Except.ok.inj texts]
    · obtain ⟨named', rfl⟩ := Prod.mk.inj same'
      obtain rfl := sameId named named'
      exact absurd (definitionAnother id _ leads').1 (apart id (hover id html shows).1)
  · obtain ⟨named, rfl⟩ := Prod.mk.inj same
    rcases Sidecar.mem_dataOf_iff.mp heldAnother with ⟨id', html', shows', same'⟩ | ⟨id', place, leads', same'⟩
    · obtain ⟨named', rfl⟩ := Prod.mk.inj same'
      obtain rfl := sameId named named'
      exact absurd (definition id _ leads).1 (apart id (hoverAnother id html' shows').1)
    · obtain ⟨named', rfl⟩ := Prod.mk.inj same'
      obtain rfl := sameId named named'
      obtain ⟨_, link, item, located⟩ := definition id location leads
      obtain ⟨_, link', item', located'⟩ := definitionAnother id place leads'
      cases item.symm.trans item'
      cases located.symm.trans located'
      rfl

/-- A dump in which two ranges share a hover text and a definition, which is the first of them. The second
is listed twice. -/
def sharedDump : List Element :=
  [⟨.ofNat 1, .vertex (.metaData ⟨"file:///repo", none, none⟩)⟩,
    ⟨.ofNat 2, .vertex (.document ⟨"file:///repo/a", ""⟩)⟩,
    ⟨.ofNat 3, .vertex (.range ⟨⟨0, 0⟩, ⟨0, 1⟩⟩)⟩,
    ⟨.ofNat 4, .vertex (.range ⟨⟨0, 1⟩, ⟨0, 2⟩⟩)⟩,
    ⟨.ofNat 5, .vertex (.hoverResult (.string "fn"))⟩,
    ⟨.ofNat 6, .vertex .definitionResult⟩,
    ⟨.ofNat 7, .vertex .resultSet⟩,
    ⟨.ofNat 8, .edge ⟨.next, .ofNat 3, .ofNat 7, [], none, none⟩⟩,
    ⟨.ofNat 9, .edge ⟨.next, .ofNat 4, .ofNat 7, [], none, none⟩⟩,
    ⟨.ofNat 10, .edge ⟨.hover, .ofNat 7, .ofNat 5, [], none, none⟩⟩,
    ⟨.ofNat 11, .edge ⟨.definition, .ofNat 7, .ofNat 6, [], none, none⟩⟩,
    ⟨.ofNat 12, .edge ⟨.item, .ofNat 6, .ofNat 3, [], some (.ofNat 2), none⟩⟩,
    ⟨.ofNat 13, .edge ⟨.contains, .ofNat 2, .ofNat 3, [.ofNat 4, .ofNat 4], none, none⟩⟩]

def sharedLocator (graph : Graph) : Locator :=
  ⟨graph, .ofRoot "file:///repo" .empty, ∅⟩

end Query

end CodeAtlas
