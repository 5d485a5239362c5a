import CodeAtlas.Proofs.Site.Apart

/-!
# Where reference files lie

The file of a reference result has the stem of the result's id for its name, and lies in the folder of the
reference files. The place of any file below an output folder ends in the last step of its path, so these
places are told apart by that step alone: by the stem, and from pages and hover data by the ending.
-/

namespace CodeAtlas

/-! ### The last step -/

namespace Store

theorem exists_destination_child (store : Store) (folder : DiskPath) {name : String}
    {before : List (List Char)} {last : List Char} (segments : name.toList.splitOn '/' = before ++ [last])
    (isName : DiskPath.IsName (Text.encodeUtf8 last)) :
    ∃ above, store.destination (folder.child name) = above ++ [Text.encodeUtf8 last] := by
  have followed : ∀ place, (DiskPath.ofString name).steps.foldl DiskPath.follow place =
      (before.map Text.encodeUtf8).foldl DiskPath.follow place ++ [Text.encodeUtf8 last] := by
    intro place
    rw [DiskPath.steps_ofString, segments, List.map_append, List.foldl_append, List.map_singleton,
      List.foldl_cons, List.foldl_nil, DiskPath.follow, if_neg (by simp [isName.1]), if_neg isName.2]
  unfold destination DiskPath.child
  cases absolute : (DiskPath.ofString name).isAbsolute with
  | true =>
    rw [DiskPath.join, if_pos absolute, followed]
    exact ⟨_, rfl⟩
  | false =>
    rw [DiskPath.foldl_follow_join folder absolute, followed]
    exact ⟨_, rfl⟩

/-- A path with an ending leads to a file with that ending, whatever the path was. -/
theorem exists_destination_append (store : Store) (folder : DiskPath) {name path : String}
    {ending : List Char} (shape : name.toList = path.toList ++ ending) (flat : '/' ∉ ending)
    (long : 2 < ending.length) :
    ∃ above last, store.destination (folder.child name) = above ++ [Text.encodeUtf8 (last ++ ending)] := by
  obtain ⟨before, last, _, segments⟩ := PagePath.splitOn_append_suffix path.toList flat
  rw [← shape] at segments
  have other : ∀ short : List Char, short.length ≤ 2 → last ++ ending ≠ short := by
    rintro _ short rfl
    rw [List.length_append] at short
    omega
  have isName := DiskPath.isName_encodeUtf8_of_ne (other [] (by decide)) (other ['.'] (by decide))
    (other ['.', '.'] (by decide))
  obtain ⟨above, place⟩ := store.exists_destination_child folder segments isName
  exact ⟨above, last, place⟩

end Store

namespace Site

variable (store : Store) (output : DiskPath)

/-! ### The files of results and documents -/

theorem destination_referenceFile (id : ElementId) (json : List Char) :
    store.destination (referenceFile output id json).path = store.destination output ++
      [Text.bytesOf "_data", Text.bytesOf "refs", Text.bytesOf s!"{id.fileStem}.json"] := by
  have contained : (SiteFile.references id).Contained := trivial
  rw [referenceFile_eq, destination_entryFile store contained, SiteFile.place_references,
    steps_referenceFolder]
  rfl

theorem destination_referenceFile_ne {first second : ElementId} (different : first ≠ second)
    (json other : List Char) :
    store.destination (referenceFile output first json).path ≠
      store.destination (referenceFile output second other).path := by
  intro same
  have contained : ∀ id, (SiteFile.references id).Contained := fun _ => trivial
  rw [referenceFile_eq, referenceFile_eq] at same
  have names := (destination_eq_iff (contained first) (contained second) store output).mp same
  rcases SiteFile.eq_of_name_eq names with equal | ⟨start, _⟩ | ⟨index, _⟩
  · exact different (SiteFile.references.inj equal)
  · cases start
  · cases index

theorem destination_ne_of_ending {name path : String} {ending : List Char}
    (shape : name.toList = path.toList ++ ending) (flat : '/' ∉ ending) (long : 2 < ending.length)
    {id : ElementId} (apart : ∀ last, last ++ ending ≠ id.fileStem.toList ++ ".json".toList)
    (json : List Char) :
    store.destination (output.child name) ≠ store.destination (referenceFile output id json).path := by
  intro same
  obtain ⟨above, last, place⟩ := store.exists_destination_append output shape flat long
  have lasts := congrArg List.getLast? same
  rw [place, destination_referenceFile, List.getLast?_append, List.getLast?_append] at lasts
  have texts : Text.encodeUtf8 (last ++ ending) = Text.encodeUtf8 (s!"{id.fileStem}.json").toList := by
    simpa [Text.bytesOf_eq_encodeUtf8] using lasts
  refine apart last ((Text.encodeUtf8_injective texts).trans ?_)
  simp [ToString.toString]

/-- The files of a document, whatever its path is, are no reference files. -/
theorem destination_filesOfPage_ne {page : RenderedPage} {file : OutputFile}
    (mem : file ∈ filesOfPage output page) (id : ElementId) (json : List Char) :
    store.destination file.path ≠ store.destination (referenceFile output id json).path := by
  have dotless : '.' ∉ id.fileStem.toList := SiteFile.not_mem_fileStem (by decide) id
  unfold filesOfPage at mem
  rcases List.mem_pair.mp mem with rfl | rfl
  · apply destination_ne_of_ending store output (SiteFile.toList_name_sidecar page.path) (by decide) (by decide)
    intro last
    exact SiteFile.append_hover_ne dotless
  · apply destination_ne_of_ending store output (SiteFile.toList_name_page page.path) (by decide) (by decide)
    intro last same
    exact absurd (List.append_inj_right' same rfl) (by decide)

/-- The stem of an id has letters, digits, `-` and `_` only, and the id can be read back from it, so
different ids have different stems. The file of a reference result is directly in the folder of the
reference files. Those of different results are at different places, and no file of a document is at the
place of one. -/
theorem reference_files_apart :
    (∀ id : ElementId, ∀ c ∈ id.fileStem.toList, c.isAlphanum = true ∨ c = '-' ∨ c = '_') ∧
    (∀ stem id, ElementId.ofStem? stem = some id ↔ id.fileStem = stem) ∧
    (∀ first second : ElementId, first ≠ second → first.fileStem ≠ second.fileStem) ∧
    ∀ (store : Store) (output : DiskPath) (id : ElementId) (json : List Char),
      store.destination (referenceFile output id json).path = store.destination output ++
        [Text.bytesOf "_data", Text.bytesOf "refs", Text.bytesOf s!"{id.fileStem}.json"] ∧
      (∀ other otherJson, id ≠ other → store.destination (referenceFile output id json).path ≠
        store.destination (referenceFile output other otherJson).path) ∧
      ∀ page, ∀ file ∈ filesOfPage output page,
        store.destination file.path ≠ store.destination (referenceFile output id json).path := by
  refine ⟨fun id c mem => ?_, fun stem id => ElementId.ofStem?_eq_some_iff,
    fun first second => mt ElementId.fileStem_injective, fun store output id json => ⟨?_, ?_, ?_⟩⟩
  · simpa [ElementId.isStemChar, or_assoc] using ElementId.isStemChar_of_mem_fileStem mem
  · exact destination_referenceFile store output id json
  · exact fun other otherJson different => destination_referenceFile_ne store output different _ _
  · exact fun page file mem => destination_filesOfPage_ne store output mem id json

/-- An id that looks like the stem of another, and a document with a path among the reference files. -/
theorem reference_files_apart_lookalike :
    '_' ∈ (⟨"a/"⟩ : ElementId).fileStem.toList ∧ ElementId.ofStem? "a_2f" = some ⟨"a/"⟩ ∧
    (⟨"a/"⟩ : ElementId).fileStem ≠ (⟨"a_2f"⟩ : ElementId).fileStem ∧
    usedDisk.destination (referenceFile (.ofString "out") ⟨"a/"⟩ []).path ≠
      usedDisk.destination (referenceFile (.ofString "out") ⟨"a_2f"⟩ []).path ∧
    usedDisk.destination (pageFile (.ofString "out") "_data/refs/a_2f") ≠
      usedDisk.destination (referenceFile (.ofString "out") ⟨"a/"⟩ []).path := by
  have stem : (⟨"a/"⟩ : ElementId).fileStem = "a_2f" := by decide
  have different : (⟨"a/"⟩ : ElementId) ≠ ⟨"a_2f"⟩ := by decide
  obtain ⟨_, read, stems, places⟩ := reference_files_apart
  obtain ⟨_, others, pages⟩ := places usedDisk (.ofString "out") ⟨"a/"⟩ []
  refine ⟨by simp [stem], (read _ _).mpr stem, stems _ _ different, others _ [] different, ?_⟩
  exact pages ⟨"_data/refs/a_2f", [], [], 0⟩ _ (List.mem_pair.mpr (.inr rfl))

end Site

end CodeAtlas
