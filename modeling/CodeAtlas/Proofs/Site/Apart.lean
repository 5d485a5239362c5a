import CodeAtlas.Proofs.Site.Publishing

/-!
# Files that stay apart

No two files of a site have the same path, but for the page to start from and that of a document called
`index`. So the files can be written at the same time: however the steps of the writes fall, each of the
others ends up with its own contents.
-/

namespace CodeAtlas

namespace Site

/-! ### Names of a site's files -/

variable {site : Site} {graph : Graph} {pages : PageMap} {plan : Plan}

/-- The files that do not depend on the dump. -/
def fixedFiles : List SiteFile :=
  [.welcome, .marker, .script, .style]

theorem map_fst_entries (site : Site) :
    site.entries.map Prod.fst = fixedFiles ++
      ((site.pages.map (·.path)).flatMap (fun path => [SiteFile.sidecar path, .page path]) ++
        (site.references.map Prod.fst).map SiteFile.references) := by
  simp [entries, firstEntries, assetEntries, lastEntries, fixedFiles, List.map_flatMap, List.flatMap_map,
    Function.comp_def]

theorem nodup_filesOfPaths {paths : List String} (distinct : paths.Nodup) :
    (paths.flatMap fun path => [SiteFile.sidecar path, .page path]).Nodup := by
  rw [List.nodup_flatMap]
  refine ⟨fun path _ => by simp, distinct.imp fun {first second} differ => ?_⟩
  simp [Function.onFun, differ.symm]

theorem nodup_entries (distinct : (site.pages.map (·.path)).Nodup)
    (once : (site.references.map Prod.fst).Nodup) : (site.entries.map Prod.fst).Nodup := by
  rw [map_fst_entries]
  refine List.nodup_append'.mpr ⟨by decide, List.nodup_append'.mpr ⟨nodup_filesOfPaths distinct, ?_, ?_⟩, ?_⟩
  · exact once.map fun _ _ same => SiteFile.references.inj same
  · intro file made refers
    obtain ⟨path, _, kinds⟩ := List.mem_flatMap.mp made
    obtain ⟨id, _, rfl⟩ := List.mem_map.mp refers
    simp at kinds
  · intro file fixed drawn
    rcases List.mem_append.mp drawn with made | refers
    · obtain ⟨path, _, kinds⟩ := List.mem_flatMap.mp made
      simp only [List.mem_cons, List.not_mem_nil, or_false] at kinds
      rcases kinds with rfl | rfl <;> simp [fixedFiles] at fixed
    · obtain ⟨id, _, rfl⟩ := List.mem_map.mp refers
      simp [fixedFiles] at fixed

/-- A rule that tells files apart just as their names do tells all of them apart, unless there is a page
called `index`. -/
theorem nodup_map_iff {β : Type} {rule : SiteFile → β} {kinds : List SiteFile} (distinct : kinds.Nodup)
    (start : .welcome ∈ kinds)
    (names : ∀ first ∈ kinds, ∀ second ∈ kinds, rule first = rule second ↔ first.name = second.name) :
    (kinds.map rule).Nodup ↔ .page "index" ∉ kinds := by
  rw [List.nodup_map_iff_inj_on distinct]
  constructor
  · intro apart index
    have same : SiteFile.welcome.name = (SiteFile.page "index").name := by decide
    cases apart _ start _ index ((names _ start _ index).mpr same)
  · intro noIndex first mem second memOther same
    rcases SiteFile.eq_of_name_eq ((names _ mem _ memOther).mp same) with same | ⟨_, rfl⟩ | ⟨rfl, _⟩
    · exact same
    · exact absurd memOther noIndex
    · exact absurd mem noIndex

theorem destination_eq_iff {first second : SiteFile} (contained : first.Contained)
    (containedOther : second.Contained) (store : Store) (output : DiskPath) :
    store.destination (output.child first.name) = store.destination (output.child second.name) ↔
      first.name = second.name := by
  constructor
  · intro same
    rw [store.destination_child output contained.isPlain_name,
      store.destination_child output containedOther.isPlain_name] at same
    exact DiskPath.ofString_steps_injective (List.append_cancel_left same)
  · intro same
    rw [same]

theorem child_eq_iff {first second : SiteFile} (contained : first.Contained)
    (containedOther : second.Contained) (output : DiskPath) :
    output.child first.name = output.child second.name ↔ first.name = second.name := by
  constructor
  · intro same
    exact (destination_eq_iff contained containedOther ⟨∅, []⟩ output).mp (by rw [same])
  · intro same
    rw [same]

theorem contained_of_mem_entries (planned : Plan.ofGraph graph pages = .ok plan)
    (drawn : site.pages.map (·.path) = plan.paths) {file : SiteFile}
    (mem : file ∈ site.entries.map Prod.fst) : file.Contained := by
  have plain : ∀ path ∈ site.pages.map (·.path), PagePath.IsPlain path.toList := by
    intro path listed
    rw [drawn] at listed
    obtain ⟨entry, _, mapped⟩ := ((Plan.ofGraph_paths planned).2 path).mp listed
    exact PagePath.isPlain_of_isContained (PageMap.isContained_of_path? mapped)
  cases file with
  | welcome | marker | script | style | references _ => trivial
  | page path | sidecar path =>
    refine plain path ?_
    simpa [map_fst_entries, fixedFiles] using mem

theorem page_mem_entries_iff (site : Site) (path : String) :
    .page path ∈ site.entries.map Prod.fst ↔ path ∈ site.pages.map (·.path) := by
  simp [map_fst_entries, fixedFiles]

/-- What stands at the path of a file in the end is the contents of a file with the same name. -/
theorem WritesTo.read_entry {output : DiskPath} {store after : Store}
    (contained : ∀ file ∈ site.entries.map Prod.fst, file.Contained)
    (writes : WritesTo (site.entries.map (entryFile output)) store after)
    {entry : SiteFile × List UInt8} (mem : entry ∈ site.entries) :
    ∃ other ∈ site.entries, other.1.name = entry.1.name ∧
      after.read (entryFile output entry).path = .ok (entryFile output other).contents := by
  obtain ⟨last, inside, place, read⟩ := writes.read (List.mem_map_of_mem mem)
  obtain ⟨other, listed, rfl⟩ := List.mem_map.mp inside
  have same := (destination_eq_iff (contained _ (List.mem_map_of_mem listed))
    (contained _ (List.mem_map_of_mem mem)) store output).mp place
  exact ⟨other, listed, same, read⟩

/-- No two files of a site have the same path, nor do two paths lead to one place, just if no document
is called `index`. However the writes of all files fall, those that succeed leave each file with its own
contents, but for the page to start from and that of such a document: one of the two is left. -/
theorem files_apart_iff (planned : Plan.ofGraph graph pages = .ok plan)
    (drawn : site.pages.map (·.path) = plan.paths) (once : (site.references.map Prod.fst).Nodup)
    (output : DiskPath) :
    (((site.files output (ownAssets output)).map (·.path)).Nodup ↔ "index" ∉ plan.paths) ∧
    ∀ store : Store,
      (((site.files output (ownAssets output)).map fun file => store.destination file.path).Nodup ↔
        "index" ∉ plan.paths) ∧
      ∀ after, WritesTo (site.files output (ownAssets output)) store after →
        (∀ file ∈ site.files output (ownAssets output),
          (file.path = output.child "index.html" → "index" ∉ plan.paths) →
            after.read file.path = .ok file.contents) ∧
        ∃ file ∈ site.files output (ownAssets output), file.path = output.child "index.html" ∧
          after.read (output.child "index.html") = .ok file.contents := by
  have paths : (site.pages.map (·.path)).Nodup := drawn ▸ (Plan.ofGraph_paths planned).1
  have distinct := nodup_entries paths once
  have contained : ∀ file ∈ site.entries.map Prod.fst, file.Contained :=
    fun file => contained_of_mem_entries planned drawn
  have start : SiteFile.welcome ∈ site.entries.map Prod.fst := by simp [map_fst_entries, fixedFiles]
  have index := page_mem_entries_iff site "index"
  rw [drawn] at index
  simp only [files_ownAssets, List.map_map]
  refine ⟨?_, fun store => ⟨?_, fun after writes => ?_⟩⟩
  · have each := nodup_map_iff distinct start fun first mem second memOther =>
      child_eq_iff (contained _ mem) (contained _ memOther) output
    rwa [List.map_map, index] at each
  · have each := nodup_map_iff distinct start fun first mem second memOther =>
      destination_eq_iff (contained _ mem) (contained _ memOther) store output
    rwa [List.map_map, index] at each
  · constructor
    · intro file listed apart
      obtain ⟨entry, mem, rfl⟩ := List.mem_map.mp listed
      obtain ⟨other, memOther, name, read⟩ := writes.read_entry contained mem
      rw [read]
      have indexed : (entry.1 = .welcome ∨ entry.1 = .page "index") → "index" ∉ plan.paths := by
        rintro (same | same) <;> exact apart (by rw [entryFile, same]; rfl)
      rcases SiteFile.eq_of_name_eq name with same | ⟨_, same⟩ | ⟨same, isStart⟩
      · rw [List.inj_on_of_nodup_map distinct memOther mem same]
      · exact absurd (index.mp (same ▸ List.mem_map_of_mem mem)) (indexed (.inr same))
      · exact absurd (index.mp (same ▸ List.mem_map_of_mem memOther)) (indexed (.inl isStart))
    · obtain ⟨entry, mem, isStart⟩ := List.mem_map.mp start
      have path : (entryFile output entry).path = output.child "index.html" := by
        rw [entryFile, isStart]
        rfl
      obtain ⟨other, memOther, name, read⟩ := writes.read_entry contained mem
      rw [path] at read
      refine ⟨_, List.mem_map_of_mem memOther, ?_, read⟩
      rw [← path, entryFile, name]
      rfl

def oneDump (uri : String) : List Element :=
  [⟨.ofNat 1, .vertex (.metaData ⟨"file:///", none, none⟩)⟩,
    ⟨.ofNat 2, .vertex (.document ⟨uri, ""⟩)⟩]

def onePaths (uri : String) : Option (List String) :=
  (Graph.ofElements (oneDump uri)).toOption.bind fun graph =>
    (Plan.ofGraph graph (.ofRoot graph.projectRoot .empty)).toOption.map Plan.paths

def oneSite (path : String) : Site :=
  ⟨[⟨path, ['p'], ['s'], 0⟩], ['w'], [(.ofNat 7, ['r'])]⟩

def oneFiles (path : String) : List OutputFile :=
  (oneSite path).files (.ofString "out") (ownAssets (.ofString "out"))

theorem exists_plan_of_onePaths {uri : String} {paths : List String} (listed : onePaths uri = some paths) :
    ∃ graph plan, Graph.ofElements (oneDump uri) = .ok graph ∧
      Plan.ofGraph graph (.ofRoot graph.projectRoot .empty) = .ok plan ∧ plan.paths = paths := by
  obtain ⟨graph, built, listed⟩ := Option.bind_eq_some_iff.mp listed
  obtain ⟨plan, planned, paths⟩ := Option.map_eq_some_iff.mp listed
  exact ⟨graph, plan, ok_of_toOption_eq_some built, ok_of_toOption_eq_some planned, paths⟩

/-- The document's page and its hover data stand beside the reference set of the same number. -/
theorem files_apart_iff_beside : ∃ graph plan after,
    Graph.ofElements (oneDump "file:///_data/refs/7") = .ok graph ∧
    Plan.ofGraph graph (.ofRoot graph.projectRoot .empty) = .ok plan ∧
    (oneSite "_data/refs/7").pages.map (·.path) = plan.paths ∧
    WritesTo (oneFiles "_data/refs/7") usedDisk after ∧
    ((oneFiles "_data/refs/7").map (·.path)).Nodup ∧
    ∀ file ∈ oneFiles "_data/refs/7", after.read file.path = .ok file.contents := by
  obtain ⟨graph, plan, built, planned, paths⟩ := exists_plan_of_onePaths
    (show onePaths "file:///_data/refs/7" = some ["_data/refs/7"] by decide +kernel)
  obtain ⟨_, after, done⟩ := exists_run_eq_ok
    (show (runOn (writeAll [5, 6, 4, 5] (oneFiles "_data/refs/7")) usedDisk).1.isOk = true by decide)
  have drawn : (oneSite "_data/refs/7").pages.map (·.path) = plan.paths := paths.symm
  have noIndex : "index" ∉ plan.paths := by simp [paths]
  have apart := files_apart_iff planned drawn (by decide) (.ofString "out")
  have writes := writesTo_iff.mpr ⟨_, done⟩
  exact ⟨graph, plan, after, built, planned, drawn, writes, apart.1.mpr noIndex, fun file mem =>
    ((apart.2 usedDisk).2 after writes).1 file mem fun _ => noIndex⟩

/-- The page of a document called `index` takes the place of the page to start from. -/
theorem index_page_in_the_way : ∃ graph plan after,
    Graph.ofElements (oneDump "file:///index") = .ok graph ∧
    Plan.ofGraph graph (.ofRoot graph.projectRoot .empty) = .ok plan ∧
    (oneSite "index").pages.map (·.path) = plan.paths ∧
    WritesTo (oneFiles "index") usedDisk after ∧
    ¬ ((oneFiles "index").map (·.path)).Nodup ∧
    after.read (.ofString "out/index.html") ≠ .ok (Text.encodeUtf8 (oneSite "index").welcome) := by
  obtain ⟨graph, plan, built, planned, paths⟩ := exists_plan_of_onePaths
    (show onePaths "file:///index" = some ["index"] by decide +kernel)
  obtain ⟨_, after, done⟩ := exists_run_eq_ok
    (show (runOn (writeAll [] (oneFiles "index")) usedDisk).1.isOk = true by decide)
  have lost : ((runOn (writeAll [] (oneFiles "index")) usedDisk).2.read
      (.ofString "out/index.html")).toOption = some (Text.encodeUtf8 ['p']) := by decide
  rw [done] at lost
  refine ⟨graph, plan, after, built, planned, paths.symm, writesTo_iff.mpr ⟨_, done⟩, by decide,
    fun same => ?_⟩
  rw [same] at lost
  exact absurd (Option.some.inj lost) (by decide)

end Site

end CodeAtlas
