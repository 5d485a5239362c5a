import CodeAtlas.Proofs.Page.Balance
import CodeAtlas.Proofs.Site.Publishing
import CodeAtlas.Proofs.Symbol.Faults
import CodeAtlas.Proofs.Symbol.Sidecar

/-!
# Links of a site

Every location that a site shows is a line of one of its pages, every reference file that a page names is
written, and every reference file that is written is named by a page.
-/

namespace CodeAtlas

/-! ### Locations -/

namespace Locator

variable {locator : Locator}

/-- A location is the line of a document's page where its target starts. -/
theorem locate_eq_some {target : ElementId} {hint : Option ElementId} {location : Location}
    (found : locator.locate target hint = .ok (some location)) :
    ∃ range id document path, (locator.owner? target).or hint = some id ∧
      locator.graph.range target = .ok range ∧ locator.graph.document id = .ok document ∧
      locator.pages.path? document.uri = some path ∧ location = locator.lineOf id path range := by
  unfold locate at found
  obtain ⟨range, isRange, found⟩ := ok_of_bind_eq_ok found
  split at found
  · cases found
  · rename_i id owner
    obtain ⟨document, isDocument, found⟩ := ok_of_bind_eq_ok found
    obtain ⟨path, mapped, same⟩ := Option.map_eq_some_iff.mp (Except.ok.inj found)
    exact ⟨range, id, document, path, owner, isRange, isDocument, mapped, same.symm⟩

/-- The number in the URL wraps round as the numbers of lines do. -/
theorem url_lineOf_mod (document : ElementId) (path : String) (range : Range) :
    (locator.lineOf document path range).url =
      s!"{path}.html#{(range.start.line.toNat + 1) % UInt32.size}" := by
  have number : (range.start.line + 1).toNat = (range.start.line.toNat + 1) % UInt32.size :=
    UInt32.toNat_add _ _
  unfold lineOf
  dsimp only
  rw [← number]
  rfl

theorem url_lineOf {range : Range} (inside : range.start.line.toNat + 1 < UInt32.size)
    (document : ElementId) (path : String) :
    (locator.lineOf document path range).url = s!"{path}.html#{range.start.line.toNat + 1}" := by
  rw [url_lineOf_mod, Nat.mod_eq_of_lt inside]

theorem definitionOf?_eq_some {rangeId id : ElementId} {location : Location}
    (found : locator.definitionOf? rangeId = .ok (some (id, location))) :
    ∃ link, locator.graph.firstLink? id .item = some link ∧
      locator.locate link.edge.target link.edge.document = .ok (some location) :=
  (resolve_of_definitionOf? found).2

theorem locateAll_eq_ok {items : List Item} {locations : List Location}
    (found : locator.locateAll items = .ok locations) {location : Location}
    (mem : location ∈ locations) :
    ∃ item ∈ items, locator.locate item.1 item.2 = .ok (some location) := by
  unfold locateAll at found
  obtain ⟨each, located, same⟩ := ok_of_bind_eq_ok found
  cases same
  obtain ⟨_, listed, rfl⟩ := List.mem_filterMap.mp mem
  exact (mem_of_mapM_eq_ok located _).mp listed

theorem referenceSet?_eq_some {id : ElementId} {set : ReferenceSet}
    (found : locator.referenceSet? id = .ok (some set)) :
    ∃ items, locator.graph.items id = .ok items ∧
      ∀ location ∈ set.definitions ++ set.references,
        ∃ item ∈ items.definitions ++ items.references,
          locator.locate item.1 item.2 = .ok (some location) := by
  unfold referenceSet? at found
  obtain ⟨items, collected, found⟩ := ok_of_bind_eq_ok found
  refine ⟨items, collected, fun location mem => ?_⟩
  split at found
  · obtain ⟨definitions, defined, found⟩ := ok_of_bind_eq_ok found
    obtain ⟨references, referred, same⟩ := ok_of_bind_eq_ok found
    cases same
    rcases List.mem_append.mp mem with mem | mem
    · obtain ⟨item, listed, located⟩ := locateAll_eq_ok defined mem
      exact ⟨item, List.mem_append_left _ listed, located⟩
    · obtain ⟨item, listed, located⟩ := locateAll_eq_ok referred mem
      exact ⟨item, List.mem_append_right _ listed, located⟩
  · cases found

end Locator

namespace Graph

variable {graph : Graph} {elements : List Element}

theorem Describes.mem_of_vertex (describes : graph.Describes elements) {id : ElementId} {vertex : Vertex}
    (found : graph.vertex id = .ok vertex) : ⟨id, .vertex vertex⟩ ∈ elements := by
  unfold Graph.vertex Graph.require at found
  cases present : graph.get? id with
  | none =>
    rw [present] at found
    cases found
  | some element =>
    rw [present] at found
    have matched := List.find?_some ((describes.get id).symm.trans present)
    obtain ⟨other, kind⟩ := element
    obtain rfl : other = id := by simpa using matched
    cases kind with
    | edge edge => cases found
    | vertex vertex =>
      cases found
      exact describes.mem_of_get? present

theorem Describes.mem_documents (describes : graph.Describes elements) {id : ElementId}
    {document : Document} (found : graph.document id = .ok document) : (id, document) ∈ graph.documents := by
  have isDocument : graph.vertex id = .ok (.document document) := by
    unfold Graph.document at found
    split at found
    · cases found
    · cases found
      assumption
    · cases found
  rw [describes.documents]
  exact List.mem_filterMap.mpr ⟨_, describes.mem_of_vertex isDocument, rfl⟩

end Graph

/-! ### Pages and reference files -/

namespace Site

variable {presentation : Presentation} {config : SiteConfig} {schedule : Schedule} {store after : Store}
  {input : SiteInput} {site : Site} {assets : List OutputFile}

/-- A location is the line where its target starts, in the page of a document of the site, and the page
can be read: as it was made, if no other file has come in its place. -/
def Leads (presentation : Presentation) (config : SiteConfig) (schedule : Schedule) (store : Store)
    (input : SiteInput) (after : Store) (target : ElementId) (location : Location) : Prop :=
  ∃ document ∈ input.documents, ∃ html held range,
    input.Makes presentation (.page document.path) html ∧
    after.read (config.output.child s!"{document.path}.html") = .ok held ∧
    (Stays config schedule store (.page document.path) → held = html) ∧
    input.locator.graph.range target = .ok range ∧
    (range.start.line.toNat + 1 < UInt32.size →
      location.url = s!"{document.path}.html#{range.start.line.toNat + 1}")

theorem Published.leads (published : Published config schedule site assets store after)
    (sound : input.Sound) (rendered : render presentation input = .ok site) {target : ElementId}
    {hint : Option ElementId} {location : Location}
    (found : input.locator.locate target hint = .ok (some location)) :
    Leads presentation config schedule store input after target location := by
  obtain ⟨range, id, document, path, _, isRange, isDocument, mapped, rfl⟩ := Locator.locate_eq_some found
  obtain ⟨elements, describes⟩ := sound.described
  -- The document that the target is in need not have a page of its own, but another has its path.
  obtain ⟨shown, mem, rfl⟩ := List.mem_map.mp
    ((sound.mapped path).mpr ⟨(id, document), describes.mem_documents isDocument, mapped⟩)
  obtain ⟨occurrences, page, occurs, drawn⟩ := exists_page rendered mem
  have makes := SiteInput.Makes.page mem occurs drawn
  obtain ⟨held, read, own⟩ := published.exists_read sound rendered makes rfl
  refine ⟨shown, mem, _, held, range, makes, read, own, isRange, ?_⟩
  intro inside
  exact Locator.url_lineOf inside id shown.path

def NamedBySidecar (presentation : Presentation) (input : SiteInput) (value : String) : Prop :=
  ∃ document ∈ input.documents, ∃ occurrences,
    input.occurrences presentation document = .ok occurrences ∧
    ∃ key entry, (key, entry) ∈ (Sidecar.ofOccurrences occurrences).hovers ∧
      entry.references = some value

theorem namedBySidecar_of_occurrence {document : PlannedDocument} {occurrences : List Occurrence}
    {occurrence : Occurrence} {id : ElementId} (mem : document ∈ input.documents)
    (occurs : input.occurrences presentation document = .ok occurrences)
    (listed : occurrence ∈ occurrences) (named : occurrence.references = some id) :
    NamedBySidecar presentation input id.fileStem := by
  obtain ⟨other, inside, same, entry⟩ := Sidecar.exists_mem_hovers listed
  have found := (SiteInput.occurrences_eq_outcome document).symm.trans occurs
  obtain rfl := Query.eq_of_rangeId_eq found inside listed same
  exact ⟨document, mem, occurrences, occurs, _, _, entry, by simp [Sidecar.entryOf, named]⟩

/-- What lies in the folder of the reference sets: reference files that a page names, pages and sidecars
of documents whose own paths lead there, and what an earlier build has left. -/
theorem Published.file?_references (published : Published config schedule site assets store after)
    (named : store.Named) (sound : input.Sound) (rendered : render presentation input = .ok site)
    {rest : Place} {contents : List UInt8}
    (there : after.file? (store.destination (config.output.child referenceFolder) ++ rest) =
      some contents) :
    (∃ value, NamedBySidecar presentation input value ∧
      store.destination (config.output.child referenceFolder) ++ rest =
        store.destination (config.output.child s!"_data/refs/{value}.json")) ∨
    (∃ document ∈ input.documents,
      store.destination (config.output.child referenceFolder) ++ rest =
        store.destination (config.output.child s!"{document.path}.html") ∨
      store.destination (config.output.child referenceFolder) ++ rest =
        store.destination (config.output.child s!"{document.path}.hover.json")) ∨
    store.lookup config.output = .error .notFound ∧
      store.file? (store.destination (config.output.child referenceFolder) ++ rest) =
        some contents := by
  have folder : store.destination (config.output.child referenceFolder) =
      store.destination config.output ++ (DiskPath.ofString referenceFolder).steps :=
    store.destination_child config.output isPlain_referenceFolder
  by_cases written : ∃ file ∈ site.files config.output assets,
      store.destination file.path = store.destination (config.output.child referenceFolder) ++ rest
  · obtain ⟨file, mem, place⟩ := written
    rw [files_eq, List.mem_append, List.mem_append] at mem
    rcases mem with (first | own) | last
    · obtain ⟨entry, listed, rfl⟩ := List.mem_map.mp first
      have makes := (makes_iff rendered entry.1 entry.2).mpr (.inl listed)
      rw [destination_entryFile store (makes.contained sound), folder, List.append_assoc,
        steps_referenceFolder] at place
      have start := congrArg List.head? (List.append_cancel_left place)
      rw [List.cons_append, List.head?_cons] at start
      simp only [firstEntries, List.mem_cons, List.not_mem_nil, or_false] at listed
      rcases listed with rfl | rfl
      · exact absurd start (show SiteFile.welcome.place.head? ≠ _ by decide)
      · exact absurd start (show SiteFile.marker.place.head? ≠ _ by decide)
    · have below := published.below named file own
      rw [place, folder, List.append_assoc, List.prefix_append_right_inj] at below
      exact absurd below (not_assets_below_references rest)
    · obtain ⟨⟨kind, held⟩, listed, rfl⟩ := List.mem_map.mp last
      rcases (mem_lastEntries_iff _ _ _).mp listed with ⟨page, drawn, kinds⟩ | ⟨id, json, kept, rfl, _⟩
      · obtain ⟨document, mem, occurrences, occurs, made⟩ := (mem_pages_iff rendered page).mp drawn
        refine .inr (.inl ⟨document, mem, ?_⟩)
        rw [SiteInput.path_of_page made] at kinds
        rcases kinds with ⟨rfl, _⟩ | ⟨rfl, _⟩
        · exact .inr place.symm
        · exact .inl place.symm
      · obtain ⟨set, _, _, document, mem, occurrences, occurs, occurrence, inside, refers⟩ :=
          ((render_spec rendered).2.2 id json).mp kept
        exact .inl ⟨id.fileStem, namedBySidecar_of_occurrence mem occurs inside refers, place.symm⟩
  · obtain ⟨all, perm, _, files⟩ := published.file?
    rw [files, putAll_of_forall_ne fun file mem place => written ⟨file, perm.mem_iff.mp mem, place⟩, folder,
      List.append_assoc, remaining_below_iff published.missing] at there
    refine .inr (.inr ?_)
    rwa [folder, List.append_assoc]

/-- Every link of a built site is closed, in whatever order its files were written. A location that a page
or a reference file shows is the line where its target starts, in the page of a document of the site. A
sidecar names only reference files that are there and hold the sets of their results. And the folder of the
reference sets holds no others, but for the pages and sidecars of documents whose own paths lead there, and
for what the removal of an earlier site has left. -/
theorem links_closed {presentation : Presentation} {config : SiteConfig} {schedule : Schedule}
    {store after : Store} {report : BuildReport} (named : store.Named)
    (done : runOn (build presentation config schedule) store = (.ok report, after)) :
    ∃ input, loadOn config store = .ok (input, report.skipped) ∧
      (∀ document ∈ input.documents, ∃ occurrences held,
        input.occurrences presentation document = .ok occurrences ∧
        after.read (config.output.child s!"{document.path}.hover.json") = .ok held ∧
        (Stays config schedule store (.sidecar document.path) →
          held = Text.encodeUtf8 (Sidecar.ofOccurrences occurrences).toJson.write) ∧
        (∀ occurrence ∈ occurrences, ∀ id location, occurrence.definition = some (id, location) →
          ∃ link, input.locator.graph.firstLink? id .item = some link ∧
            Leads presentation config schedule store input after link.edge.target location) ∧
        ∀ key entry value, (key, entry) ∈ (Sidecar.ofOccurrences occurrences).hovers →
          entry.references = some value → ∃ id set, value = id.fileStem ∧
            input.locator.referenceSet? id = .ok (some set) ∧
            after.read (config.output.child s!"_data/refs/{value}.json") =
              .ok (Text.encodeUtf8 set.toJson.write) ∧
            ∃ items, input.locator.graph.items id = .ok items ∧
              ∀ location ∈ set.definitions ++ set.references,
                ∃ item ∈ items.definitions ++ items.references,
                  Leads presentation config schedule store input after item.1 location) ∧
      ∀ rest contents,
        after.file? (store.destination (config.output.child referenceFolder) ++ rest) = some contents →
          (∃ value, NamedBySidecar presentation input value ∧
            store.destination (config.output.child referenceFolder) ++ rest =
              store.destination (config.output.child s!"_data/refs/{value}.json")) ∨
          (∃ document ∈ input.documents,
            store.destination (config.output.child referenceFolder) ++ rest =
              store.destination (config.output.child s!"{document.path}.html") ∨
            store.destination (config.output.child referenceFolder) ++ rest =
              store.destination (config.output.child s!"{document.path}.hover.json")) ∨
          store.lookup config.output = .error .notFound ∧
            store.file? (store.destination (config.output.child referenceFolder) ++ rest) =
              some contents := by
  obtain ⟨input, site, assets, loaded, rendered, published, _⟩ := build_eq_ok done
  have sound := sound_of_loadOn loaded
  refine ⟨input, loaded, fun document mem => ?_, fun rest contents there =>
    published.file?_references named sound rendered there⟩
  obtain ⟨occurrences, _, occurs, _⟩ := exists_page rendered mem
  have found := (SiteInput.occurrences_eq_outcome document).symm.trans occurs
  obtain ⟨held, sidecar, own⟩ :=
    published.exists_read sound rendered (SiteInput.Makes.sidecar mem occurs) rfl
  refine ⟨occurrences, held, occurs, sidecar, own, ?_, ?_⟩
  · intro occurrence listed id location defined
    obtain ⟨rangeId, _, gave⟩ := Query.outcome_of_mem_occurrences found listed
    obtain ⟨_, _, _, defines⟩ := (Query.found_of_occurrence gave).some_inv
    rw [defined] at defines
    obtain ⟨link, first, located⟩ := Locator.definitionOf?_eq_some defines
    exact ⟨link, first, published.leads sound rendered located⟩
  · intro key entry value listed refers
    obtain ⟨occurrence, inside, same⟩ := Sidecar.exists_of_mem_hovers listed
    cases same
    obtain ⟨id, isId, rfl⟩ := Option.map_eq_some_iff.mp refers
    obtain ⟨_, set, worked⟩ := (Query.occurrences_references_iff found id).mp ⟨occurrence, inside, isId⟩
    obtain ⟨items, collected, each⟩ := Locator.referenceSet?_eq_some worked
    obtain ⟨_, read, same⟩ := published.exists_read sound rendered
      (SiteInput.Makes.references mem occurs inside isId worked) rfl
    rw [same (published.stays_references named id)] at read
    refine ⟨id, set, rfl, worked, read, items, collected, ?_⟩
    intro location located
    obtain ⟨item, isItem, leads⟩ := each location located
    exact ⟨item, isItem, published.leads sound rendered leads⟩

/-! ### A dump with ranges that overlap -/

/-- A dump with two ranges that overlap. One leads to the other as its definition, and both have the
references of one result. -/
def overlapDump : List Char :=
  Page.ofLines [
    "\x7b\"id\":1,\"type\":\"vertex\",\"label\":\"metaData\",\"projectRoot\":\"file:///\"\x7d",
    "\x7b\"id\":2,\"type\":\"vertex\",\"label\":\"document\",\"uri\":\"file:///a\",\"languageId\":\"go\"\x7d",
    "\x7b\"id\":3,\"type\":\"vertex\",\"label\":\"range\",\"start\":[0,0],\"end\":[0,2]\x7d",
    "\x7b\"id\":4,\"type\":\"vertex\",\"label\":\"range\",\"start\":[0,1],\"end\":[0,3]\x7d",
    "\x7b\"id\":5,\"type\":\"vertex\",\"label\":\"definitionResult\"\x7d",
    "\x7b\"id\":6,\"type\":\"vertex\",\"label\":\"referenceResult\"\x7d",
    "\x7b\"id\":7,\"type\":\"edge\",\"label\":\"textDocument/definition\",\"outV\":4,\"inV\":5\x7d",
    "\x7b\"id\":8,\"type\":\"edge\",\"label\":\"item\",\"outV\":5,\"inVs\":[3],\"document\":2\x7d",
    "\x7b\"id\":9,\"type\":\"edge\",\"label\":\"textDocument/references\",\"outV\":4,\"inV\":6\x7d",
    "\x7b\"id\":10,\"type\":\"edge\",\"label\":\"textDocument/references\",\"outV\":3,\"inV\":6\x7d",
    "\x7b\"id\":11,\"type\":\"edge\",\"label\":\"item\",\"outV\":6,\"inVs\":[3,4],\"property\":\"definitions\"\x7d",
    "\x7b\"id\":12,\"type\":\"edge\",\"label\":\"contains\",\"outV\":2,\"inVs\":[3,4]\x7d"]

def overlapDisk : Store where
  nodes := .ofList [
    ([Text.bytesOf "d"], DiskNode.file (Text.encodeUtf8 overlapDump)),
    ([Text.bytesOf "a"], .file (Text.bytesOf "f<g"))]
  current := []

theorem overlapDisk_named : overlapDisk.Named := by
  intro place there
  have each : ∀ place ∈ overlapDisk.nodes.keys, ∀ step ∈ place,
      (DiskPath.isIdle step = false ∧ step ≠ DiskPath.above) ∧ DiskPath.slash ∉ step := by
    decide
  exact each place (Std.TreeMap.mem_keys.mpr there)

theorem read_overlapDisk :
    overlapDisk.read (usedConfig "out").input = .ok (Text.encodeUtf8 overlapDump) := rfl

theorem links_closed_overlapDisk : ∃ report after input,
    runOn (build .plain (usedConfig "out") [5, 4, 5, 4, 0]) overlapDisk = (.ok report, after) ∧
    report.referenceSets = 1 ∧
    loadOn (usedConfig "out") overlapDisk = .ok (input, report.skipped) ∧
    ∀ document ∈ input.documents, ∃ occurrences,
      input.occurrences .plain document = .ok occurrences ∧
      ∀ occurrence ∈ occurrences, ∀ id location, occurrence.definition = some (id, location) →
        ∃ link, input.locator.graph.firstLink? id .item = some link ∧
          Leads .plain (usedConfig "out") [5, 4, 5, 4, 0] overlapDisk input after link.edge.target
            location := by
  have drawn : (siteFrom .plain (usedConfig "out") [5, 4, 5, 4, 0] overlapDisk overlapDump).map
      (fun made => made.1.references.length) = some 1 := by
    unfold overlapDump
    repeat rw [Page.ofLines_cons]
    decide +kernel
  obtain ⟨⟨site, after⟩, made, one⟩ := Option.map_eq_some_iff.mp drawn
  obtain ⟨report, done, _, _, sets⟩ := exists_run_build rfl read_overlapDisk made
  obtain ⟨input, loaded, pages, _⟩ := links_closed overlapDisk_named done
  refine ⟨report, after, input, done, sets.trans one, loaded, fun document mem => ?_⟩
  obtain ⟨occurrences, _, occurs, _, _, leads, _⟩ := pages document mem
  exact ⟨occurrences, occurs, leads⟩

def strayDump : List Char :=
  Page.ofLines [
    "\x7b\"id\":1,\"type\":\"vertex\",\"label\":\"metaData\",\"projectRoot\":\"file:///\"\x7d",
    "\x7b\"id\":2,\"type\":\"vertex\",\"label\":\"document\",\"uri\":\"file:///_data/refs/a\"\x7d"]

/-- A disk with a document whose path leads to the folder of the reference sets. -/
def strayDisk : Store where
  nodes := .ofList [
    ([Text.bytesOf "d"], DiskNode.file (Text.encodeUtf8 strayDump)),
    ([Text.bytesOf "_data"], .folder),
    ([Text.bytesOf "_data", Text.bytesOf "refs"], .folder),
    ([Text.bytesOf "_data", Text.bytesOf "refs", Text.bytesOf "a"], .file (Text.bytesOf "t"))]
  current := []

/-- A page can stand among the reference files, and no sidecar names it: what sidecars name ends in
`.json`. -/
theorem page_among_references :
    ((runOn (build .plain (usedConfig "out") []) strayDisk).1.isOk = true ∧
      ((runOn (build .plain (usedConfig "out") []) strayDisk).2.file?
        (strayDisk.destination ((usedConfig "out").output.child referenceFolder) ++
          [Text.bytesOf "a.html"])).isSome = true) ∧
    ∀ id : ElementId, (SiteFile.references id).place ≠
      (DiskPath.ofString referenceFolder).steps ++ [Text.bytesOf "a.html"] := by
  have there : (siteFrom .plain (usedConfig "out") [] strayDisk strayDump).map (fun made =>
      (made.2.file? (strayDisk.destination ((usedConfig "out").output.child referenceFolder) ++
        [Text.bytesOf "a.html"])).isSome) = some true := by
    unfold strayDump
    repeat rw [Page.ofLines_cons]
    decide +kernel
  obtain ⟨⟨site, after⟩, made, page⟩ := Option.map_eq_some_iff.mp there
  obtain ⟨report, built, _⟩ := exists_run_build rfl rfl made
  rw [built]
  refine ⟨⟨rfl, page⟩, fun id same => ?_⟩
  have name : (SiteFile.references id).name = "_data/refs/a.html" :=
    DiskPath.ofString_steps_injective (same.trans (by decide))
  have ends := SiteFile.take_reverse_name (.references id)
  rw [name] at ends
  simp [SiteFile.ending] at ends

end Site

end CodeAtlas
