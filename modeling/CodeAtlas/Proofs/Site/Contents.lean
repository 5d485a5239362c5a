import CodeAtlas.Proofs.Dump.Stem
import CodeAtlas.Proofs.Site.Interleaving
import CodeAtlas.Proofs.Site.Loading
import CodeAtlas.Proofs.Symbol.Occurrences

/-!
# The files of a site

Which files a site has, what they are called and what each of them holds (`SiteInput.Makes`), as it
follows from the dump and the sources alone. Names tell files apart, but for the page of a document with
the path `index`.
-/

namespace CodeAtlas

/-! ### Folders -/

namespace Site

theorem isPlain_assetFolder : PagePath.IsPlain Page.assetFolder.toList := by decide

theorem isPlain_referenceFolder : PagePath.IsPlain referenceFolder.toList := by decide

theorem steps_assetFolder : (DiskPath.ofString Page.assetFolder).steps = [Text.bytesOf "_dist"] := by
  decide

theorem steps_referenceFolder :
    (DiskPath.ofString referenceFolder).steps = [Text.bytesOf "_data", Text.bytesOf "refs"] := by
  decide

theorem not_assets_below_references (rest : Place) :
    ¬ (DiskPath.ofString Page.assetFolder).steps <+: (DiskPath.ofString referenceFolder).steps ++ rest := by
  rw [steps_assetFolder, steps_referenceFolder, List.cons_append, List.cons_prefix_cons]
  intro below
  exact absurd below.1 (by decide)

end Site

/-! ### Names -/

/-- A file of a site with its own assets. -/
inductive SiteFile where
  | welcome
  | marker
  | script
  | style
  | page (path : String)
  | sidecar (path : String)
  | references (id : ElementId)
  deriving DecidableEq, Repr

namespace SiteFile

def name : SiteFile → String
  | .welcome => "index.html"
  | .marker => ".nojekyll"
  | .script => "_dist/main.js"
  | .style => "_dist/style.css"
  | .page path => s!"{path}.html"
  | .sidecar path => s!"{path}.hover.json"
  | .references id => s!"_data/refs/{id.fileStem}.json"

/-- Whether the file is made for a document or a reference result. -/
def isDrawn : SiteFile → Bool
  | .page _ | .sidecar _ | .references _ => true
  | _ => false

def place (file : SiteFile) : Place :=
  (DiskPath.ofString file.name).steps

theorem toList_name_page (path : String) :
    (page path).name.toList = path.toList ++ ".html".toList := by
  simp [name, ToString.toString]

theorem toList_name_sidecar (path : String) :
    (sidecar path).name.toList = path.toList ++ ".hover.json".toList := by
  simp [name, ToString.toString]

theorem toList_name_references (id : ElementId) :
    (references id).name.toList =
      "_data/refs".toList ++ '/' :: (id.fileStem.toList ++ ".json".toList) := by
  simp [name, ToString.toString]

/-- The last five characters of a name, last first. -/
def ending : SiteFile → List Char
  | .welcome | .page _ => ['l', 'm', 't', 'h', '.']
  | .marker => ['l', 'l', 'y', 'k', 'e']
  | .script => ['s', 'j', '.', 'n', 'i']
  | .style => ['s', 's', 'c', '.', 'e']
  | .sidecar _ | .references _ => ['n', 'o', 's', 'j', '.']

theorem take_reverse_name (file : SiteFile) : file.name.toList.reverse.take 5 = file.ending := by
  cases file with
  | welcome | marker | script | style => simp [name, ending]
  | page path => simp [toList_name_page, ending]
  | sidecar path => simp [toList_name_sidecar, ending]
  | references id => simp [toList_name_references, ending]

theorem not_mem_fileStem {c : Char} (other : ElementId.isStemChar c = false) (id : ElementId) :
    c ∉ id.fileStem.toList := by
  intro mem
  rw [ElementId.isStemChar_of_mem_fileStem mem] at other
  cases other

/-- A name with a dot before its ending is not one without. -/
theorem append_hover_ne {front stem : List Char} (dotless : '.' ∉ stem) :
    front ++ ".hover.json".toList ≠ stem ++ ".json".toList := by
  intro same
  rw [show ".hover.json".toList = ".hover".toList ++ ".json".toList by simp, ← List.append_assoc] at same
  have stems := List.append_cancel_right same
  have dot : '.' ∈ front ++ ".hover".toList := by simp
  rw [stems] at dot
  exact dotless dot

theorem name_sidecar_ne_references (path : String) (id : ElementId) :
    (sidecar path).name ≠ (references id).name := by
  intro same
  have texts := congrArg String.toList same
  rw [toList_name_sidecar, toList_name_references, ← List.cons_append, ← List.append_assoc] at texts
  refine append_hover_ne ?_ texts
  simp [not_mem_fileStem (c := '.') (by decide) id]

/-- Names tell files apart, but for the page to start from and that of a document called `index`. -/
theorem eq_of_name_eq {first second : SiteFile} (same : first.name = second.name) :
    first = second ∨ first = .welcome ∧ second = .page "index" ∨
      first = .page "index" ∧ second = .welcome := by
  have ends : first.ending = second.ending := by
    rw [← take_reverse_name, ← take_reverse_name, same]
  have texts := congrArg String.toList same
  have start : welcome.name.toList = "index".toList ++ ".html".toList := by simp [name]
  cases first <;> cases second <;> try first | exact .inl rfl | simp [ending] at ends
  case welcome.page path =>
    rw [toList_name_page, start] at texts
    exact .inr (.inl ⟨rfl, congrArg page
      (String.toList_injective (List.append_cancel_right texts)).symm⟩)
  case page.welcome path =>
    rw [toList_name_page, start] at texts
    exact .inr (.inr ⟨congrArg page (String.toList_injective (List.append_cancel_right texts)), rfl⟩)
  case page.page path other =>
    rw [toList_name_page, toList_name_page] at texts
    exact .inl (congrArg page (String.toList_injective (List.append_cancel_right texts)))
  case sidecar.sidecar path other =>
    rw [toList_name_sidecar, toList_name_sidecar] at texts
    exact .inl (congrArg sidecar (String.toList_injective (List.append_cancel_right texts)))
  case sidecar.references path id => exact absurd same (name_sidecar_ne_references path id)
  case references.sidecar id path => exact absurd same.symm (name_sidecar_ne_references path id)
  case references.references id other =>
    rw [toList_name_references, toList_name_references] at texts
    have stems := List.append_cancel_right (List.cons.inj (List.append_cancel_left texts)).2
    exact .inl (congrArg references (ElementId.fileStem_injective (String.toList_injective stems)))

theorem isPlain_fileStem (id : ElementId) :
    PagePath.IsPlain (id.fileStem.toList ++ ".json".toList) := by
  refine PagePath.isPlain_of_isPlainName ?_ ((PagePath.isPlainName_iff _).mpr ?_)
  · simp [not_mem_fileStem (c := '/') (by decide) id]
  · have long : ∀ short : List Char, short.length < 5 →
        id.fileStem.toList ++ ".json".toList ≠ short := by
      intro short bound same
      rw [← same, List.length_append] at bound
      exact absurd bound (by simp)
    exact ⟨long _ (by decide), long _ (by decide), long _ (by decide),
      by simp [not_mem_fileStem (c := '\\') (by decide) id],
      by simp [not_mem_fileStem (c := '\x00') (by decide) id]⟩

/-- The path of a page or a sidecar is a plain name. -/
def Contained : SiteFile → Prop
  | .page path | .sidecar path => PagePath.IsPlain path.toList
  | _ => True

theorem Contained.isPlain_name {file : SiteFile} (contained : file.Contained) :
    PagePath.IsPlain file.name.toList := by
  cases file with
  | welcome | marker | script | style => decide
  | page path =>
    rw [toList_name_page]
    exact PagePath.IsPlain.append contained (by decide) (by decide) (by decide) (by decide)
  | sidecar path =>
    rw [toList_name_sidecar]
    exact PagePath.IsPlain.append contained (by decide) (by decide) (by decide) (by decide)
  | references id =>
    rw [toList_name_references]
    exact PagePath.IsPlain.append_slash Site.isPlain_referenceFolder (isPlain_fileStem id)

theorem place_references (id : ElementId) :
    (references id).place =
      (DiskPath.ofString Site.referenceFolder).steps ++ [Text.bytesOf s!"{id.fileStem}.json"] := by
  have flat : '/' ∉ id.fileStem.toList ++ ".json".toList := by
    simp [not_mem_fileStem (c := '/') (by decide) id]
  rw [place, DiskPath.steps_ofString, DiskPath.steps_ofString, toList_name_references,
    List.splitOn_append_cons_self, List.splitOn_eq_singleton flat, List.map_append]
  simp [Text.bytesOf_eq_encodeUtf8, ToString.toString, Site.referenceFolder]

theorem eq_of_place_eq {first second : SiteFile} (same : first.place = second.place) :
    first = second ∨ first = .welcome ∧ second = .page "index" ∨
      first = .page "index" ∧ second = .welcome :=
  eq_of_name_eq (DiskPath.ofString_steps_injective same)

end SiteFile

/-! ### Contents -/

namespace SiteInput

variable (input : SiteInput) (presentation : Presentation)

/-- The occurrences in a document, worked out from the dump alone. -/
def occurrences (document : PlannedDocument) : Except SiteFault (List Occurrence) :=
  ((Query.occurrences input.locator presentation.markdown document.id).run .empty).1

def page (document : PlannedDocument) (occurrences : List Occurrence) : Except SiteFault RenderedPage := do
  let source ← input.sourceOf document
  let highlighted ← (presentation.source source.text document.languageId).mapError SiteFault.highlight
  return Site.page input.nav document source highlighted occurrences

/-- The files of a site with its own assets, and what they hold. -/
inductive Makes : SiteFile → List UInt8 → Prop where
  | welcome : Makes .welcome (Text.encodeUtf8 (Page.welcome (NavNode.render input.nav none)))
  | marker : Makes .marker []
  | script : Makes .script (Text.encodeUtf8 (Page.ofLines Page.scriptLines))
  | style : Makes .style (Text.encodeUtf8 (Page.ofLines Page.styleLines))
  | page {document : PlannedDocument} {occurrences : List Occurrence} {page : RenderedPage} :
      document ∈ input.documents → input.occurrences presentation document = .ok occurrences →
      input.page presentation document occurrences = .ok page →
      Makes (.page document.path) (Text.encodeUtf8 page.html)
  | sidecar {document : PlannedDocument} {occurrences : List Occurrence} :
      document ∈ input.documents → input.occurrences presentation document = .ok occurrences →
      Makes (.sidecar document.path)
        (Text.encodeUtf8 (Sidecar.ofOccurrences occurrences).toJson.write)
  | references {document : PlannedDocument} {occurrences : List Occurrence}
      {occurrence : Occurrence} {id : ElementId} {set : ReferenceSet} :
      document ∈ input.documents → input.occurrences presentation document = .ok occurrences →
      occurrence ∈ occurrences → occurrence.references = some id →
      input.locator.referenceSet? id = .ok (some set) →
      Makes (.references id) (Text.encodeUtf8 set.toJson.write)

variable {input presentation}

theorem Sound.eq_of_path (sound : input.Sound) {document other : PlannedDocument}
    (mem : document ∈ input.documents) (memOther : other ∈ input.documents)
    (same : document.path = other.path) : document = other :=
  List.inj_on_of_nodup_map sound.once mem memOther same

theorem Makes.of_page {path : String} {contents : List UInt8}
    (made : input.Makes presentation (.page path) contents) :
    ∃ document ∈ input.documents, document.path = path ∧
      ∃ occurrences page, input.occurrences presentation document = .ok occurrences ∧
        input.page presentation document occurrences = .ok page ∧
        contents = Text.encodeUtf8 page.html := by
  generalize named : SiteFile.page path = file at made
  cases made with
  | page mem occurs drawn => exact ⟨_, mem, (SiteFile.page.inj named).symm, _, _, occurs, drawn, rfl⟩
  | _ => cases named

theorem Makes.of_sidecar {path : String} {contents : List UInt8}
    (made : input.Makes presentation (.sidecar path) contents) :
    ∃ document ∈ input.documents, document.path = path ∧
      ∃ occurrences, input.occurrences presentation document = .ok occurrences ∧
        contents = Text.encodeUtf8 (Sidecar.ofOccurrences occurrences).toJson.write := by
  generalize named : SiteFile.sidecar path = file at made
  cases made with
  | sidecar mem occurs => exact ⟨_, mem, (SiteFile.sidecar.inj named).symm, _, occurs, rfl⟩
  | _ => cases named

theorem Makes.unique (sound : input.Sound) {file : SiteFile} {contents other : List UInt8}
    (first : input.Makes presentation file contents) (second : input.Makes presentation file other) :
    contents = other := by
  cases first with
  | welcome | marker | script | style =>
    cases second
    rfl
  | page mem occurs drawn =>
    obtain ⟨document, memOther, same, occurrences, page, occursOther, drawnOther, rfl⟩ := second.of_page
    obtain rfl := sound.eq_of_path memOther mem same
    cases occurs.symm.trans occursOther
    cases drawn.symm.trans drawnOther
    rfl
  | sidecar mem occurs =>
    obtain ⟨document, memOther, same, occurrences, occursOther, rfl⟩ := second.of_sidecar
    obtain rfl := sound.eq_of_path memOther mem same
    cases occurs.symm.trans occursOther
    rfl
  | references _ _ _ _ set =>
    cases second with
    | references _ _ _ _ setOther =>
      cases set.symm.trans setOther
      rfl

theorem Makes.contained (sound : input.Sound) {file : SiteFile} {contents : List UInt8}
    (made : input.Makes presentation file contents) : file.Contained := by
  have plain : ∀ document ∈ input.documents, PagePath.IsPlain document.path.toList := by
    intro document mem
    obtain ⟨entry, _, mapped⟩ := (sound.mapped document.path).mp (List.mem_map_of_mem mem)
    exact PagePath.isPlain_of_isContained (PageMap.isContained_of_path? mapped)
  cases made with
  | welcome | marker | script | style => trivial
  | page mem _ _ => exact plain _ mem
  | sidecar mem _ => exact plain _ mem
  | references _ _ _ _ _ => trivial

/-! ### Pages -/

theorem page_eq_ok_iff {document : PlannedDocument} {occurrences : List Occurrence} {page : RenderedPage} :
    input.page presentation document occurrences = .ok page ↔
      ∃ source highlighted, input.sourceOf document = .ok source ∧
        presentation.source source.text document.languageId = .ok highlighted ∧
        page = Site.page input.nav document source highlighted occurrences := by
  unfold SiteInput.page
  constructor
  · intro drawn
    obtain ⟨source, loaded, drawn⟩ := ok_of_bind_eq_ok drawn
    obtain ⟨highlighted, shown, same⟩ := ok_of_bind_eq_ok drawn
    exact ⟨source, highlighted, loaded, mapError_eq_ok_iff.mp shown, (Except.ok.inj same).symm⟩
  · rintro ⟨source, highlighted, loaded, shown, rfl⟩
    rw [loaded]
    simp only [bind, Except.bind, shown]
    rfl

theorem path_of_page {document : PlannedDocument} {occurrences : List Occurrence} {page : RenderedPage}
    (drawn : input.page presentation document occurrences = .ok page) : page.path = document.path := by
  obtain ⟨_, _, _, _, rfl⟩ := page_eq_ok_iff.mp drawn
  rfl

theorem sidecar_of_page {document : PlannedDocument} {occurrences : List Occurrence} {page : RenderedPage}
    (drawn : input.page presentation document occurrences = .ok page) :
    page.sidecar = (Sidecar.ofOccurrences occurrences).toJson.write := by
  obtain ⟨_, _, _, _, rfl⟩ := page_eq_ok_iff.mp drawn
  rfl

theorem occurrences_eq_outcome (document : PlannedDocument) :
    input.occurrences presentation document =
      (Query.occurrences input.locator presentation.markdown document.id).outcome
        (input.locator.answer presentation.markdown) :=
  (Query.run_faithful (Query.occurrences_faithful _ _ document.id) Answers.empty_right).1

end SiteInput

namespace Site

variable {presentation : Presentation} {input : SiteInput} {site : Site}

theorem outcome_renderPage_iff {document : PlannedDocument} {page : RenderedPage} :
    (renderPage presentation input document).outcome (input.locator.answer presentation.markdown) =
        .ok page ↔
      ∃ occurrences, input.occurrences presentation document = .ok occurrences ∧
        input.page presentation document occurrences = .ok page := by
  unfold renderPage
  simp only [Query.liftExcept_eq, Query.lift_highlight_eq, Query.outcome_bind,
    SiteInput.occurrences_eq_outcome, SiteInput.page_eq_ok_iff]
  constructor
  · intro drawn
    obtain ⟨source, loaded, drawn⟩ := ok_of_bind_eq_ok drawn
    obtain ⟨occurrences, occurs, drawn⟩ := ok_of_bind_eq_ok drawn
    obtain ⟨highlighted, shown, same⟩ := ok_of_bind_eq_ok drawn
    exact ⟨occurrences, occurs, source, highlighted, loaded, mapError_eq_ok_iff.mp shown,
      (Except.ok.inj same).symm⟩
  · rintro ⟨occurrences, occurs, source, highlighted, loaded, shown, rfl⟩
    simp only [Query.outcome, loaded, occurs, shown, bind, Except.bind]
    rfl

theorem asked_renderPage {document : PlannedDocument} {page : RenderedPage}
    (drawn : (renderPage presentation input document).outcome
      (input.locator.answer presentation.markdown) = .ok page) :
    (renderPage presentation input document).asked (input.locator.answer presentation.markdown) =
      (Query.occurrences input.locator presentation.markdown document.id).asked
        (input.locator.answer presentation.markdown) := by
  unfold renderPage at drawn ⊢
  simp only [Query.liftExcept_eq, Query.lift_highlight_eq, Query.outcome_bind] at drawn ⊢
  obtain ⟨source, loaded, drawn⟩ := ok_of_bind_eq_ok drawn
  obtain ⟨occurrences, occurs, drawn⟩ := ok_of_bind_eq_ok drawn
  obtain ⟨highlighted, shown, _⟩ := ok_of_bind_eq_ok drawn
  rw [Query.asked_bind_of_ok loaded, Query.asked_bind_of_ok occurs, Query.asked_bind_of_ok shown,
    Query.asked_pure]
  simp [Query.asked]

/-- A site in its parts: the page to start from, a page for each document, and the sets of the reference
results that occurrences name. -/
theorem render_spec (rendered : render presentation input = .ok site) :
    site.welcome = Page.welcome (NavNode.render input.nav none) ∧
    (input.documents.mapM fun document => (renderPage presentation input document).outcome
      (input.locator.answer presentation.markdown)) = .ok site.pages ∧
    ∀ id json, (id, json) ∈ site.references ↔
      ∃ set, input.locator.referenceSet? id = .ok (some set) ∧ json = set.toJson.write ∧
        ∃ document ∈ input.documents, ∃ occurrences,
          input.occurrences presentation document = .ok occurrences ∧
          ∃ occurrence ∈ occurrences, occurrence.references = some id := by
  let scratch := input.locator.answer presentation.markdown
  let query := input.documents.mapM (renderPage presentation input)
  have faithful : query.Faithful scratch := .mapM (renderPage_faithful presentation input) _
  obtain ⟨outcome, _, kept⟩ := Query.run_faithful faithful Answers.empty_right
  obtain ⟨pages, made, same⟩ := map_eq_ok_iff.mp
    (show ((query.run .empty).1.map fun pages => assemble input.nav pages (query.run .empty).2) = _
      from rendered)
  rw [outcome, Query.outcome_mapM] at made
  subst same
  refine ⟨rfl, made, fun id json => ?_⟩
  have answers : ∀ set, (id, set) ∈ (query.run .empty).2.referenceSets ↔
      Question.references id ∈ query.asked scratch ∧
        input.locator.referenceSet? id = .ok (some set) := by
    intro set
    have answer : scratch (.references id) = .ok (some set) ↔
        input.locator.referenceSet? id = .ok (some set) := mapError_eq_ok_iff
    rw [Answers.mem_referenceSets_iff, kept, Answers.kept?_empty, answer]
    simp only [reduceCtorEq, false_or]
  have asks : ∀ set, input.locator.referenceSet? id = .ok (some set) →
      (Question.references id ∈ query.asked scratch ↔ ∃ document ∈ input.documents, ∃ occurrences,
        input.occurrences presentation document = .ok occurrences ∧
          ∃ occurrence ∈ occurrences, occurrence.references = some id) := by
    intro set worked
    rw [Query.asked_mapM_of_ok made, List.mem_flatMap]
    refine exists_congr fun document => and_congr_right fun mem => ?_
    obtain ⟨page, _, drawn⟩ := List.mem_map.mp ((mapM_eq_ok_iff _ _ _).mp made ▸ List.mem_map_of_mem mem)
    obtain ⟨occurrences, occurs, _⟩ := outcome_renderPage_iff.mp drawn.symm
    have found := (SiteInput.occurrences_eq_outcome document).symm.trans occurs
    rw [asked_renderPage drawn.symm]
    constructor
    · intro asked
      exact ⟨occurrences, occurs, (Query.occurrences_references_iff found id).mpr ⟨asked, set, worked⟩⟩
    · rintro ⟨others, occursOther, named⟩
      cases occurs.symm.trans occursOther
      exact ((Query.occurrences_references_iff found id).mp named).1
  simp only [assemble, List.mem_map, Prod.mk.injEq, Prod.exists]
  constructor
  · rintro ⟨_, set, mem, rfl, rfl⟩
    obtain ⟨asked, worked⟩ := (answers set).mp mem
    exact ⟨set, worked, rfl, (asks set worked).mp asked⟩
  · rintro ⟨set, worked, rfl, named⟩
    exact ⟨id, set, (answers set).mpr ⟨(asks set worked).mpr named, worked⟩, rfl, rfl⟩

/-! ### Files -/

def entryFile (output : DiskPath) (entry : SiteFile × List UInt8) : OutputFile :=
  ⟨output.child entry.1.name, entry.2⟩

def firstEntries (site : Site) : List (SiteFile × List UInt8) :=
  [(.welcome, Text.encodeUtf8 site.welcome), (.marker, [])]

def assetEntries : List (SiteFile × List UInt8) :=
  [(.script, Text.encodeUtf8 (Page.ofLines Page.scriptLines)),
    (.style, Text.encodeUtf8 (Page.ofLines Page.styleLines))]

def lastEntries (site : Site) : List (SiteFile × List UInt8) :=
  (site.pages.flatMap fun page => [(.sidecar page.path, Text.encodeUtf8 page.sidecar),
    (.page page.path, Text.encodeUtf8 page.html)]) ++
    site.references.map fun (id, json) => (.references id, Text.encodeUtf8 json)

theorem ownAssets_eq (output : DiskPath) : ownAssets output = assetEntries.map (entryFile output) := by
  simp only [ownAssets, Page.assets, List.map_cons, List.map_nil, textFile,
    DiskPath.child_child output isPlain_assetFolder (show PagePath.IsPlain "main.js".toList by decide),
    DiskPath.child_child output isPlain_assetFolder (show PagePath.IsPlain "style.css".toList by decide)]
  rfl

theorem referenceFile_eq (output : DiskPath) (id : ElementId) (json : List Char) :
    referenceFile output id json = entryFile output (.references id, Text.encodeUtf8 json) := by
  have stem : PagePath.IsPlain s!"{id.fileStem}.json".toList := by
    simpa [ToString.toString] using SiteFile.isPlain_fileStem id
  rw [referenceFile, DiskPath.child_child output isPlain_referenceFolder stem]
  refine congrArg (fun name => textFile (output.child name) json) (String.toList_injective ?_)
  simp [SiteFile.toList_name_references, referenceFolder, ToString.toString]

theorem files_eq (site : Site) (output : DiskPath) (assets : List OutputFile) :
    site.files output assets =
      site.firstEntries.map (entryFile output) ++ assets ++
        site.lastEntries.map (entryFile output) := by
  simp only [files, referenceFile_eq, firstEntries, lastEntries, List.map_append, List.map_flatMap,
    List.map_map, List.append_assoc]
  rfl

theorem exists_page (rendered : render presentation input = .ok site)
    {document : PlannedDocument} (mem : document ∈ input.documents) :
    ∃ occurrences page, input.occurrences presentation document = .ok occurrences ∧
      input.page presentation document occurrences = .ok page := by
  obtain ⟨page, _, drawn⟩ := List.mem_map.mp
    ((mapM_eq_ok_iff _ _ _).mp (render_spec rendered).2.1 ▸ List.mem_map_of_mem mem)
  obtain ⟨occurrences, occurs, drawn⟩ := outcome_renderPage_iff.mp drawn.symm
  exact ⟨occurrences, page, occurs, drawn⟩

theorem mem_pages_iff (rendered : render presentation input = .ok site) (page : RenderedPage) :
    page ∈ site.pages ↔ ∃ document ∈ input.documents, ∃ occurrences,
      input.occurrences presentation document = .ok occurrences ∧
        input.page presentation document occurrences = .ok page := by
  rw [mem_of_mapM_eq_ok (render_spec rendered).2.1]
  simp only [outcome_renderPage_iff]

theorem mem_lastEntries_iff (site : Site) (file : SiteFile) (contents : List UInt8) :
    (file, contents) ∈ site.lastEntries ↔
      (∃ page ∈ site.pages,
        file = .sidecar page.path ∧ contents = Text.encodeUtf8 page.sidecar ∨
        file = .page page.path ∧ contents = Text.encodeUtf8 page.html) ∨
      ∃ id json, (id, json) ∈ site.references ∧ file = .references id ∧
        contents = Text.encodeUtf8 json := by
  simp only [lastEntries, List.mem_append, List.mem_flatMap, List.mem_map, List.mem_cons,
    List.not_mem_nil, or_false, Prod.mk.injEq, Prod.exists, @eq_comm _ file, @eq_comm _ contents]

/-- The files of a site are those that follow from the dump and the sources. -/
theorem makes_iff (rendered : render presentation input = .ok site) (file : SiteFile)
    (contents : List UInt8) :
    input.Makes presentation file contents ↔
      (file, contents) ∈ site.firstEntries ∨ (file, contents) ∈ assetEntries ∨
        (file, contents) ∈ site.lastEntries := by
  obtain ⟨welcome, _, references⟩ := render_spec rendered
  have pages := mem_pages_iff rendered
  constructor
  · intro made
    cases made with
    | welcome => simp [firstEntries, welcome]
    | marker => simp [firstEntries]
    | script => simp [assetEntries]
    | style => simp [assetEntries]
    | @page document occurrences page mem occurs drawn =>
      have listed := (pages page).mpr ⟨document, mem, occurrences, occurs, drawn⟩
      rw [← SiteInput.path_of_page drawn]
      exact .inr (.inr ((mem_lastEntries_iff _ _ _).mpr (.inl ⟨_, listed, .inr ⟨rfl, rfl⟩⟩)))
    | @sidecar document occurrences mem occurs =>
      obtain ⟨others, page, occursOther, drawn⟩ := exists_page rendered mem
      cases occurs.symm.trans occursOther
      have listed := (pages page).mpr ⟨document, mem, occurrences, occurs, drawn⟩
      rw [← SiteInput.path_of_page drawn, ← SiteInput.sidecar_of_page drawn]
      exact .inr (.inr ((mem_lastEntries_iff _ _ _).mpr (.inl ⟨_, listed, .inl ⟨rfl, rfl⟩⟩)))
    | @references document occurrences occurrence id set mem occurs listed named worked =>
      have kept := (references id set.toJson.write).mpr
        ⟨set, worked, rfl, document, mem, occurrences, occurs, occurrence, listed, named⟩
      exact .inr (.inr ((mem_lastEntries_iff _ _ _).mpr (.inr ⟨_, _, kept, rfl, rfl⟩)))
  · rintro (first | own | last)
    · simp only [firstEntries, List.mem_cons, Prod.mk.injEq, List.not_mem_nil, or_false] at first
      rcases first with ⟨rfl, rfl⟩ | ⟨rfl, rfl⟩
      · rw [welcome]
        exact .welcome
      · exact .marker
    · simp only [assetEntries, List.mem_cons, Prod.mk.injEq, List.not_mem_nil, or_false] at own
      rcases own with ⟨rfl, rfl⟩ | ⟨rfl, rfl⟩
      · exact .script
      · exact .style
    · rcases (mem_lastEntries_iff _ _ _).mp last with ⟨page, mem, drawn⟩ | ⟨id, json, mem, rfl, rfl⟩
      · obtain ⟨document, planned, occurrences, occurs, made⟩ := (pages page).mp mem
        rcases drawn with ⟨rfl, rfl⟩ | ⟨rfl, rfl⟩
        · rw [SiteInput.path_of_page made, SiteInput.sidecar_of_page made]
          exact .sidecar planned occurs
        · rw [SiteInput.path_of_page made]
          exact .page planned occurs made
      · obtain ⟨set, worked, rfl, document, planned, occurrences, occurs, occurrence, listed, named⟩ :=
          (references id json).mp mem
        exact .references planned occurs listed named worked

end Site

end CodeAtlas
