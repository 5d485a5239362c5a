import CodeAtlas.Proofs.Page.Tags
import CodeAtlas.Proofs.Site.Checking

/-!
# No markup from outside

What a dump and its sources say can put no tag and no attribute into a page (`page_tags_exact`), with one
exception: the id of a range stands in its marker as it is, so an id with a quote ends the attribute it
should be in.
-/

namespace CodeAtlas

open Markup

/-! ### Markers -/

namespace Occurrence

/-- The tag that the marker before a range is meant to be. -/
def markerStart (id : ElementId) : Tag Char :=
  .opening "span".toList [⟨"id".toList, some ("lsif".toList ++ id.name.toList)⟩]

def markerTags (occurrence : Occurrence) : List (Tag Char) :=
  [markerStart occurrence.rangeId, .closing "span".toList]

end Occurrence

namespace Markup.Decoder

variable {decoder : Decoder}

/-- The id can stand in an attribute as it is: it has no quote, and nothing in it is decoded. -/
def Spells (decoder : Decoder) (id : ElementId) : Prop :=
  '"' ∉ id.name.toList ∧
    decoder.decode ("lsif".toList ++ id.name.toList) = "lsif".toList ++ id.name.toList

theorem spells_of_isUnescaped {id : ElementId} (plain : isUnescaped id.name.toList = true) :
    decoder.Spells id := by
  have same : escape ("lsif".toList ++ id.name.toList) = "lsif".toList ++ id.name.toList := by
    rw [escape_append, escape_of_isUnescaped plain, escape_of_isUnescaped (by decide)]
  refine ⟨fun mem => ?_, ?_⟩
  · rw [← escape_of_isUnescaped plain] at mem
    exact Nesting.quote_notMem_escape _ mem
  · nth_rewrite 1 [← same]
    exact decoder.decode_escape _

theorem openMarker_eq (rangeId : ElementId) :
    Occurrence.openMarker rangeId = '<' :: ((Occurrence.markerStart rangeId).written id ++ ['>']) := by
  unfold Occurrence.openMarker Occurrence.markerStart
  generalize rangeId.name.toList = text
  simp [Tag.written, Attribute.written]

theorem tags?_openMarker_of_notMem {rangeId : ElementId} (free : '"' ∉ rangeId.name.toList) :
    Markup.tags? (Occurrence.openMarker rangeId) = some [Occurrence.markerStart rangeId] := by
  have plain : (Occurrence.markerStart rangeId).isPlain = true := rfl
  have values : ∀ value ∈ (Occurrence.markerStart rangeId).values, '"' ∉ value := by
    intro value mem
    obtain rfl := List.mem_singleton.mp mem
    rw [List.mem_append]
    exact not_or.mpr ⟨by decide, free⟩
  rw [openMarker_eq, Markup.tags?_tag (Tag.isTag_written plain values), Tag.read_written plain values]

/-- A marker is the tag it is meant to be just if its id can stand in an attribute as it is. -/
theorem tags?_openMarker_iff (rangeId : ElementId) :
    decoder.tags? (Occurrence.openMarker rangeId) = some [Occurrence.markerStart rangeId] ↔
      decoder.Spells rangeId := by
  by_cases quote : '"' ∈ rangeId.name.toList
  · refine iff_of_false (fun read => ?_) fun spells => spells.1 quote
    -- The attribute ends at the first quote, and its value is too short.
    obtain ⟨before, after, name, free⟩ := List.eq_append_cons_of_mem quote
    have value : '"' ∉ "lsif".toList ++ before := by
      rw [List.mem_append]
      exact not_or.mpr ⟨by decide, free⟩
    have text : Occurrence.openMarker rangeId = '<' :: ("span".toList ++ ' ' :: ("id".toList ++
        '=' :: '"' :: ("lsif".toList ++ before ++ '"' :: (after ++ ['"', '>'])))) := by
      unfold Occurrence.openMarker
      rw [name]
      simp
    obtain ⟨raw, found, same⟩ := Option.map_eq_some_iff.mp read
    rw [text] at found
    obtain ⟨others, first⟩ := head?_of_tags? (by decide) (by decide) value found
    obtain ⟨rest, rfl⟩ := List.head?_eq_some_iff.mp first
    have heads := congrArg List.head? same
    simp only [List.map_cons, List.head?_cons, Option.some.injEq, Occurrence.markerStart, Tag.mapValues,
      Tag.opening.injEq, List.cons.injEq, Attribute.mapValue, Attribute.mk.injEq, Option.map_some] at heads
    have short := decoder.length_decode_le ("lsif".toList ++ before)
    rw [heads.2.1.2, name] at short
    simp only [List.length_append, List.length_cons] at short
    omega
  · rw [tags?, tags?_openMarker_of_notMem quote]
    simp [Spells, quote, Occurrence.markerStart, Tag.mapValues, Attribute.mapValue]

end Markup.Decoder

/-! ### Woven source -/

def TokenClass.start (tokenClass : TokenClass) : Tag Char :=
  .opening "span".toList [⟨"class".toList, some tokenClass.style.toList⟩]

def TokenClass.tags (tokenClass : TokenClass) : List (Tag Char) :=
  [tokenClass.start, .closing "span".toList]

namespace Markup

variable {decoder : Decoder}

theorem tags?_closing : decoder.tags? Token.closing = some [.closing "span".toList] := by
  have text : Token.closing = (Tag.closing "span".toList).markup := by decide
  rw [text]
  exact Decoder.tags?_markup rfl

theorem tags?_opening (tokenClass : TokenClass) :
    decoder.tags? (Token.opening tokenClass) = some [tokenClass.start] := by
  have text : Token.opening tokenClass = tokenClass.start.markup := by
    cases tokenClass <;> decide
  rw [text]
  exact Decoder.tags?_markup rfl

theorem tags?_escapedUnit (c : Char) : decoder.tags? (escapedUnit c).text = some [] := by
  rw [text_escapedUnit, ← escape_singleton]
  exact Decoder.tags?_escape [c]

/-- The units of a run are finished, and have the tags of its token between them. -/
theorem tagsOf_units (run : Token.Run) :
    (∀ unit ∈ run.units, decoder.tags? unit.text = some (decoder.tagsOf unit.text)) ∧
    run.units.flatMap (fun unit => decoder.tagsOf unit.text) =
      run.tokenClass.toList.flatMap TokenClass.tags := by
  have escaped : ∀ unit ∈ run.text.map escapedUnit, decoder.tags? unit.text = some [] := by
    intro unit mem
    obtain ⟨c, _, rfl⟩ := List.mem_map.mp mem
    exact tags?_escapedUnit c
  have none : (run.text.map escapedUnit).flatMap (fun unit => decoder.tagsOf unit.text) = [] :=
    List.flatMap_eq_nil_iff.mpr fun unit mem => Decoder.tagsOf_eq (escaped unit mem)
  obtain ⟨tokenClass, text⟩ := run
  cases tokenClass with
  | none => exact ⟨fun unit mem => Decoder.tags?_eq_tagsOf (escaped unit mem), none⟩
  | some tokenClass =>
    constructor
    · intro unit mem
      rcases List.mem_cons.mp mem with rfl | mem
      · exact Decoder.tags?_eq_tagsOf (tags?_opening tokenClass)
      · rcases List.mem_append.mp mem with mem | last
        · exact Decoder.tags?_eq_tagsOf (escaped unit mem)
        · rw [List.mem_singleton.mp last]
          exact Decoder.tags?_eq_tagsOf tags?_closing
    · rw [Token.Run.units, List.flatMap_cons, List.flatMap_append, none, List.flatMap_singleton]
      simp only [Piece.text, Decoder.tagsOf_eq (tags?_opening tokenClass), Decoder.tagsOf_eq tags?_closing]
      rfl

theorem tagsOf_markers {occurrences : List Occurrence}
    (spells : ∀ occurrence ∈ occurrences, decoder.Spells occurrence.rangeId) :
    (∀ marker ∈ markersOf occurrences, decoder.tags? marker.text = some (decoder.tagsOf marker.text)) ∧
    (markersOf occurrences).flatMap (fun marker => decoder.tagsOf marker.text) =
      occurrences.flatMap Occurrence.markerTags := by
  have start : ∀ occurrence ∈ occurrences, decoder.tags? (Occurrence.openMarker occurrence.rangeId) =
      some [Occurrence.markerStart occurrence.rangeId] :=
    fun occurrence mem => (Decoder.tags?_openMarker_iff _).mpr (spells occurrence mem)
  have stop : decoder.tags? Occurrence.closeMarker = some [.closing "span".toList] := tags?_closing
  constructor
  · intro marker mem
    obtain ⟨occurrence, listed, inside⟩ := List.mem_flatMap.mp mem
    rcases List.mem_cons.mp inside with rfl | last
    · exact Decoder.tags?_eq_tagsOf (start occurrence listed)
    · rw [List.mem_singleton.mp last]
      exact Decoder.tags?_eq_tagsOf stop
  · rw [markersOf, List.flatMap_assoc]
    refine List.flatMap_congr fun occurrence mem => ?_
    rw [Occurrence.markers, List.flatMap_cons, List.flatMap_singleton, Decoder.tagsOf_eq (start occurrence mem),
      Decoder.tagsOf_eq stop]
    rfl

/-- What the fragments have is what the units and the insertions among them have. -/
theorem flatMap_fragments_perm {α : Type} (f : List Char → List α) (fragments : List Fragment) :
    (fragments.flatMap fun fragment => f fragment.text).Perm
      ((unitsOf fragments).flatMap (fun unit => f unit.text) ++
        (insertionsOf fragments).flatMap fun insertion => f insertion.text) := by
  induction fragments with
  | nil => exact .nil
  | cons fragment fragments ih =>
    cases fragment with
    | unit piece =>
      rw [unitsOf_cons_unit, insertionsOf_cons_unit, List.flatMap_cons, List.flatMap_cons,
        List.append_assoc]
      exact ih.append_left _
    | inserted insertion =>
      rw [unitsOf_cons_inserted, insertionsOf_cons_inserted, List.flatMap_cons, List.flatMap_cons]
      exact (ih.append_left _).trans (List.perm_append_comm_assoc _ _ _)

/-- Source in which markers are woven has the tags of its tokens and of the markers, and no others. -/
theorem tags?_weave (runs : List Token.Run) {occurrences : List Occurrence}
    (spells : ∀ occurrence ∈ occurrences, decoder.Spells occurrence.rangeId) :
    ∃ tags, decoder.tags? (weave (runs.flatMap Token.Run.markup) (markersOf occurrences)) = some tags ∧
      tags.Perm ((runs.filterMap Token.Run.tokenClass).flatMap TokenClass.tags ++
        occurrences.flatMap Occurrence.markerTags) := by
  obtain ⟨fragments, woven, units, insertions⟩ := exists_fragments_weave runs occurrences
  obtain ⟨finished, markers⟩ := tagsOf_markers spells
  have perm := List.mergeSort_perm (markersOf occurrences) Insertion.before
  rw [woven]
  refine ⟨fragments.flatMap fun fragment => decoder.tagsOf fragment.text,
    Decoder.tags?_flatMap (forall_fragments ?_ ?_), ?_⟩
  · rw [units]
    intro piece mem
    obtain ⟨run, _, inside⟩ := List.mem_flatMap.mp mem
    exact (tagsOf_units run).1 piece inside
  · rw [insertions]
    intro insertion mem
    exact finished insertion (perm.mem_iff.mp mem)
  · have tokens : (runs.flatMap Token.Run.units).flatMap (fun unit => decoder.tagsOf unit.text) =
        (runs.filterMap Token.Run.tokenClass).flatMap TokenClass.tags := by
      rw [List.flatMap_assoc, List.filterMap_eq_flatMap_toList, List.flatMap_assoc]
      exact List.flatMap_congr fun run _ => (tagsOf_units run).2
    rw [← tokens, ← markers, ← units]
    refine (flatMap_fragments_perm decoder.tagsOf fragments).trans (List.Perm.append_left _ ?_)
    rw [insertions]
    exact perm.flatMap_right _

end Markup

/-! ### Pages -/

namespace SiteInput

variable {decoder : Decoder} {presentation : Presentation} {input : SiteInput}

/-- The tags of the page of a document: those of the template with the names in their attributes, of the
navigation tree and of the line numbers, and the given ones for the source. -/
def pageTags (input : SiteInput) (document : PlannedDocument) (source : SourceText)
    (sourceTags : List (Tag Char)) : List (Tag Char) :=
  Page.tags (PagePath.fileName document.path).toList (PagePath.toRoot document.path).toList
    (NavNode.tags input.nav (some document.path)) (Page.lineTags source.lineCount) sourceTags

def sourcePage (input : SiteInput) (document : PlannedDocument) (source : SourceText)
    (highlighted : List Char) (occurrences : List Occurrence) : Page.SourcePage where
  fileName := (PagePath.fileName document.path).toList
  toRoot := (PagePath.toRoot document.path).toList
  nav := NavNode.render input.nav (some document.path)
  source := weave highlighted (markersOf occurrences)
  lineCount := source.lineCount

theorem tags?_page_of_source {document : PlannedDocument} {source : SourceText} {highlighted : List Char}
    {occurrences : List Occurrence} {sourceTags : List (Tag Char)}
    (read : decoder.tags? (weave highlighted (markersOf occurrences)) = some sourceTags) :
    decoder.tags? (Site.page input.nav document source highlighted occurrences).html =
      some (input.pageTags document source sourceTags) := by
  have html : (Site.page input.nav document source highlighted occurrences).html =
      (input.sourcePage document source highlighted occurrences).render := rfl
  have plain : isUnescaped (input.sourcePage document source highlighted occurrences).toRoot = true :=
    PagePath.isUnescaped_toRoot document.path
  rw [html, Page.SourcePage.tags?_render plain (NavNode.tags?_render input.nav (some document.path)) read,
    pageTags, sourcePage]

/-- The source on a page has the tags of its highlighted tokens and of its markers. -/
def SourceTags (presentation : Presentation) (input : SiteInput) (document : PlannedDocument)
    (occurrences : List Occurrence) (source : SourceText) (tags : List (Tag Char)) : Prop :=
  input.sourceOf document = .ok source ∧
  ∃ runs : List Token.Run,
    presentation.source source.text document.languageId = .ok (runs.flatMap Token.Run.markup) ∧
    tags.Perm ((runs.filterMap Token.Run.tokenClass).flatMap TokenClass.tags ++
      occurrences.flatMap Occurrence.markerTags)

theorem tags?_page (kind : presentation = .plain ∨ ∃ parse, presentation = .rich parse)
    {document : PlannedDocument} {occurrences : List Occurrence} {page : RenderedPage}
    (drawn : input.page presentation document occurrences = .ok page)
    (spells : ∀ occurrence ∈ occurrences, decoder.Spells occurrence.rangeId) :
    ∃ source sourceTags, input.SourceTags presentation document occurrences source sourceTags ∧
      decoder.tags? page.html = some (input.pageTags document source sourceTags) := by
  obtain ⟨source, highlighted, loaded, shown, rfl⟩ := page_eq_ok_iff.mp drawn
  obtain ⟨runs, rfl⟩ := Presentation.source_eq_runs kind shown
  obtain ⟨tags, read, perm⟩ := tags?_weave runs spells
  exact ⟨source, tags, ⟨loaded, runs, shown, perm⟩, tags?_page_of_source read⟩

end SiteInput

namespace Site

/-- The page of each document has just the tags of its template, of the navigation tree, of the line numbers,
of the highlighted tokens and of the markers, if the id of each marked range can stand in an attribute as it is.
A marker with another id is not the tag it is meant to be. -/
theorem page_tags_exact {presentation : Presentation}
    (kind : presentation = .plain ∨ ∃ parse, presentation = .rich parse) {config : SiteConfig}
    {schedule : Schedule} {store after : Store} {report : BuildReport} (decoder : Decoder)
    (done : runOn (build presentation config schedule) store = (.ok report, after)) :
    ∃ input, loadOn config store = .ok (input, report.skipped) ∧
      ∀ document ∈ input.documents, ∃ occurrences page held,
        input.occurrences presentation document = .ok occurrences ∧
        input.page presentation document occurrences = .ok page ∧
        after.read (config.output.child s!"{document.path}.html") = .ok held ∧
        (Stays config schedule store (.page document.path) → held = Text.encodeUtf8 page.html) ∧
        ((∀ occurrence ∈ occurrences, decoder.Spells occurrence.rangeId) →
          ∃ source sourceTags, input.SourceTags presentation document occurrences source sourceTags ∧
            decoder.tags? page.html = some (input.pageTags document source sourceTags)) ∧
        ∀ occurrence ∈ occurrences,
          decoder.tags? (Occurrence.openMarker occurrence.rangeId) =
            some [Occurrence.markerStart occurrence.rangeId] ↔ decoder.Spells occurrence.rangeId := by
  obtain ⟨input, site, assets, loaded, rendered, published, _⟩ := build_eq_ok done
  refine ⟨input, loaded, fun document mem => ?_⟩
  obtain ⟨occurrences, page, occurs, drawn⟩ := exists_page rendered mem
  obtain ⟨held, read, own⟩ :=
    published.exists_read (sound_of_loadOn loaded) rendered (SiteInput.Makes.page mem occurs drawn) rfl
  exact ⟨occurrences, page, held, occurs, drawn, read, own, SiteInput.tags?_page kind drawn,
    fun occurrence _ => Decoder.tags?_openMarker_iff occurrence.rangeId⟩

theorem overlapDump_unescaped {elements : List Element}
    (decoded : Graph.decodeLines [] 1 (Text.lines overlapDump) = .ok elements) :
    ∀ element ∈ elements, isUnescaped element.id.name.toList = true := by
  have all : ((Graph.decodeLines [] 1 (Text.lines overlapDump)).toOption.all fun elements =>
      elements.all fun element => isUnescaped element.id.name.toList) = true := by
    unfold overlapDump
    repeat rw [Page.ofLines_cons]
    decide
  rw [decoded] at all
  exact List.all_eq_true.mp all

theorem page_tags_exact_overlapDisk : ∃ report after input,
    runOn (build (.rich overlapParse) (usedConfig "out") [5, 4, 5, 4, 0]) overlapDisk = (.ok report, after) ∧
    loadOn (usedConfig "out") overlapDisk = .ok (input, report.skipped) ∧
    ∀ document ∈ input.documents, document.path = "a" ∧ ∃ occurrences page source sourceTags,
      input.occurrences (.rich overlapParse) document = .ok occurrences ∧
      input.page (.rich overlapParse) document occurrences = .ok page ∧
      after.read ((usedConfig "out").output.child s!"{document.path}.html") =
        .ok (Text.encodeUtf8 page.html) ∧
      input.SourceTags (.rich overlapParse) document occurrences source sourceTags ∧
      Decoder.basic.tags? page.html = some (input.pageTags document source sourceTags) := by
  have drawn : (siteFrom (.rich overlapParse) (usedConfig "out") [5, 4, 5, 4, 0] overlapDisk overlapDump).map
      (fun made => made.1.pages.map RenderedPage.path) = some ["a"] := by
    unfold overlapDump
    repeat rw [Page.ofLines_cons]
    decide +kernel
  obtain ⟨⟨site, after⟩, made, paths⟩ := Option.map_eq_some_iff.mp drawn
  obtain ⟨report, done, draws, _⟩ := exists_run_build rfl read_overlapDisk made
  obtain ⟨input, loaded, pages⟩ := page_tags_exact (.inr ⟨overlapParse, rfl⟩) Decoder.basic done
  obtain ⟨_, found, rendered⟩ := drawOn_eq_ok draws
  cases loaded.symm.trans found
  refine ⟨report, after, input, done, loaded, fun document mem => ?_⟩
  obtain ⟨occurrences, page, held, occurs, drawn, read, own, exact, _⟩ := pages document mem
  have path : document.path = "a" := by
    have listed := (mem_pages_iff rendered page).mpr ⟨document, mem, occurrences, occurs, drawn⟩
    have inside := List.mem_map_of_mem (f := RenderedPage.path) listed
    rw [paths, SiteInput.path_of_page drawn] at inside
    exact List.mem_singleton.mp inside
  have stays : Stays (usedConfig "out") [5, 4, 5, 4, 0] overlapDisk (.page document.path) := by
    rw [path]
    exact .inr ⟨by decide, fun folder assets dist => by cases dist⟩
  rw [own stays] at read
  obtain ⟨elements, decoded, describes⟩ :=
    Graph.describes_of_parse (parse_of_loadOn loaded read_overlapDisk)
  obtain ⟨source, sourceTags, shown, tags⟩ := exact fun occurrence listed =>
    Decoder.spells_of_isUnescaped
      (overlapDump_unescaped decoded _ (SiteInput.range_mem_of_occurs describes occurs listed))
  exact ⟨path, occurrences, page, source, sourceTags, occurs, drawn, read, shown, tags⟩

/-- A dump with a range whose id ends the attribute that it is written in. -/
def quotedDump : List Element :=
  [⟨⟨"1"⟩, .vertex (.metaData ⟨"file:///", none, none⟩)⟩,
    ⟨⟨"2"⟩, .vertex (.document ⟨"file:///a", "x"⟩)⟩,
    ⟨⟨"r\"><b>"⟩, .vertex (.range ⟨⟨0, 0⟩, ⟨0, 1⟩⟩)⟩,
    ⟨⟨"4"⟩, .vertex (.hoverResult (.string "h"))⟩,
    ⟨⟨"5"⟩, .edge ⟨.contains, ⟨"2"⟩, ⟨"r\"><b>"⟩, [], none, none⟩⟩,
    ⟨⟨"6"⟩, .edge ⟨.hover, ⟨"r\"><b>"⟩, ⟨"4"⟩, [], none, none⟩⟩]

/-- What a site is made from with that dump, where `t` is the source of each document. -/
def quotedInput : Except SiteFault SiteInput := do
  let graph ← (Graph.ofElements quotedDump).mapError SiteFault.dump
  let pages := PageMap.ofRoot graph.projectRoot .empty
  let (plan, nav) ← planned graph pages
  let sources := plan.documents.map fun document => (document.id, SourceText.ofText ['t'])
  return ⟨⟨graph, pages, .ofList sources⟩, plan.documents, nav⟩

def quotedDocument : PlannedDocument :=
  ⟨⟨"2"⟩, "a", .ofString "/a", "x"⟩

def quotedOccurrence : Occurrence :=
  ⟨⟨"r\"><b>"⟩, ⟨⟨0, 0⟩, ⟨0, 1⟩⟩, some (⟨"4"⟩, Markup.preformatted ['h']), none, none⟩

theorem quotedInput_documents : (quotedInput.toOption.map fun input => input.documents.map fun document =>
    (document, (input.sourceOf document).toOption.map SourceText.text,
      (input.occurrences .plain document).toOption)) =
        some [(quotedDocument, some ['t'], some [quotedOccurrence])] := by
  decide +kernel

def quotedTags : List (Tag Char) :=
  [.opening "span".toList [⟨"id".toList, some "lsifr".toList⟩], .opening "b".toList [], .closing "span".toList]

theorem tags?_quotedOccurrence :
    Decoder.basic.tags? (weave (escape ['t']) (markersOf [quotedOccurrence])) = some quotedTags := by
  have ordered : InOrder (markersOf [quotedOccurrence]) [quotedOccurrence.opening, quotedOccurrence.closing] :=
    ⟨[(quotedOccurrence.opening, 0), (quotedOccurrence.closing, 1)], by decide, by decide, rfl⟩
  have queue := (inOrder_mergeSort _).unique ordered
  have units : pieces (escape ['t']) = ['t'].map escapedUnit := by
    simpa using (cut_escape ['t'] .nil).pieces_eq
  rw [weave_eq_interleave, queue, units]
  decide +kernel

/-- An id with a quote puts an element of its own into the page. -/
theorem quoted_id_adds_tag : ∃ input document occurrences page tags,
    quotedInput = .ok input ∧ document ∈ input.documents ∧
    input.occurrences .plain document = .ok occurrences ∧
    input.page .plain document occurrences = .ok page ∧
    Decoder.basic.tags? page.html = some tags ∧
    .opening "b".toList [] ∈ tags := by
  obtain ⟨input, made, listed⟩ := Option.map_eq_some_iff.mp quotedInput_documents
  obtain ⟨document, rest, documents, here, none⟩ := List.map_eq_cons_iff.mp listed
  simp only [Prod.mk.injEq] at here
  obtain ⟨_, text, occurs⟩ := here
  obtain ⟨source, loaded, text⟩ := Option.map_eq_some_iff.mp text
  have shown : Presentation.plain.source source.text document.languageId = .ok (escape ['t']) := by
    rw [text]
    rfl
  refine ⟨input, document, [quotedOccurrence], _, input.pageTags document source quotedTags,
    ok_of_toOption_eq_some made, ?_, ok_of_toOption_eq_some occurs,
    SiteInput.page_eq_ok_iff.mpr ⟨source, _, ok_of_toOption_eq_some loaded, shown, rfl⟩,
    SiteInput.tags?_page_of_source tags?_quotedOccurrence, ?_⟩
  · rw [documents]
    exact List.mem_cons_self
  · have place : Slot.place "SOURCE".toList ∈ Page.outline := by decide
    have element : Tag.opening "b".toList [] ∈ quotedTags := List.mem_cons_of_mem _ List.mem_cons_self
    unfold SiteInput.pageTags Page.tags
    exact List.mem_flatMap.mpr ⟨_, place, element⟩

end Site

end CodeAtlas
