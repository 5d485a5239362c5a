import CodeAtlas.Proofs.Markup.Spans
import CodeAtlas.Proofs.Page.Balance
import CodeAtlas.Proofs.Site.Closure

/-!
# Built pages pass the check

Every page of a site is well nested, whatever the sources, the names of the documents and the ranges that
are marked in them, as long as each range goes forward and its id can stand in quotes. So a build that checks
its pages reports that all of them have passed.
-/

namespace CodeAtlas

open Markup Markup.Nesting

/-! ### Pages -/

theorem Presentation.source_eq_runs {presentation : Presentation}
    (kind : presentation = .plain ∨ ∃ parse, presentation = .rich parse) {text html : List Char}
    {languageId : String} (shown : presentation.source text languageId = .ok html) :
    ∃ runs : List Token.Run, html = runs.flatMap Token.Run.markup := by
  rcases kind with rfl | ⟨parse, rfl⟩
  · cases shown
    exact ⟨[⟨none, text⟩], by simp [Token.Run.markup, Token.wrap_none]⟩
  · simp only [rich] at shown
    obtain ⟨runs, _, markup⟩ := Token.highlight_eq_runs shown
    exact ⟨runs, markup⟩

/-- The range goes forward, and its id can stand in quotes. -/
def Range.Markable (range : Range) (id : ElementId) : Prop :=
  range.start.place < range.stop.place ∧ '"' ∉ id.name.toList

instance (range : Range) (id : ElementId) : Decidable (range.Markable id) :=
  inferInstanceAs (Decidable (_ ∧ _))

def Element.range? (element : Element) : Option Range :=
  match element.kind with
  | .vertex (.range range) => some range
  | _ => none

namespace SiteInput

variable {input : SiteInput} {presentation : Presentation}

/-- All ranges that are marked in the pages can be. -/
def Markable (presentation : Presentation) (input : SiteInput) : Prop :=
  ∀ document ∈ input.documents, ∀ occurrences,
    input.occurrences presentation document = .ok occurrences →
      ∀ occurrence ∈ occurrences, occurrence.range.Markable occurrence.rangeId

theorem range_mem_of_occurs {elements : List Element} (describes : input.locator.graph.Describes elements)
    {document : PlannedDocument} {occurrences : List Occurrence}
    (occurs : input.occurrences presentation document = .ok occurrences) {occurrence : Occurrence}
    (mem : occurrence ∈ occurrences) :
    ⟨occurrence.rangeId, .vertex (.range occurrence.range)⟩ ∈ elements := by
  have found := (occurrences_eq_outcome document).symm.trans occurs
  obtain ⟨rangeId, _, gave⟩ := Query.outcome_of_mem_occurrences found mem
  obtain ⟨rfl, isRange, _⟩ := (Query.found_of_occurrence gave).some_inv
  exact describes.mem_of_vertex isRange

/-- It is enough that the ranges of the dump go forward and that their ids have no quotes. -/
theorem markable_of_describes {elements : List Element}
    (describes : input.locator.graph.Describes elements)
    (each : ∀ element ∈ elements, ∀ range ∈ element.range?, range.Markable element.id) :
    input.Markable presentation := by
  intro document _ occurrences occurs occurrence mem
  exact each _ (range_mem_of_occurs describes occurs mem) occurrence.range rfl

theorem checkNesting_page (kind : presentation = .plain ∨ ∃ parse, presentation = .rich parse)
    {document : PlannedDocument} {occurrences : List Occurrence} {page : RenderedPage}
    (markable : ∀ occurrence ∈ occurrences, occurrence.range.Markable occurrence.rangeId)
    (drawn : input.page presentation document occurrences = .ok page) :
    checkNesting page.html = .ok () := by
  obtain ⟨source, highlighted, _, shown, rfl⟩ := page_eq_ok_iff.mp drawn
  apply checkNesting_of_passes
  refine Page.SourcePage.passes_render (PagePath.quote_notMem_toRoot document.path)
    (NavNode.balanced_render input.nav (some document.path)) ?_
  obtain ⟨runs, rfl⟩ := Presentation.source_eq_runs kind shown
  exact balanced_weave (fun occurrence mem => (markable occurrence mem).1)
    fun occurrence mem => (markable occurrence mem).2

theorem Makes.checkNesting_eq (kind : presentation = .plain ∨ ∃ parse, presentation = .rich parse)
    (markable : input.Markable presentation) {file : SiteFile} {contents : List UInt8}
    (isPage : file = .welcome ∨ ∃ path, file = .page path)
    (makes : input.Makes presentation file contents) :
    ∃ html, contents = Text.encodeUtf8 html ∧ checkNesting html = .ok () := by
  cases makes with
  | welcome =>
    exact ⟨_, rfl, checkNesting_of_passes (Page.passes_welcome (NavNode.balanced_render _ _))⟩
  | page mem occurs drawn => exact ⟨_, rfl, checkNesting_page kind (markable _ mem _ occurs) drawn⟩
  | _ => simp at isPage

end SiteInput

/-! ### The check -/

namespace Site

variable {presentation : Presentation} {config : SiteConfig} {schedule : Schedule} {store after : Store}
  {input : SiteInput} {site : Site} {report : BuildReport}

def HoldsNested (store : Store) (path : DiskPath) : Prop :=
  ∃ html, store.read path = .ok (Text.encodeUtf8 html) ∧ checkNesting html = .ok ()

theorem checkOn_eq_passed {pages : List DiskPath} (each : ∀ page ∈ pages, HoldsNested store page) :
    checkOn pages store = .ok (.passed pages.length) := by
  induction pages with
  | nil => rfl
  | cons page pages ih =>
    obtain ⟨⟨html, read, nested⟩, rest⟩ := List.forall_mem_cons.mp each
    rw [checkOn, textOn_of_read read, ih rest]
    simp only [bind, Except.bind, String.toList_ofList, nested]
    rfl

theorem run_build_checked (done : runOn (build presentation config schedule) store = (.ok report, after))
    (loaded : loadOn config store = .ok (input, report.skipped))
    (rendered : render presentation input = .ok site) {outcome : CheckOutcome}
    (checked : checkOn (site.pageFiles config.output) after = .ok outcome) :
    runOn (build presentation { config with check := true } schedule) store =
      (.ok { report with check := some outcome }, after) := by
  unfold build at done ⊢
  obtain ⟨⟨other, skipped⟩, later, prepares, done⟩ := ok_of_run_bind done
  have drawn : drawOn presentation config store = .ok (site, report.skipped) := by
    rw [drawOn, loaded]
    change (do
      let site ← render presentation input
      .ok (site, report.skipped)) = _
    rw [rendered]
    rfl
  have same := prepares
  rw [reads_prepare, drawn, Prod.mk.injEq, Except.ok.injEq, Prod.mk.injEq] at same
  obtain ⟨⟨rfl, _⟩, rfl⟩ := same
  obtain ⟨_, published, publishes, done⟩ := ok_of_run_bind done
  have last : after = published ∧ ∃ check, report = ⟨site.pages.length, skipped,
      site.pages.foldl (fun ranges page => ranges + page.annotated) 0, site.references.length, check⟩ := by
    cases enabled : config.check with
    | false =>
      simp only [enabled, Bool.false_eq_true, if_false] at done
      cases done
      exact ⟨rfl, none, rfl⟩
    | true =>
      simp only [enabled, if_true] at done
      obtain ⟨check, later, checks, done⟩ := ok_of_run_bind done
      cases done
      rw [(reads_checkPages _).map some, Prod.mk.injEq] at checks
      exact ⟨checks.2.symm, check, rfl⟩
  obtain ⟨rfl, check, rfl⟩ := last
  have prepared : runOn (prepare presentation { config with check := true }) store =
      (.ok (site, skipped), store) := prepares
  have made : runOn (publish { config with check := true } schedule site) store = (.ok (), after) := publishes
  have passed : runOn (some <$> checkPages (site.pageFiles config.output)) after =
      (.ok (some outcome), after) := by
    rw [(reads_checkPages _).map some]
    dsimp only
    rw [checked]
    rfl
  rw [run_bind_of_ok prepared, run_bind_of_ok made]
  simp only [if_true]
  rw [run_bind_of_ok passed]
  rfl

theorem Published.exists_nested_page (kind : presentation = .plain ∨ ∃ parse, presentation = .rich parse)
    {assets : List OutputFile} (published : Published config schedule site assets store after)
    (sound : input.Sound) (rendered : render presentation input = .ok site)
    (markable : input.Markable presentation) {document : PlannedDocument}
    (mem : document ∈ input.documents) :
    ∃ occurrences page held,
      input.occurrences presentation document = .ok occurrences ∧
      input.page presentation document occurrences = .ok page ∧
      checkNesting page.html = .ok () ∧
      after.read (config.output.child s!"{document.path}.html") = .ok held ∧
      (Stays config schedule store (.page document.path) → held = Text.encodeUtf8 page.html) := by
  obtain ⟨occurrences, page, occurs, drawn⟩ := exists_page rendered mem
  have nested := SiteInput.checkNesting_page kind (markable document mem _ occurs) drawn
  obtain ⟨held, read, own⟩ :=
    published.exists_read sound rendered (SiteInput.Makes.page mem occurs drawn) rfl
  exact ⟨occurrences, page, held, occurs, drawn, nested, read, own⟩

/-- A parse tree for `f<g`: a number that starts inside both ranges of the dump and ends with the source. -/
def overlapParse : Parse :=
  fun _ => .ok fun _ => some (.node "source_file" true 0 3 [.node "int_literal" true 1 3 []])

theorem overlapDump_markable {elements : List Element}
    (decoded : Graph.decodeLines [] 1 (Text.lines overlapDump) = .ok elements) :
    ∀ element ∈ elements, ∀ range ∈ element.range?, range.Markable element.id := by
  have all : ((Graph.decodeLines [] 1 (Text.lines overlapDump)).toOption.all fun elements =>
      decide (∀ element ∈ elements, ∀ range ∈ element.range?, range.Markable element.id)) = true := by
    unfold overlapDump
    repeat rw [Page.ofLines_cons]
    decide
  rw [decoded] at all
  exact of_decide_eq_true all

end Site

end CodeAtlas
