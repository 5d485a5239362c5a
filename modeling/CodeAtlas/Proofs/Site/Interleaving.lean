import CodeAtlas.Proofs.Dump.Adjacency
import CodeAtlas.Proofs.Symbol.Interleaving
import CodeAtlas.Site.Pages

/-!
# Sites made by many workers

The questions about a document are worked out from the dump alone (`Locator.answer`), so that all pages
are faithful to it. Whatever workers shared the answers before, and however their moves were
interleaved, they got what each question gives from scratch, and what they leave behind changes no
page, no sidecar and no reference file.
-/

namespace CodeAtlas

/-! ### Questions about a document -/

theorem Graph.vertex_of_follow {graph : Graph} {label : EdgeLabel} {start current id : ElementId}
    {visited : List ElementId} {vertex : Vertex}
    (found : graph.follow label start visited current = .ok (some (id, vertex))) :
    graph.vertex id = .ok vertex := by
  fun_induction graph.follow label start visited current with
  | case1 => cases found
  | case2 visited current fresh link first =>
    obtain ⟨value, target, same⟩ := map_eq_ok_iff.mp found
    cases same
    exact target
  | case3 => cases found
  | case4 visited current fresh first next after ih => exact ih found

/-- What a question gives when it is worked out from scratch. The hover text of an id is made of the
contents of its own vertex. -/
def Locator.answer (locator : Locator) (renderer : MarkdownRenderer) : Scratch
  | .hover id =>
    match locator.graph.vertex id with
    | .ok (.hoverResult contents) => Query.hoverMarkup renderer id contents
    | .ok _ => .error (.dump (.unexpectedKind id "hoverResult"))
    | .error fault => .error (.dump fault)
  | .references id => (locator.referenceSet? id).mapError .dump

namespace Query

variable (locator : Locator) (renderer : MarkdownRenderer)

theorem hoverOf_faithful (rangeId : ElementId) :
    (hoverOf locator renderer rangeId).Faithful (locator.answer renderer) := by
  unfold hoverOf
  rw [lift_dump_eq]
  cases found : locator.graph.resolve rangeId .hover with
  | error fault => trivial
  | ok result =>
    rw [mapError_ok, bind_done_ok]
    cases result with
    | none => trivial
    | some result =>
      obtain ⟨id, vertex⟩ := result
      have own := Graph.vertex_of_follow found
      cases vertex with
      | hoverResult contents =>
        refine Faithful.bind ⟨?_, fun _ => trivial⟩ fun _ => trivial
        simp only [Locator.answer, own]
      | _ => trivial

theorem referencesOf_faithful (rangeId : ElementId) :
    (referencesOf locator rangeId).Faithful (locator.answer renderer) := by
  unfold referencesOf
  rw [lift_dump_eq]
  refine Faithful.bind trivial fun result => ?_
  cases result with
  | none => trivial
  | some result => exact Faithful.bind ⟨rfl, fun _ => trivial⟩ fun _ => trivial

theorem occurrence_faithful (id : ElementId) :
    (occurrence locator renderer id).Faithful (locator.answer renderer) := by
  unfold occurrence
  rw [lift_dump_eq]
  refine Faithful.bind trivial fun vertex => ?_
  cases vertex with
  | range range =>
    dsimp only
    split
    · trivial
    · refine (hoverOf_faithful locator renderer id).bind fun hover => ?_
      rw [lift_dump_eq]
      refine Faithful.bind trivial fun definition => ?_
      exact (referencesOf_faithful locator renderer id).bind fun references => trivial
  | _ => trivial

theorem occurrences_faithful (document : ElementId) :
    (occurrences locator renderer document).Faithful (locator.answer renderer) :=
  (Faithful.mapM (occurrence_faithful locator renderer) _).bind fun _ => trivial

end Query

namespace Site

variable (presentation : Presentation) (input : SiteInput)

theorem renderPage_faithful (document : PlannedDocument) :
    (renderPage presentation input document).Faithful
      (input.locator.answer presentation.markdown) := by
  unfold renderPage
  rw [Query.liftExcept_eq]
  refine Query.Faithful.bind trivial fun source => ?_
  refine (Query.occurrences_faithful _ _ document.id).bind fun occurrences => ?_
  rw [Query.lift_highlight_eq]
  exact Query.Faithful.bind trivial fun _ => trivial

def pageQueries : List (Query RenderedPage) :=
  input.documents.map (renderPage presentation input)

theorem pageQueries_faithful :
    ∀ query ∈ pageQueries presentation input,
      query.Faithful (input.locator.answer presentation.markdown) := by
  intro query mem
  obtain ⟨document, _, rfl⟩ := List.mem_map.mp mem
  exact renderPage_faithful presentation input document

variable {presentation : Presentation} {input : SiteInput}

theorem assemble_eq (nav : List NavNode) (pages : List RenderedPage) {answers other : Answers}
    (same : ∀ question value, answers.kept? question = some value ↔
      other.kept? question = some value) : assemble nav pages answers = assemble nav pages other := by
  unfold assemble
  rw [Answers.referenceSets_eq same]

/-- The site is the one that is put together from the pages and answers of a team with one worker for
each page. -/
theorem render_eq_ok_iff {team : Team RenderedPage} {results : List (Except SiteFault RenderedPage)}
    (run : Team.Run (.start (pageQueries presentation input)) team)
    (finished : team.Finished results) (site : Site) :
    render presentation input = .ok site ↔
      ∃ pages, results = pages.map .ok ∧ site = assemble input.nav pages team.answers := by
  let scratch := input.locator.answer presentation.markdown
  let alone := input.documents.mapM (renderPage presentation input)
  have sound : Team.Sound scratch _ team :=
    run.sound (Team.start_sound (pageQueries_faithful presentation input))
  have faithful : alone.Faithful scratch := .mapM (renderPage_faithful presentation input) _
  obtain ⟨outcome, _, kept⟩ := Query.run_faithful faithful Answers.empty_right
  have byPage : results = input.documents.map
      fun document => (renderPage presentation input document).outcome scratch := by
    rw [sound.results_eq finished, pageQueries, List.map_map]
    rfl
  have rendered : render presentation input =
      (alone.outcome scratch).map fun pages => assemble input.nav pages (alone.run .empty).2 := by
    rw [← outcome]
    rfl
  rw [rendered, Query.outcome_mapM]
  simp only [byPage, ← mapM_eq_ok_iff]
  cases made : input.documents.mapM
      fun document => (renderPage presentation input document).outcome scratch with
  | error fault => simp [Except.map]
  | ok pages =>
    -- The one who makes all pages in turn asks what the many ask between them.
    have asked : (alone.asked scratch).Perm team.asked := by
      rw [Query.asked_mapM_of_ok made]
      simpa [pageQueries, List.flatMap_map] using (sound.asked finished).symm
    have same : ∀ question value, (alone.run .empty).2.kept? question = some value ↔
        team.answers.kept? question = some value := by
      intro question value
      rw [kept, sound.kept_iff finished, Answers.kept?_empty, asked.mem_iff]
      simp
    simp [Except.map, assemble_eq input.nav pages same, eq_comm]

/-- Workers with faithful queries may share their answers in any interleaving. What a call returns,
what is worked out and what is kept is as from scratch, and neither the occurrences of a document nor a
site depends on who worked out the answers, and when. A worker that makes several pages in turn is one
of the interleavings of workers with one page each. -/
theorem kept_answers_transparent (presentation : Presentation) (input : SiteInput) {α : Type}
    {queries : List (Query α)} {team : Team α}
    (faithful : ∀ query ∈ queries, query.Faithful (input.locator.answer presentation.markdown))
    (run : Team.Run (.start queries) team) :
    (∀ reply ∈ team.returned,
      reply.result = input.locator.answer presentation.markdown reply.question) ∧
    ((team.worked.filter Reply.succeeded).map Reply.question).Nodup ∧
    (∀ next reply fault, Team.Step team next → next.worked = reply :: team.worked →
      reply.result = .error fault → next.answers = team.answers) ∧
    (∃ last results, Team.Run team last ∧ last.Finished results) ∧
    (∀ results, team.Finished results →
      results = queries.map (fun query => (query.run .empty).1) ∧
      team.asked.Perm (team.returned.map Reply.question) ∧
      (∀ question value, team.answers.kept? question = some value ↔
        question ∈ team.asked ∧
          input.locator.answer presentation.markdown question = .ok value) ∧
      (∀ id set, (id, set) ∈ team.answers.referenceSets ↔
        .references id ∈ team.asked ∧ input.locator.referenceSet? id = .ok (some set)) ∧
      team.answers.referenceSets.Pairwise fun before after => compare before.1 after.1 = .lt) ∧
    (∀ document,
      ((Query.occurrences input.locator presentation.markdown document).run team.answers).1 =
        ((Query.occurrences input.locator presentation.markdown document).run .empty).1) ∧
    ∀ makers results, Team.Run (.start (pageQueries presentation input)) makers →
      makers.Finished results → ∀ site, render presentation input = .ok site ↔
        ∃ pages, results = pages.map .ok ∧ site = assemble input.nav pages makers.answers := by
  have sound := run.sound (Team.start_sound faithful)
  refine ⟨sound.returned, sound.once, ?_, sound.exists_finished, ?_, ?_, ?_⟩
  · intro next reply fault step worked failed
    exact step.answers_eq_of_error worked failed
  · intro results finished
    have kept := sound.kept_iff finished
    refine ⟨?_, sound.answered finished, kept, ?_, team.answers.referenceSets_sorted⟩
    · rw [sound.results_eq finished]
      refine List.map_congr_left fun query mem => ?_
      exact (Query.run_faithful (faithful query mem) Answers.empty_right).1.symm
    · intro id set
      rw [Answers.mem_referenceSets_iff, kept, Locator.answer, mapError_eq_ok_iff]
  · intro document
    have own := Query.occurrences_faithful input.locator presentation.markdown document
    rw [(Query.run_faithful own sound.right).1, (Query.run_faithful own Answers.empty_right).1]
  · intro makers results made finished site
    exact render_eq_ok_iff made finished site

def hoverDump : List Element :=
  [⟨.ofNat 1, .vertex (.metaData ⟨"file:///repo", none, none⟩)⟩,
    ⟨.ofNat 2, .vertex (.hoverResult (.string "fn"))⟩]

def hoverQuery : Query (List Char) :=
  Query.hover Presentation.plain.markdown (.ofNat 2) (.string "fn")

/-- Two workers look for the same hover text in vain, and both come back for it. -/
theorem kept_answers_transparent_hoverDump :
    ∃ graph, Graph.ofElements hoverDump = .ok graph ∧
      ∃ team, Team.Run (.start [hoverQuery, hoverQuery]) team ∧
        team.Finished [.ok (Markup.preformatted ['f', 'n']), .ok (Markup.preformatted ['f', 'n'])] ∧
        team.asked = [.hover (.ofNat 2), .hover (.ofNat 2)] ∧ team.worked.length = 1 ∧
        (∀ reply ∈ team.returned, reply.result =
          Locator.answer ⟨graph, .ofRoot "file:///repo" .empty, ∅⟩ Presentation.plain.markdown
            reply.question) ∧
        team.answers.kept? (.hover (.ofNat 2)) = some (Markup.preformatted ['f', 'n']) := by
  obtain ⟨graph, built⟩ := exists_eq_ok
    (show (Graph.ofElements hoverDump).isOk = true by decide)
  let input : SiteInput := ⟨⟨graph, .ofRoot "file:///repo" .empty, ∅⟩, [], []⟩
  have own : graph.vertex (.ofNat 2) = .ok (.hoverResult (.string "fn")) := by
    unfold Graph.vertex Graph.require
    rw [(Graph.describes_of_ofElements built).get]
    rfl
  have faithful : ∀ query ∈ [hoverQuery, hoverQuery],
      query.Faithful (input.locator.answer Presentation.plain.markdown) := by
    intro query mem
    have same : query = hoverQuery := by simpa using mem
    subst same
    refine ⟨?_, fun _ => trivial⟩
    simp only [Locator.answer, input, own]
  have missed : Answers.empty.kept? (.hover (.ofNat 2)) = none := Answers.kept?_empty _
  have run : Team.Run (.start [hoverQuery, hoverQuery]) _ :=
    .head (.move [] [.active hoverQuery] (.missed missed)) <|
    .head (.move [_] [] (.missed missed)) <|
    .head (.move [] [_] .entered) <|
    .head (.move [_] [] .entered) .refl
  obtain ⟨returned, _, _, _, _⟩ := kept_answers_transparent Presentation.plain input faithful run
  exact ⟨graph, built, _, run, rfl, rfl, by decide, returned, by decide⟩

end Site

end CodeAtlas
