import CodeAtlas.Proofs.Dump.Resolution
import CodeAtlas.Proofs.Symbol.Queries
import CodeAtlas.Site.Pages

/-!
# What can still go wrong after loading

The ends of all edges are checked when a dump is loaded, so that no later question can meet a missing
element or an edge in place of a vertex. `FaultIn` bounds the faults of one result and `Confined` those
of a query; both are carried from lookups through locations and reference sets to whole pages.
-/

namespace CodeAtlas

/-- The faults of a location: what should be a range or a document is something else, or a range is in
no document. -/
inductive DumpFault.OfLocation : DumpFault → Prop where
  | unexpectedKind (id : ElementId) (expected : String) : OfLocation (.unexpectedKind id expected)
  | noOwningDocument (range : ElementId) : OfLocation (.noOwningDocument range)

inductive DumpFault.OfQuery : DumpFault → Prop where
  | location {fault : DumpFault} : fault.OfLocation → OfQuery fault
  | cycle (start again : ElementId) : OfQuery (.cycle start again)
  | unrecognizedHover (id : ElementId) : OfQuery (.unrecognizedHover id)

/-- The faults of a query about a document, for a reader of hover texts: those of the questions, and what the
reader finds wrong with a text. -/
inductive SiteFault.OfQuery (renderer : MarkdownRenderer) : SiteFault → Prop where
  | dump {cause : DumpFault} : cause.OfQuery → OfQuery renderer (.dump cause)
  | hover {text : List Char} {cause : HighlightFault} : renderer text = .error cause →
      OfQuery renderer (.highlight cause)

/-- The faults of a site: those of the queries about its documents, a source that is not there, and one that
cannot be highlighted. -/
inductive SiteFault.OfSite (presentation : Presentation) (input : SiteInput) : SiteFault → Prop where
  | query {fault : SiteFault} : fault.OfQuery presentation.markdown → OfSite presentation input fault
  | unloaded {document : PlannedDocument} {reason : String} : document ∈ input.documents →
      input.locator.sources[document.id]? = none → OfSite presentation input (.task reason)
  | source {text : List Char} {languageId : String} {cause : HighlightFault} :
      presentation.source text languageId = .error cause → OfSite presentation input (.highlight cause)

namespace Query

variable {α β : Type} {kinds : SiteFault → Prop}

/-- No step of the query brings in a fault of another kind. -/
def Confined (kinds : SiteFault → Prop) : Query α → Prop
  | .done result => FaultIn kinds result
  | .ask _ answer rest =>
    FaultIn kinds (answer ()) ∧ ∀ result, FaultIn kinds result → (rest result).Confined kinds

/-- Whatever answers are kept, a query only fails with its own kinds of faults. -/
theorem Confined.run {query : Query α} (confined : query.Confined kinds) (answers : Answers) :
    FaultIn kinds (query.run answers).1 := by
  induction query generalizing answers with
  | done result => exact confined
  | ask question answer rest ih =>
    rw [run_ask]
    apply ih
    apply confined.2
    have step := answers.fetched_fetch question answer
    generalize answers.fetch question answer = fetched at step
    cases step with
    | kept => exact .ok _
    | failed _ failed => exact .error (confined.1 _ failed)
    | added => exact .ok _

theorem Confined.bind {query : Query α} {next : α → Query β} (first : query.Confined kinds)
    (second : ∀ value, (next value).Confined kinds) : (query >>= next).Confined kinds := by
  induction query with
  | done result =>
    cases result with
    | ok value => exact second value
    | error fault => exact .error (first fault rfl)
  | ask question answer rest ih =>
    exact ⟨first.1, fun result bound => ih result (first.2 result bound)⟩

theorem Confined.mapM {next : α → Query β} {list : List α}
    (each : ∀ value ∈ list, (next value).Confined kinds) : (list.mapM next).Confined kinds := by
  induction list with
  | nil => exact FaultIn.ok _
  | cons first rest ih =>
    rw [List.mapM_cons]
    obtain ⟨here, later⟩ := List.forall_mem_cons.mp each
    exact here.bind fun _ => (ih later).bind fun _ => FaultIn.ok _

theorem Confined.lift {renderer : MarkdownRenderer} (wide : ∀ fault, fault.OfQuery renderer → kinds fault)
    {result : Except DumpFault α} (bound : FaultIn DumpFault.OfQuery result) :
    (liftM result : Query α).Confined kinds := by
  rw [lift_dump_eq]
  exact bound.mapError fun _ cause => wide _ (.dump cause)

end Query

/-! ### Items -/

def Graph.Lists (graph : Graph) (item : Item) : Prop :=
  ∃ id, ∃ link ∈ graph.outgoing id, link.edge.label = .item ∧ item ∈ link.edge.items

theorem Items.collect_lists {graph : Graph} {root : ElementId} {visited : List ElementId}
    {steps : List Visit} {items : Items}
    (passing : ∀ edge, .pass edge ∈ steps → ∀ item ∈ edge.items, graph.Lists item)
    (collected : collect graph root visited steps = .ok items) :
    ∀ item ∈ items.definitions ++ items.references, graph.Lists item := by
  fun_induction collect graph root visited steps generalizing items with
  | case1 =>
    cases collected
    simp [empty]
  | case2 => cases collected
  | case3 visited id rest fresh ih =>
    refine ih (fun edge mem => ?_) collected
    rcases List.mem_append.mp mem with entered | left
    · obtain ⟨link, leaves, same⟩ := List.mem_map.mp entered
      cases same
      obtain ⟨present, label⟩ := List.mem_filter.mp leaves
      exact fun item listed => ⟨id, link, present, by simpa using label, listed⟩
    · exact passing edge (List.mem_cons_of_mem _ left)
  | case4 visited edge rest property ih =>
    obtain ⟨others, later, rfl⟩ := map_eq_ok_iff.mp collected
    have known := ih (fun edge mem => passing edge (List.mem_cons_of_mem _ mem)) later
    intro item mem
    simp only [withDefinitions, List.mem_append, or_assoc] at mem
    rcases mem with here | there
    · exact passing edge List.mem_cons_self item here
    · exact known item (List.mem_append.mpr there)
  | case5 visited edge rest property ih =>
    refine ih (fun other mem => ?_) collected
    rcases List.mem_append.mp mem with nested | left
    · obtain ⟨target, _, same⟩ := List.mem_map.mp nested
      cases same
    · exact passing other (List.mem_cons_of_mem _ left)
  | case6 visited edge rest property ih =>
    exact ih (fun edge mem => passing edge (List.mem_cons_of_mem _ mem)) collected
  | case7 visited edge rest _ _ _ ih =>
    obtain ⟨others, later, rfl⟩ := map_eq_ok_iff.mp collected
    have known := ih (fun edge mem => passing edge (List.mem_cons_of_mem _ mem)) later
    intro item mem
    simp only [withReferences, List.mem_append] at mem
    rcases mem with there | here | there
    · exact known item (List.mem_append_left _ there)
    · exact passing edge List.mem_cons_self item here
    · exact known item (List.mem_append_right _ there)

theorem Graph.lists_of_items {graph : Graph} {result : ElementId} {items : Items}
    (collected : graph.items result = .ok items) :
    ∀ item ∈ items.definitions ++ items.references, graph.Lists item :=
  Items.collect_lists (fun edge mem => by simp at mem) collected

/-! ### Lookups in a loaded graph -/

namespace Graph

variable {graph : Graph} {elements : List Element}

theorem Describes.mem_linksOf (describes : graph.Describes elements) {id : ElementId} {link : Link}
    (leaves : link ∈ graph.outgoing id) : link ∈ linksOf elements := by
  rw [describes.outgoing] at leaves
  exact (List.mem_filter.mp leaves).1

theorem Describes.vertex_target (describes : graph.Describes elements) {id target : ElementId}
    {link : Link} (leaves : link ∈ graph.outgoing id) (named : target ∈ link.edge.targets) :
    ∃ vertex, graph.vertex target = .ok vertex := by
  obtain ⟨vertex, found, _⟩ := describes.vertex_endpoint (describes.mem_linksOf leaves)
    (show target ∈ link.edge.endpoints by simp [Edge.endpoints, named])
  exact ⟨vertex, found⟩

theorem Describes.vertex_hint (describes : graph.Describes elements) {id hint : ElementId}
    {link : Link} (leaves : link ∈ graph.outgoing id) (named : link.edge.document = some hint) :
    ∃ vertex, graph.vertex hint = .ok vertex := by
  obtain ⟨vertex, found, _⟩ := describes.vertex_endpoint (describes.mem_linksOf leaves)
    (show hint ∈ link.edge.endpoints by simp [Edge.endpoints, named])
  exact ⟨vertex, found⟩

theorem Describes.resolve_faultIn (describes : graph.Describes elements) (start : ElementId)
    (label : EdgeLabel) :
    FaultIn (fun fault => ∃ again, fault = .cycle start again) (graph.resolve start label) := by
  have answer : Resolves elements start label (graph.resolve start label) :=
    resolves_follow describes (Walked.initial elements start label)
  intro fault failed
  rw [failed] at answer
  cases answer with
  | closed => exact ⟨_, rfl⟩

theorem range_faultIn {id : ElementId} {vertex : Vertex} (found : graph.vertex id = .ok vertex) :
    FaultIn DumpFault.OfLocation (graph.range id) := by
  unfold Graph.range
  rw [found]
  cases vertex with
  | range range => exact .ok _
  | _ => exact .error (.unexpectedKind id _)

theorem document_faultIn {id : ElementId} {vertex : Vertex} (found : graph.vertex id = .ok vertex) :
    FaultIn DumpFault.OfLocation (graph.document id) := by
  unfold Graph.document
  rw [found]
  cases vertex with
  | document document => exact .ok _
  | _ => exact .error (.unexpectedKind id _)

end Graph

namespace Locator

variable {locator : Locator} {elements : List Element}

theorem vertex_of_owner? {range owner : ElementId} (owned : locator.owner? range = some owner) :
    ∃ document, locator.graph.vertex owner = .ok (.document document) := by
  obtain ⟨link, _, found⟩ := List.exists_of_findSome?_eq_some owned
  unfold documentOf? at found
  split at found
  · rename_i document isDocument
    cases found
    obtain ⟨element, present, isVertex⟩ := Option.bind_eq_some_iff.mp isDocument
    obtain ⟨id, kind⟩ := element
    refine ⟨document, ?_⟩
    unfold Graph.vertex Graph.require
    rw [present]
    cases kind with
    | vertex vertex =>
      cases isVertex
      rfl
    | edge edge => cases isVertex
  · cases found

theorem locate_faultIn {id : ElementId} {hint : Option ElementId}
    (target : ∃ vertex, locator.graph.vertex id = .ok vertex)
    (hinted : ∀ document, hint = some document →
      ∃ vertex, locator.graph.vertex document = .ok vertex) :
    FaultIn DumpFault.OfLocation (locator.locate id hint) := by
  obtain ⟨vertex, found⟩ := target
  refine (Graph.range_faultIn found).bind fun range _ => ?_
  cases owned : (locator.owner? id).or hint with
  | none => exact .error (.noOwningDocument id)
  | some documentId =>
    have owner : ∃ vertex, locator.graph.vertex documentId = .ok vertex := by
      rcases Option.or_eq_some_iff.mp owned with inside | ⟨_, outside⟩
      · obtain ⟨document, isDocument⟩ := vertex_of_owner? inside
        exact ⟨_, isDocument⟩
      · exact hinted documentId outside
    obtain ⟨vertex, isVertex⟩ := owner
    exact (Graph.document_faultIn isVertex).bind fun _ _ => .ok _

theorem locate_item_faultIn (describes : locator.graph.Describes elements) {id target : ElementId}
    {link : Link} (leaves : link ∈ locator.graph.outgoing id) (named : target ∈ link.edge.targets) :
    FaultIn DumpFault.OfLocation (locator.locate target link.edge.document) :=
  locate_faultIn (describes.vertex_target leaves named) fun _ hint =>
    describes.vertex_hint leaves hint

theorem locateAll_faultIn (describes : locator.graph.Describes elements) {items : List Item}
    (listed : ∀ item ∈ items, locator.graph.Lists item) :
    FaultIn DumpFault.OfLocation (locator.locateAll items) := by
  refine FaultIn.bind (.mapM fun item mem => ?_) fun _ _ => .ok _
  obtain ⟨id, link, leaves, _, named⟩ := listed item mem
  obtain ⟨target, isTarget, rfl⟩ := List.mem_map.mp named
  exact locate_item_faultIn describes leaves isTarget

theorem referenceSet?_faultIn (describes : locator.graph.Describes elements) (result : ElementId) :
    FaultIn DumpFault.OfQuery (locator.referenceSet? result) := by
  unfold referenceSet?
  refine FaultIn.bind (fun fault failed => ?_) fun items collected => ?_
  · obtain ⟨again, rfl⟩ := Items.collect_error failed
    exact .cycle result again
  · have listed := Graph.lists_of_items collected
    have located : ∀ part : List Item, (∀ item ∈ part, locator.graph.Lists item) →
        FaultIn DumpFault.OfQuery (locator.locateAll part) := fun part lists =>
      (locateAll_faultIn describes lists).mono fun _ => .location
    split
    · refine (located _ fun item mem => listed item (List.mem_append_left _ mem)).bind fun _ _ => ?_
      refine (located _ fun item mem => listed item (List.mem_append_right _ mem)).bind fun _ _ => ?_
      exact .ok _
    · exact .ok _

theorem definition?_faultIn (describes : locator.graph.Describes elements) (rangeId id : ElementId) :
    FaultIn DumpFault.OfLocation (locator.definition? rangeId id) := by
  unfold definition?
  split
  · exact .ok _
  · rename_i link first
    split
    · exact .ok _
    · exact locate_item_faultIn describes (List.mem_of_find?_eq_some first) (by simp [Edge.targets])

theorem resolve_ofQuery (describes : locator.graph.Describes elements) (start : ElementId)
    (label : EdgeLabel) : FaultIn DumpFault.OfQuery (locator.graph.resolve start label) := by
  refine (describes.resolve_faultIn start label).mono ?_
  rintro _ ⟨again, rfl⟩
  exact .cycle start again

theorem definitionOf?_faultIn (describes : locator.graph.Describes elements) (rangeId : ElementId) :
    FaultIn DumpFault.OfQuery (locator.definitionOf? rangeId) := by
  refine (resolve_ofQuery describes rangeId .definition).bind fun found _ => ?_
  cases found with
  | none => exact .ok _
  | some found =>
    have located := definition?_faultIn describes rangeId found.1
    exact (located.mono fun _ => DumpFault.OfQuery.location).bind fun _ _ => .ok _

end Locator

/-! ### Documents and sites -/

namespace Query

variable {locator : Locator} {elements : List Element}

theorem hoverMarkup_faultIn (renderer : MarkdownRenderer) (id : ElementId) (contents : Json) :
    FaultIn (SiteFault.OfQuery renderer) (hoverMarkup renderer id contents) := by
  have read : FaultIn DumpFault.OfQuery (HoverText.ofContents id contents) := by
    unfold HoverText.ofContents
    split
    · exact .ok _
    · exact .error (.unrecognizedHover id)
  refine (read.mapError fun _ => .dump).bind fun text _ => ?_
  cases text with
  | markdown text =>
    have shown : FaultIn (fun cause => renderer text = .error cause) (renderer text) := fun _ failed => failed
    exact shown.mapError fun _ => .hover
  | plain text => exact .ok _

-- `Confined` cannot be widened afterwards: how a query goes on after a fault is only bounded for the kinds
-- it is given. So the queries are bounded for any kinds that have room for their own.
variable {renderer : MarkdownRenderer} {kinds : SiteFault → Prop}

theorem hoverOf_confined (wide : ∀ fault, fault.OfQuery renderer → kinds fault)
    (describes : locator.graph.Describes elements) (rangeId : ElementId) :
    (hoverOf locator renderer rangeId).Confined kinds := by
  refine (Confined.lift wide (Locator.resolve_ofQuery describes rangeId .hover)).bind fun found => ?_
  cases found with
  | none => exact FaultIn.ok _
  | some found =>
    obtain ⟨id, vertex⟩ := found
    cases vertex with
    | hoverResult contents =>
      exact Confined.bind ⟨(hoverMarkup_faultIn renderer id contents).mono wide, fun result bound => bound⟩
        fun _ => FaultIn.ok _
    | _ => exact FaultIn.error (wide _ (.dump (.location (.unexpectedKind id _))))

theorem referencesOf_confined (wide : ∀ fault, fault.OfQuery renderer → kinds fault)
    (describes : locator.graph.Describes elements) (rangeId : ElementId) :
    (referencesOf locator rangeId).Confined kinds := by
  refine (Confined.lift wide (Locator.resolve_ofQuery describes rangeId .references)).bind fun found => ?_
  cases found with
  | none => exact FaultIn.ok _
  | some found =>
    refine Confined.bind ⟨?_, fun result bound => bound⟩ fun _ => FaultIn.ok _
    exact (Locator.referenceSet?_faultIn describes found.1).mapError fun _ cause => wide _ (.dump cause)

theorem occurrence_confined (wide : ∀ fault, fault.OfQuery renderer → kinds fault)
    (describes : locator.graph.Describes elements) {id : ElementId} {vertex : Vertex}
    (found : locator.graph.vertex id = .ok vertex) :
    (occurrence locator renderer id).Confined kinds := by
  unfold occurrence
  rw [found, lift_dump_eq, mapError_ok, bind_done_ok]
  cases vertex with
  | range range =>
    dsimp only
    split
    · exact FaultIn.ok _
    · refine (hoverOf_confined wide describes id).bind fun _ => ?_
      refine (Confined.lift wide (Locator.definitionOf?_faultIn describes id)).bind fun _ => ?_
      exact (referencesOf_confined wide describes id).bind fun _ => FaultIn.ok _
  | _ => exact FaultIn.ok _

theorem occurrences_confined (wide : ∀ fault, fault.OfQuery renderer → kinds fault)
    (describes : locator.graph.Describes elements) (document : ElementId) :
    (occurrences locator renderer document).Confined kinds := by
  refine Confined.bind (.mapM fun id mem => ?_) fun _ => FaultIn.ok _
  obtain ⟨link, labeled, named⟩ := List.mem_flatMap.mp mem
  obtain ⟨vertex, found⟩ := describes.vertex_target (List.mem_filter.mp labeled).1 named
  exact occurrence_confined wide describes found

end Query

namespace Site

variable {elements : List Element} (presentation : Presentation) (input : SiteInput)

theorem renderPage_confined (describes : input.locator.graph.Describes elements) {document : PlannedDocument}
    (planned : document ∈ input.documents) :
    (renderPage presentation input document).Confined (SiteFault.OfSite presentation input) := by
  have loaded : FaultIn (SiteFault.OfSite presentation input) (input.sourceOf document) := by
    unfold SiteInput.sourceOf
    split
    · exact .ok _
    · exact .error (.unloaded planned ‹_›)
  unfold renderPage
  rw [Query.liftExcept_eq]
  refine Query.Confined.bind loaded fun source => ?_
  refine (Query.occurrences_confined (fun _ => .query) describes document.id).bind fun occurrences => ?_
  have shown : FaultIn (fun cause => presentation.source source.text document.languageId = .error cause)
      (presentation.source source.text document.languageId) := fun _ failed => failed
  rw [Query.lift_highlight_eq]
  exact Query.Confined.bind (shown.mapError fun _ => .source) fun _ => FaultIn.ok _

theorem render_faultIn (describes : input.locator.graph.Describes elements) :
    FaultIn (SiteFault.OfSite presentation input) (render presentation input) := by
  have pages : (input.documents.mapM (renderPage presentation input)).Confined
      (SiteFault.OfSite presentation input) :=
    .mapM fun _ planned => renderPage_confined presentation input describes planned
  exact (pages.run Answers.empty).map _

end Site

namespace Graph

/-- After a dump is loaded, walks along its edges only fail by a cycle, locating the targets of item
edges only by a wrong kind of vertex or a range without a document, and the dump is only found at fault in
documents and whole sites for one of these or a hover text in no known shape. What else can go wrong there is
that a source is not there or that it or a hover text cannot be shown. -/
theorem faults_after_loading {text : List Char} {graph : Graph} (accepted : parse text = .ok graph) :
    (∀ start label,
      FaultIn (fun fault => ∃ again, fault = .cycle start again) (graph.resolve start label)) ∧
    (∀ result, FaultIn (fun fault => ∃ again, fault = .cycle result again) (graph.items result)) ∧
    ∀ pages sources,
      (∀ id, ∀ link ∈ graph.outgoing id, link.edge.label = .item →
        ∀ target ∈ link.edge.targets, FaultIn DumpFault.OfLocation
          (Locator.locate ⟨graph, pages, sources⟩ target link.edge.document)) ∧
      (∀ renderer document answers, FaultIn (SiteFault.OfQuery renderer)
        ((Query.occurrences ⟨graph, pages, sources⟩ renderer document).run answers).1) ∧
      ∀ presentation documents nav,
        FaultIn (SiteFault.OfSite presentation ⟨⟨graph, pages, sources⟩, documents, nav⟩)
          (Site.render presentation ⟨⟨graph, pages, sources⟩, documents, nav⟩) := by
  obtain ⟨elements, _, describes⟩ := describes_of_parse accepted
  refine ⟨describes.resolve_faultIn, ?_, fun pages sources => ⟨?_, ?_, ?_⟩⟩
  · intro result fault failed
    exact Items.collect_error failed
  · intro id link leaves _ target named
    exact Locator.locate_item_faultIn describes leaves named
  · intro renderer document answers
    exact (Query.occurrences_confined (fun _ kind => kind) describes document).run answers
  · intro presentation documents nav
    exact Site.render_faultIn presentation _ describes

/-- A dump with a range that is its own item and is in no document. -/
def strayDump : List Char :=
  ("\x7b\"id\":1,\"type\":\"vertex\",\"label\":\"metaData\",\"projectRoot\":\"\"\x7d\n" ++
    "\x7b\"id\":2,\"type\":\"vertex\",\"label\":\"range\"," ++
    "\"start\":\x7b\"line\":0,\"character\":0\x7d,\"end\":\x7b\"line\":0,\"character\":1\x7d\x7d\n" ++
    "\x7b\"id\":3,\"type\":\"edge\",\"label\":\"item\",\"outV\":2,\"inVs\":[2]\x7d").toList

theorem faults_after_loading_strayDump :
    ∃ graph, parse strayDump = .ok graph ∧
      (∀ start label,
        FaultIn (fun fault => ∃ again, fault = .cycle start again) (graph.resolve start label)) ∧
      ∀ renderer document answers, FaultIn (SiteFault.OfQuery renderer)
        ((Query.occurrences ⟨graph, .ofRoot "" .empty, ∅⟩ renderer document).run answers).1 := by
  obtain ⟨graph, accepted⟩ := exists_eq_ok (show (parse strayDump).isOk = true by decide +kernel)
  obtain ⟨resolved, _, located⟩ := faults_after_loading accepted
  exact ⟨graph, accepted, resolved, (located _ _).2.1⟩

end Graph

end CodeAtlas
