import CodeAtlas.Proofs.Page.Navigation
import Mathlib.Data.List.Induction

/-!
# Which documents are planned

The first document of the dump that has a path gets the page there; all others are left out. A plan fails
only if the URI of such a first document does not lead to a file, since no other URI is ever looked at.
-/

namespace CodeAtlas

def documentsOf (elements : List Element) : List (ElementId × Document) :=
  elements.filterMap Element.document?

theorem nodup_documentsOf {elements : List Element} (ids : (elements.map Element.id).Nodup) :
    ((documentsOf elements).map Prod.fst).Nodup := by
  have part : ((documentsOf elements).map Prod.fst).Sublist (elements.map Element.id) := by
    unfold documentsOf
    induction elements with
    | nil => exact .refl _
    | cons element elements ih =>
      have inside := ih (List.nodup_cons.mp ids).2
      cases document : element.document? with
      | none =>
        rw [List.filterMap_cons_none document]
        exact inside.cons _
      | some entry =>
        have same : entry.1 = element.id := by
          unfold Element.document? at document
          split at document <;> cases document
          rfl
        rw [List.filterMap_cons_some document, List.map_cons, List.map_cons, same]
        exact inside.cons_cons _
  exact ids.sublist part

namespace Plan

variable {pages : PageMap} {documents : List (ElementId × Document)} {plan : Plan} {path : String}

def first? (pages : PageMap) (documents : List (ElementId × Document)) (path : String) :
    Option (ElementId × Document) :=
  documents.find? fun entry => pages.path? entry.2.uri == some path

theorem path?_of_first? {entry : ElementId × Document} (found : first? pages documents path = some entry) :
    pages.path? entry.2.uri = some path := by
  simpa using List.find?_some found

theorem first?_ne_none_iff : first? pages documents path ≠ none ↔ Mapped pages documents path := by
  simp [first?, Mapped]

/-- A later document is the first with a path only if none before it has the path. -/
theorem first?_concat (entry : ElementId × Document) (path : String) :
    first? pages (documents ++ [entry]) path =
      (first? pages documents path).or (if pages.path? entry.2.uri = some path then some entry else none) := by
  rw [first?, List.find?_append, first?]
  by_cases same : pages.path? entry.2.uri = some path <;> simp [same]

theorem first?_concat_of_known {entry : ElementId × Document}
    (known : ∀ path, pages.path? entry.2.uri = some path → first? pages documents path ≠ none) :
    first? pages (documents ++ [entry]) = first? pages documents := by
  funext path
  rw [first?_concat]
  cases found : first? pages documents path with
  | some other => rfl
  | none => exact if_neg fun same => known path same found

def hasId (plan : Plan) (id : ElementId) : Bool :=
  plan.documents.any fun planned => planned.id == id

theorem hasId_iff (plan : Plan) (id : ElementId) :
    plan.hasId id = true ↔ ∃ planned ∈ plan.documents, planned.id = id := by
  simp [hasId]

structure Covers (pages : PageMap) (documents : List (ElementId × Document)) (plan : Plan) : Prop where
  counted : plan.documents.length + plan.skipped = documents.length
  listed : ∀ planned, planned ∈ plan.documents ↔
    ∃ path entry, first? pages documents path = some entry ∧ placed? pages entry = some planned
  readable : ∀ path entry, first? pages documents path = some entry → ∃ source, sourcePath entry.2.uri = .ok source

theorem placed?_eq_some {entry : ElementId × Document} {planned : PlannedDocument} :
    placed? pages entry = some planned ↔ pages.path? entry.2.uri = some planned.path ∧
      sourcePath entry.2.uri = .ok planned.source ∧ planned.id = entry.1 ∧
      planned.languageId = entry.2.languageId := by
  unfold placed?
  split
  · rename_i path source mapped located
    rw [mapped, located, Option.some.injEq]
    constructor
    · rintro rfl
      exact ⟨rfl, rfl, rfl, rfl⟩
    · rintro ⟨samePath, sameSource, sameId, sameLanguage⟩
      obtain ⟨id, path', source', language⟩ := planned
      cases samePath
      cases sameSource
      cases sameId
      cases sameLanguage
      rfl
  · rename_i unplaced
    simp only [reduceCtorEq, false_iff]
    rintro ⟨mapped, located, _⟩
    exact unplaced _ _ mapped located

theorem covers_empty (pages : PageMap) : Covers pages [] empty where
  counted := rfl
  listed := by simp [empty, first?]
  readable := by simp [first?]

theorem Covers.exists_planned (covers : Covers pages documents plan) {entry : ElementId × Document}
    (found : first? pages documents path = some entry) :
    ∃ planned ∈ plan.documents, planned.path = path ∧ planned.id = entry.1 := by
  obtain ⟨source, located⟩ := covers.readable path entry found
  have placed : placed? pages entry = some ⟨entry.1, path, source, entry.2.languageId⟩ :=
    placed?_eq_some.mpr ⟨path?_of_first? found, located, rfl, rfl⟩
  exact ⟨_, (covers.listed _).mpr ⟨path, entry, found, placed⟩, rfl, rfl⟩

theorem Covers.mem_paths_iff (covers : Covers pages documents plan) :
    path ∈ plan.paths ↔ first? pages documents path ≠ none := by
  rw [paths, List.mem_map]
  constructor
  · rintro ⟨planned, mem, rfl⟩
    obtain ⟨path, entry, found, placed⟩ := (covers.listed planned).mp mem
    have same := path?_of_first? found
    rw [(placed?_eq_some.mp placed).1] at same
    cases same
    simp [found]
  · intro known
    obtain ⟨entry, found⟩ := Option.ne_none_iff_exists'.mp known
    obtain ⟨planned, mem, same, _⟩ := covers.exists_planned found
    exact ⟨planned, mem, same⟩

theorem Covers.skip (covers : Covers pages documents plan) {entry : ElementId × Document}
    (known : ∀ path, pages.path? entry.2.uri = some path → first? pages documents path ≠ none) :
    Covers pages (documents ++ [entry]) plan.skip := by
  have same := first?_concat_of_known known
  refine ⟨?_, ?_, ?_⟩
  · rw [List.length_append, ← covers.counted, List.length_singleton, Nat.add_assoc]
    rfl
  · rw [same]
    exact covers.listed
  · rw [same]
    exact covers.readable

theorem Covers.place (covers : Covers pages documents plan) {entry : ElementId × Document}
    {planned : PlannedDocument} (placed : placed? pages entry = some planned)
    (free : first? pages documents planned.path = none) :
    Covers pages (documents ++ [entry]) { plan with documents := planned :: plan.documents } := by
  obtain ⟨mapped, located, _⟩ := placed?_eq_some.mp placed
  have cases : ∀ path other, first? pages (documents ++ [entry]) path = some other ↔
      first? pages documents path = some other ∨ path = planned.path ∧ entry = other := by
    intro path other
    simp only [first?_concat, mapped, Option.some.injEq]
    by_cases same : planned.path = path
    · subst same
      simp [free]
    · simp [same, Ne.symm same]
  refine ⟨?_, fun third => ?_, fun path other found => ?_⟩
  · have counted := covers.counted
    simp only [List.length_append, List.length_cons, List.length_nil]
    omega
  · simp only [cases, List.mem_cons, covers.listed]
    constructor
    · rintro (rfl | ⟨path, other, found, third⟩)
      · exact ⟨third.path, entry, .inr ⟨rfl, rfl⟩, placed⟩
      · exact ⟨path, other, .inl found, third⟩
    · rintro ⟨path, other, found | ⟨_, rfl⟩, third⟩
      · exact .inr ⟨path, other, found, third⟩
      · exact .inl (Option.some.inj (third.symm.trans placed))
  · rcases (cases path other).mp found with found | ⟨_, rfl⟩
    · exact covers.readable path other found
    · exact ⟨planned.source, located⟩

/-- One more document is left out, gets its page, or has a URI that cannot be read though its path is
free. -/
theorem Covers.add (covers : Covers pages documents plan) (entry : ElementId × Document) :
    (∃ next, add pages plan entry = .ok next ∧ Covers pages (documents ++ [entry]) next) ∨
    ∃ fault path, add pages plan entry = .error fault ∧ sourcePath entry.2.uri = .error fault ∧
      first? pages (documents ++ [entry]) path = some entry := by
  unfold Plan.add
  cases mapped : pages.path? entry.2.uri with
  | none => exact .inl ⟨plan.skip, rfl, covers.skip (by simp [mapped])⟩
  | some path =>
    dsimp only
    by_cases taken : plan.hasPath path = true
    · have known := covers.mem_paths_iff.mp ((hasPath_iff plan path).mp taken)
      refine .inl ⟨plan.skip, if_pos taken, covers.skip fun other same => ?_⟩
      cases mapped.symm.trans same
      exact known
    · have free : first? pages documents path = none := by
        rw [hasPath_iff, covers.mem_paths_iff, not_not] at taken
        exact taken
      rw [if_neg taken]
      cases located : sourcePath entry.2.uri with
      | error fault =>
        refine .inr ⟨fault, path, rfl, rfl, ?_⟩
        rw [first?_concat, free, mapped, if_pos rfl]
        rfl
      | ok source =>
        refine .inl ⟨_, rfl, covers.place ?_ free⟩
        exact placed?_eq_some.mpr ⟨mapped, located, rfl, rfl⟩

/-- Going through some documents gives their plan, or stops at the first with a path whose URI cannot be
read. -/
theorem foldlM_add_outcome (pages : PageMap) (documents : List (ElementId × Document)) :
    (∃ plan, documents.foldlM (add pages) empty = .ok plan ∧ Covers pages documents plan) ∨
    ∃ fault path entry, documents.foldlM (add pages) empty = .error fault ∧
      sourcePath entry.2.uri = .error fault ∧ first? pages documents path = some entry := by
  induction documents using List.reverseRecOn with
  | nil => exact .inl ⟨empty, rfl, covers_empty pages⟩
  | append_singleton documents entry ih =>
    rw [List.foldlM_append]
    rcases ih with ⟨plan, done, covers⟩ | ⟨fault, path, other, failed, unread, found⟩
    · rw [done]
      rcases covers.add entry with ⟨next, added, covers⟩ | ⟨fault, path, failed, unread, found⟩
      · refine .inl ⟨next, ?_, covers⟩
        change (Plan.add pages plan entry >>= pure) = _
        rw [added]
        rfl
      · refine .inr ⟨fault, path, entry, ?_, unread, found⟩
        change (Plan.add pages plan entry >>= pure) = _
        rw [failed]
        rfl
    · refine .inr ⟨fault, path, other, ?_, unread, ?_⟩
      · rw [failed]
        rfl
      · rw [first?_concat, found]
        rfl

theorem Covers.perm (covers : Covers pages documents plan) {sorted : List PlannedDocument}
    (perm : sorted.Perm plan.documents) : Covers pages documents { plan with documents := sorted } where
  counted := by
    rw [← covers.counted]
    exact congrArg (· + plan.skipped) perm.length_eq
  listed planned := perm.mem_iff.trans (covers.listed planned)
  readable := covers.readable

theorem ofGraph_outcome (graph : Graph) (pages : PageMap) :
    (∃ plan, ofGraph graph pages = .ok plan ∧ Covers pages graph.documents plan) ∨
    ∃ fault path entry, ofGraph graph pages = .error fault ∧ sourcePath entry.2.uri = .error fault ∧
      first? pages graph.documents path = some entry := by
  unfold ofGraph
  rcases foldlM_add_outcome pages graph.documents with ⟨plan, done, covers⟩ | ⟨fault, path, entry, failed, rest⟩
  · rw [done]
    exact .inl ⟨_, rfl, covers.perm (List.mergeSort_perm _ _)⟩
  · rw [failed]
    exact .inr ⟨fault, path, entry, rfl, rest⟩

theorem covers_of_ofGraph {graph : Graph} (planned : ofGraph graph pages = .ok plan) :
    Covers pages graph.documents plan := by
  rcases ofGraph_outcome graph pages with ⟨_, same, covers⟩ | ⟨_, _, _, failed, _⟩
  · cases same.symm.trans planned
    exact covers
  · cases failed.symm.trans planned

/-- The documents whose ids the plan does not have are the ones it counts as left out. -/
theorem Covers.skipped_eq (covers : Covers pages documents plan) (ids : (documents.map Prod.fst).Nodup)
    (once : plan.paths.Nodup) :
    plan.skipped = documents.countP fun entry => !(plan.hasId entry.1) := by
  have found : ∀ planned ∈ plan.documents, ∃ entry ∈ documents, entry.1 = planned.id ∧
      pages.path? entry.2.uri = some planned.path := by
    intro planned mem
    obtain ⟨path, entry, first, placed⟩ := (covers.listed planned).mp mem
    obtain ⟨mapped, _, same, _⟩ := placed?_eq_some.mp placed
    exact ⟨entry, List.mem_of_find?_eq_some first, same.symm, mapped⟩
  have distinct : (plan.documents.map PlannedDocument.id).Nodup := by
    refine List.Nodup.map_on (fun one here other there same => ?_) (List.Nodup.of_map _ once)
    obtain ⟨entry, mem, isOne, mapped⟩ := found one here
    obtain ⟨entry', mem', isOther, mapped'⟩ := found other there
    obtain rfl := List.inj_on_of_nodup_map ids mem mem' (isOne.trans (same.trans isOther.symm))
    exact List.inj_on_of_nodup_map once here there (Option.some.inj (mapped.symm.trans mapped'))
  -- The documents with planned ids are as many as the plan has.
  have same : ((documents.filter fun entry => plan.hasId entry.1).map Prod.fst).Perm
      (plan.documents.map PlannedDocument.id) := by
    refine (List.perm_ext_iff_of_nodup (ids.sublist (List.filter_sublist.map _)) distinct).mpr fun id => ?_
    simp only [List.mem_map, List.mem_filter, hasId_iff]
    constructor
    · rintro ⟨entry, ⟨_, planned, mem, same⟩, rfl⟩
      exact ⟨planned, mem, same⟩
    · rintro ⟨planned, mem, rfl⟩
      obtain ⟨entry, listed, same, _⟩ := found planned mem
      exact ⟨entry, ⟨listed, planned, mem, same.symm⟩, same⟩
  have many := same.length_eq
  rw [List.length_map, List.length_map, ← List.countP_eq_length_filter] at many
  have split : documents.length = documents.countP (fun entry => plan.hasId entry.1) +
      documents.countP (fun entry => !(plan.hasId entry.1)) := by
    simpa using List.length_eq_countP_add_countP (l := documents) fun entry => plan.hasId entry.1
  have counted := covers.counted
  omega

/-- A plan divides the documents of the dump: the first with each path gets the page there, all others are
counted as left out, and the pages are in the order of the bytes of their paths. There is no plan only if
the URI of one of those first documents leads to no file. -/
theorem plan_divides_documents {elements : List Element} {graph : Graph}
    (built : Graph.ofElements elements = .ok graph) (pages : PageMap) :
    ((∃ fault, ofGraph graph pages = .error fault) ↔
      ∃ path entry fault, first? pages (documentsOf elements) path = some entry ∧
        sourcePath entry.2.uri = .error fault) ∧
    ∀ plan, ofGraph graph pages = .ok plan →
      plan.documents.length + plan.skipped = (documentsOf elements).length ∧
      (plan.paths.map Text.bytesOf).Pairwise (· < ·) ∧
      (∀ path, path ∈ plan.paths ↔ ∃ entry ∈ documentsOf elements, pages.path? entry.2.uri = some path) ∧
      (∀ planned ∈ plan.documents, ∃ document,
        first? pages (documentsOf elements) planned.path = some (planned.id, document) ∧
        sourcePath document.uri = .ok planned.source ∧ planned.languageId = document.languageId) ∧
      plan.skipped = (documentsOf elements).countP fun entry => !(plan.hasId entry.1) := by
  have describes := Graph.describes_of_ofElements built
  have documents : graph.documents = documentsOf elements := describes.documents
  have outcome := ofGraph_outcome graph pages
  rw [documents] at outcome
  refine ⟨⟨?_, ?_⟩, fun plan planned => ?_⟩
  · rintro ⟨fault, failed⟩
    rcases outcome with ⟨plan, planned, _⟩ | ⟨fault, path, entry, _, unread, first⟩
    · cases planned.symm.trans failed
    · exact ⟨path, entry, fault, first, unread⟩
  · rintro ⟨path, entry, fault, first, unread⟩
    rcases outcome with ⟨plan, _, covers⟩ | ⟨fault, _, _, failed, _⟩
    · obtain ⟨source, read⟩ := covers.readable path entry first
      cases read.symm.trans unread
    · exact ⟨fault, failed⟩
  · have covers := covers_of_ofGraph planned
    obtain ⟨once, listed⟩ := ofGraph_paths planned
    rw [documents] at covers listed
    refine ⟨covers.counted, ?_, listed, fun document mem => ?_, ?_⟩
    · exact List.pairwise_map.mpr ((sorted_paths planned).imp Text.bytesOf_lt)
    · obtain ⟨path, ⟨id, held⟩, first, placed⟩ := (covers.listed document).mp mem
      obtain ⟨mapped, located, rfl, language⟩ := placed?_eq_some.mp placed
      cases (path?_of_first? first).symm.trans mapped
      exact ⟨held, first, located, language⟩
    · exact covers.skipped_eq (nodup_documentsOf describes.ids) once

/-- Two documents have the path `b`, and the URI of the second leads to no file. The last has no path. -/
def sharedPathDump : List Element :=
  [⟨.ofNat 1, .vertex (.metaData ⟨"file:///r", none, none⟩)⟩,
    ⟨.ofNat 2, .vertex (.document ⟨"file:///r/b", ""⟩)⟩,
    ⟨.ofNat 3, .vertex (.document ⟨"ext:b", ""⟩)⟩,
    ⟨.ofNat 4, .vertex (.document ⟨"file:///r/a", ""⟩)⟩,
    ⟨.ofNat 5, .vertex (.document ⟨"http://o/x", ""⟩)⟩]

def sharedPathPages : PageMap :=
  .ofRoot "file:///r" ⟨[("ext:", "")]⟩

theorem plan_divides_sharedPathDump : ∃ graph plan, Graph.ofElements sharedPathDump = .ok graph ∧
    ofGraph graph sharedPathPages = .ok plan ∧ plan.skipped = 2 ∧ plan.documents.length = 2 ∧
    (plan.paths.map Text.bytesOf).Pairwise (· < ·) ∧
    ∃ planned ∈ plan.documents, planned.path = "b" ∧ planned.id = .ofNat 2 := by
  obtain ⟨graph, built⟩ := exists_eq_ok (show (Graph.ofElements sharedPathDump).isOk = true by decide)
  have skips : (ofGraph graph sharedPathPages).toOption.map Plan.skipped = some 2 := by
    unfold ofGraph
    rw [(Graph.describes_of_ofElements built).documents]
    decide
  obtain ⟨plan, done, skipped⟩ := Option.map_eq_some_iff.mp skips
  have planned := ok_of_toOption_eq_some done
  obtain ⟨counted, sorted, listed, first, _⟩ := (plan_divides_documents built sharedPathPages).2 plan planned
  have four : (documentsOf sharedPathDump).length = 4 := by decide
  have isPath : "b" ∈ plan.paths :=
    (listed "b").mpr ⟨(.ofNat 2, ⟨"file:///r/b", ""⟩), by decide, by decide⟩
  obtain ⟨shown, mem, path⟩ := List.mem_map.mp isPath
  obtain ⟨document, found, _⟩ := first shown mem
  have isFirst : first? sharedPathPages (documentsOf sharedPathDump) "b" =
      some (.ofNat 2, ⟨"file:///r/b", ""⟩) := by decide
  rw [path, isFirst] at found
  refine ⟨graph, plan, built, planned, skipped, by omega, sorted, shown, mem, path, ?_⟩
  exact (Prod.mk.inj (Option.some.inj found)).1.symm

end Plan

end CodeAtlas
