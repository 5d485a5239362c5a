import CodeAtlas.Proofs.Dump.Reordering
import CodeAtlas.Site.Build
import CodeAtlas.Disk.Store
import Mathlib.Data.List.Nodup

/-!
# Sites of reordered dumps

The plan of a site is sorted by paths. If these are all different, it does not show in which order the
documents stood in the dump; nor does a page, which only depends on what is asked of the graph. So two
dumps with their vertices in different orders make the same site.
-/

namespace CodeAtlas

/-! ### Plans -/

def DistinctPaths (pages : PageMap) (documents : List (ElementId × Document)) : Prop :=
  (documents.filterMap fun entry => pages.path? entry.2.uri).Nodup

theorem DistinctPaths.perm {pages : PageMap} {first second : List (ElementId × Document)}
    (distinct : DistinctPaths pages first) (perm : first.Perm second) : DistinctPaths pages second :=
  (perm.filterMap _).nodup_iff.mp distinct

namespace Plan

variable {pages : PageMap}

/-- The page that a document gets if its path is free. -/
def placed? (pages : PageMap) (entry : ElementId × Document) : Option PlannedDocument :=
  match pages.path? entry.2.uri, sourcePath entry.2.uri with
  | some path, .ok source => some ⟨entry.1, path, source, entry.2.languageId⟩
  | _, _ => none

/-- The document is left out, or its URI leads to a file. -/
def Readable (pages : PageMap) (entry : ElementId × Document) : Prop :=
  pages.path? entry.2.uri ≠ none → ∃ source, sourcePath entry.2.uri = .ok source

/-- The plan after some documents whose paths are free. -/
def extended (pages : PageMap) (plan : Plan) (documents : List (ElementId × Document)) : Plan where
  documents := (documents.filterMap (placed? pages)).reverse ++ plan.documents
  skipped := plan.skipped + documents.countP fun entry => pages.path? entry.2.uri == none

theorem hasPath_iff (plan : Plan) (path : String) : plan.hasPath path = true ↔ path ∈ plan.paths := by
  simp [hasPath, paths]

theorem foldlM_add_eq_ok_iff (documents : List (ElementId × Document)) (plan : Plan) {final : Plan}
    (distinct : (plan.paths ++ documents.filterMap fun entry => pages.path? entry.2.uri).Nodup) :
    documents.foldlM (add pages) plan = .ok final ↔
      (∀ entry ∈ documents, Readable pages entry) ∧ final = extended pages plan documents := by
  induction documents generalizing plan with
  | nil =>
    simp only [List.foldlM_nil, List.not_mem_nil, false_implies, implies_true, true_and]
    exact ⟨fun same => by cases same; rfl, fun same => by rw [same]; rfl⟩
  | cons entry documents ih =>
    rw [List.foldlM_cons, List.forall_mem_cons]
    cases mapped : pages.path? entry.2.uri with
    | none =>
      have left : add pages plan entry = .ok plan.skip := by rw [add, mapped]
      rw [left]
      refine (ih plan.skip (by simpa [skip, paths, mapped] using distinct)).trans ?_
      simp [Readable, mapped, extended, skip, placed?, Nat.add_assoc, Nat.add_comm]
    | some path =>
      simp only [List.filterMap_cons, mapped] at distinct
      have free : ¬ plan.hasPath path = true := by
        rw [hasPath_iff]
        intro taken
        exact (List.nodup_append.mp distinct).2.2 path taken path List.mem_cons_self rfl
      cases located : sourcePath entry.2.uri with
      | error fault =>
        have refused : add pages plan entry = .error fault := by
          simp [add, mapped, free, located, Except.map]
        rw [refused]
        constructor
        · intro same
          cases same
        · rintro ⟨⟨readable, _⟩, _⟩
          obtain ⟨source, leads⟩ := readable (by simp [mapped])
          cases located.symm.trans leads
      | ok source =>
        have added : add pages plan entry =
            .ok ⟨⟨entry.1, path, source, entry.2.languageId⟩ :: plan.documents, plan.skipped⟩ := by
          simp [add, mapped, free, located, Except.map]
        rw [added]
        -- The new path moves from the documents to the plan, and the list stays free of repetitions.
        refine (ih ⟨⟨entry.1, path, source, entry.2.languageId⟩ :: plan.documents, plan.skipped⟩
          (List.perm_middle.nodup_iff.mp distinct)).trans ?_
        simp [Readable, mapped, located, extended, placed?]

theorem map_path_filterMap_placed? {documents : List (ElementId × Document)}
    (readable : ∀ entry ∈ documents, Readable pages entry) :
    (documents.filterMap (placed? pages)).map PlannedDocument.path =
      documents.filterMap fun entry => pages.path? entry.2.uri := by
  rw [List.map_filterMap]
  apply List.filterMap_congr
  intro entry mem
  cases mapped : pages.path? entry.2.uri with
  | none => simp [placed?, mapped]
  | some path =>
    obtain ⟨source, leads⟩ := readable entry mem (by simp [mapped])
    simp [placed?, mapped, leads]

/-- Documents with different paths have one order by path. -/
theorem mergeSort_path_perm {first second : List PlannedDocument} (perm : first.Perm second)
    (distinct : (first.map PlannedDocument.path).Nodup) :
    first.mergeSort (fun a b => decide (a.path ≤ b.path)) =
      second.mergeSort fun a b => decide (a.path ≤ b.path) := by
  have sorted : ∀ list : List PlannedDocument,
      (list.mergeSort fun a b => decide (a.path ≤ b.path)).Pairwise fun a b =>
        decide (a.path ≤ b.path) = true := by
    refine List.pairwise_mergeSort ?_ ?_
    · intro a b c ab bc
      simp only [decide_eq_true_eq] at ab bc ⊢
      exact String.le_trans ab bc
    · intro a b
      simpa using String.le_total a.path b.path
  refine List.Perm.eq_of_pairwise ?_ (sorted first) (sorted second)
    ((List.mergeSort_perm _ _).trans (perm.trans (List.mergeSort_perm _ _).symm))
  intro a b here there ab ba
  have inFirst : b ∈ first := perm.mem_iff.mpr (List.mem_mergeSort.mp there)
  simp only [decide_eq_true_eq] at ab ba
  exact List.inj_on_of_nodup_map distinct (List.mem_mergeSort.mp here) inFirst
    (String.le_antisymm ab ba)

/-- The plan does not show the order of documents with different paths. -/
theorem ofGraph_perm {graph other : Graph} (perm : graph.documents.Perm other.documents)
    (distinct : DistinctPaths pages graph.documents) {plan : Plan}
    (planned : ofGraph graph pages = .ok plan) : ofGraph other pages = .ok plan := by
  have distinctOther := distinct.perm perm
  unfold ofGraph at planned ⊢
  obtain ⟨final, read, rfl⟩ := map_eq_ok_iff.mp planned
  obtain ⟨readable, rfl⟩ := (foldlM_add_eq_ok_iff _ empty distinct).mp read
  have readOther : other.documents.foldlM (add pages) empty =
      .ok (extended pages empty other.documents) :=
    (foldlM_add_eq_ok_iff _ empty distinctOther).mpr
      ⟨fun entry mem => readable entry (perm.mem_iff.mpr mem), rfl⟩
  have listed := perm.filterMap (placed? pages)
  have once := map_path_filterMap_placed? readable
  rw [readOther]
  simp only [extended, empty, List.append_nil, Except.map]
  rw [← perm.countP_eq, mergeSort_path_perm ((List.reverse_perm _).trans
    (listed.trans (List.reverse_perm _).symm))]
  rw [List.map_reverse, (List.reverse_perm _).nodup_iff, once]
  exact distinct

end Plan

/-! ### Sites -/

namespace Site

theorem render_agrees {graph other : Graph} (agrees : graph.Agrees other)
    (presentation : Presentation) (pages : PageMap) (sources : SourceMap)
    (documents : List PlannedDocument) (nav : List NavNode) :
    render presentation ⟨⟨graph, pages, sources⟩, documents, nav⟩ =
      render presentation ⟨⟨other, pages, sources⟩, documents, nav⟩ := by
  have page : renderPage presentation ⟨⟨graph, pages, sources⟩, documents, nav⟩ =
      renderPage presentation ⟨⟨other, pages, sources⟩, documents, nav⟩ := by
    funext document
    simp only [renderPage, agrees.occurrences, SiteInput.sourceOf]
  simp only [render, page]

theorem planned_of_agrees {graph other : Graph} {pages : PageMap} {result : Plan × List NavNode}
    (plans : ∀ plan, Plan.ofGraph graph pages = .ok plan → Plan.ofGraph other pages = .ok plan)
    (done : planned graph pages = .ok result) : planned other pages = .ok result := by
  unfold planned at done ⊢
  cases read : Plan.ofGraph graph pages with
  | error fault => simp [read, bind, Except.bind] at done
  | ok plan =>
    rw [read] at done
    rw [plans plan read]
    exact done

section Disk

variable {α β : Type} {store after : Store} {result : α}

def runOn (part : ExceptT SiteFault (StateM Store) α) (store : Store) : Except SiteFault α × Store :=
  part.run.run store

theorem run_bind_of_ok {first : ExceptT SiteFault (StateM Store) α}
    (done : runOn first store = (.ok result, after))
    (next : α → ExceptT SiteFault (StateM Store) β) :
    runOn (first >>= next) store = runOn (next result) after := by
  unfold runOn at done ⊢
  rw [ExceptT.run_bind, StateT.run_bind, done]
  rfl

theorem ok_of_run_bind {first : ExceptT SiteFault (StateM Store) β}
    {next : β → ExceptT SiteFault (StateM Store) α}
    (done : runOn (first >>= next) store = (.ok result, after)) :
    ∃ value later, runOn first store = (.ok value, later) ∧
      runOn (next value) later = (.ok result, after) := by
  cases read : runOn first store with
  | mk outcome later =>
    cases outcome with
    | ok value => exact ⟨value, later, rfl, (run_bind_of_ok read next).symm.trans done⟩
    | error fault =>
      unfold runOn at read done
      rw [ExceptT.run_bind, StateT.run_bind, read] at done
      cases done

end Disk

/-! ### Builds -/

def HoldsDump (store : Store) (path : DiskPath) (elements : List Element) : Prop :=
  ∃ bytes text, store.read path = .ok bytes ∧ Text.decodeUtf8? bytes = some text ∧
    Graph.decodeLines [] 1 (Text.lines text.toList) = .ok elements

/-- The part of a build that only reads, from the point where the dump is loaded. -/
def prepareGraph (presentation : Presentation) (uriMap : UriMap) (graph : Graph) :
    ExceptT SiteFault (StateM Store) (Site × Nat) := do
  let pages := PageMap.ofRoot graph.projectRoot uriMap
  let (plan, nav) ← liftExcept (planned graph pages)
  let sources ← plan.documents.mapM readSource
  let locator : Locator := ⟨graph, pages, .ofList sources⟩
  let site ← liftExcept (render presentation ⟨locator, plan.documents, nav⟩)
  return (site, plan.skipped)

theorem prepare_eq (presentation : Presentation) (config : SiteConfig) :
    prepare presentation config =
      (do
        let text ← readText config.input
        let graph ← liftExcept ((Graph.parse text.toList).mapError SiteFault.dump)
        prepareGraph presentation config.uriMap graph) := rfl

theorem run_readText {store : Store} {path : DiskPath} {bytes : List UInt8} {text : String}
    (read : store.read path = .ok bytes) (decoded : Text.decodeUtf8? bytes = some text) :
    runOn (readText path) store = (.ok text, store) := by
  have contents : runOn (readBytes path) store = (.ok bytes, store) := by
    have answer : StateT.run (Disk.read path : StateM Store _) store = (.ok bytes, store) := by
      rw [← read]
      rfl
    simp only [runOn, readBytes, onDisk, ExceptT.run_mk, StateT.run_bind, answer]
    rfl
  unfold readText
  rw [run_bind_of_ok contents, decoded]
  rfl

theorem run_prepare {store : Store} {config : SiteConfig} {elements : List Element} {graph : Graph}
    (holds : HoldsDump store config.input elements) (built : Graph.ofElements elements = .ok graph)
    (presentation : Presentation) :
    runOn (prepare presentation config) store =
      runOn (prepareGraph presentation config.uriMap graph) store := by
  obtain ⟨bytes, text, read, decoded, lines⟩ := holds
  have loaded : Graph.parse text.toList = .ok graph := by
    rw [Graph.parse, lines]
    exact built
  rw [prepare_eq, run_bind_of_ok (run_readText read decoded), loaded]
  rfl

theorem run_prepareGraph_of_agrees {graph other : Graph} (agrees : graph.Agrees other)
    {presentation : Presentation} {uriMap : UriMap} {store after : Store} {made : Site × Nat}
    (plans : ∀ plan, Plan.ofGraph graph (.ofRoot graph.projectRoot uriMap) = .ok plan →
      Plan.ofGraph other (.ofRoot graph.projectRoot uriMap) = .ok plan)
    (done : runOn (prepareGraph presentation uriMap graph) store = (.ok made, after)) :
    runOn (prepareGraph presentation uriMap other) store = (.ok made, after) := by
  have root : other.projectRoot = graph.projectRoot := by
    rw [Graph.projectRoot, Graph.projectRoot, agrees.metaData]
  simp only [prepareGraph, root] at done ⊢
  cases read : planned graph (.ofRoot graph.projectRoot uriMap) with
  | error fault =>
    rw [read] at done
    cases done
  | ok result =>
    rw [read] at done
    rw [planned_of_agrees plans read]
    simp only [render_agrees agrees] at done
    exact done

theorem build_bind_prepare (presentation : Presentation) (config : SiteConfig) (schedule : Schedule)
    (input : DiskPath) :
    ∃ next : Site × Nat → ExceptT SiteFault (StateM Store) BuildReport,
      build presentation config schedule = prepare presentation config >>= next ∧
      build presentation { config with input } schedule =
        prepare presentation { config with input } >>= next :=
  ⟨_, rfl, rfl⟩

theorem run_of_reordered {first second : List Element} {graph other : Graph}
    (built : Graph.ofElements first = .ok graph) (builtOther : Graph.ofElements second = .ok other)
    (perm : first.Perm second) (edges : linksOf first = linksOf second)
    (presentation : Presentation) (config : SiteConfig) (input : DiskPath) {store : Store}
    (holds : HoldsDump store config.input first) (holdsOther : HoldsDump store input second)
    (distinct : DistinctPaths (.ofRoot graph.projectRoot config.uriMap) graph.documents)
    {made : Site × Nat} {after : Store}
    (done : runOn (prepare presentation config) store = (.ok made, after)) :
    runOn (prepare presentation { config with input }) store = (.ok made, after) := by
  have describes := Graph.describes_of_ofElements built
  have describesOther := Graph.describes_of_ofElements builtOther
  rw [run_prepare holds built] at done
  rw [run_prepare (show HoldsDump store { config with input }.input second from holdsOther) builtOther]
  exact run_prepareGraph_of_agrees (describes.agrees describesOther perm edges)
    (fun plan => Plan.ofGraph_perm (describes.documents_perm describesOther perm) distinct) done

/-- Two dumps with the same edges in the same order, and with the same vertices in any, are accepted or
refused together. Their graphs answer alike; and if no two documents have one path, they are planned
alike and make the same site: a build from one dump gives the result of a build from the other. -/
theorem reordered_dumps_alike {first second : List Element} (perm : first.Perm second)
    (edges : linksOf first = linksOf second) :
    ((∃ graph, Graph.ofElements first = .ok graph) ↔ ∃ graph, Graph.ofElements second = .ok graph) ∧
    ∀ graph other, Graph.ofElements first = .ok graph → Graph.ofElements second = .ok other →
      (∀ id, graph.get? id = other.get? id ∧ graph.outgoing id = other.outgoing id ∧
        graph.incoming id = other.incoming id ∧ graph.items id = other.items id ∧
        ∀ label, graph.resolve id label = other.resolve id label) ∧
      (∀ pages sources id,
        Locator.owner? ⟨graph, pages, sources⟩ id = Locator.owner? ⟨other, pages, sources⟩ id ∧
        ∀ hint, Locator.locate ⟨graph, pages, sources⟩ id hint =
          Locator.locate ⟨other, pages, sources⟩ id hint) ∧
      (∀ pages, DistinctPaths pages graph.documents →
        ∀ plan, Plan.ofGraph graph pages = .ok plan ↔ Plan.ofGraph other pages = .ok plan) ∧
      ∀ presentation config input store,
        HoldsDump store config.input first → HoldsDump store input second →
        DistinctPaths (.ofRoot graph.projectRoot config.uriMap) graph.documents →
          (∀ made after, runOn (prepare presentation config) store = (.ok made, after) ↔
            runOn (prepare presentation { config with input }) store = (.ok made, after)) ∧
          ∀ schedule report after,
            runOn (build presentation config schedule) store = (.ok report, after) ↔
              runOn (build presentation { config with input } schedule) store = (.ok report, after) := by
  refine ⟨?_, fun graph other built builtOther => ?_⟩
  · rw [Graph.exists_ofElements_iff, Graph.exists_ofElements_iff]
    exact ⟨fun wellFormed => wellFormed.perm perm, fun wellFormed => wellFormed.perm perm.symm⟩
  · have describes := Graph.describes_of_ofElements built
    have describesOther := Graph.describes_of_ofElements builtOther
    have agrees := describes.agrees describesOther perm edges
    have documents := describes.documents_perm describesOther perm
    refine ⟨?_, ?_, ?_, ?_⟩
    · intro id
      exact ⟨agrees.get id, agrees.outgoing id, agrees.incoming id, agrees.items id,
        agrees.resolve id⟩
    · intro pages sources id
      exact ⟨agrees.owner? pages sources id, agrees.locate pages sources id⟩
    · intro pages distinct plan
      exact ⟨Plan.ofGraph_perm documents distinct,
        Plan.ofGraph_perm documents.symm (distinct.perm documents)⟩
    · intro presentation config input store holds holdsOther distinct
      have distinctOther : DistinctPaths (.ofRoot other.projectRoot config.uriMap)
          other.documents := by
        rw [Graph.projectRoot, ← agrees.metaData]
        exact distinct.perm documents
      have prepared : ∀ made after, runOn (prepare presentation config) store = (.ok made, after) ↔
          runOn (prepare presentation { config with input }) store = (.ok made, after) := by
        intro made after
        exact ⟨run_of_reordered built builtOther perm edges presentation config input holds holdsOther
            distinct,
          run_of_reordered builtOther built perm.symm edges.symm presentation { config with input }
            config.input holdsOther holds distinctOther⟩
      refine ⟨prepared, fun schedule report after => ?_⟩
      -- Only the first part of a build reads the dump.
      obtain ⟨next, here, there⟩ := build_bind_prepare presentation config schedule input
      rw [here, there]
      constructor
      · intro done
        obtain ⟨made, later, read, rest⟩ := ok_of_run_bind done
        rw [run_bind_of_ok ((prepared made later).mp read), rest]
      · intro done
        obtain ⟨made, later, read, rest⟩ := ok_of_run_bind done
        rw [run_bind_of_ok ((prepared made later).mpr read), rest]

def twoDocuments : List Element :=
  [⟨.ofNat 1, .vertex (.metaData ⟨"file:///repo", none, none⟩)⟩,
    ⟨.ofNat 2, .vertex (.document ⟨"file:///repo/b.go", "go"⟩)⟩,
    ⟨.ofNat 3, .vertex (.document ⟨"file:///repo/a.go", "go"⟩)⟩,
    ⟨.ofNat 4, .vertex (.range ⟨⟨0, 0⟩, ⟨0, 1⟩⟩)⟩,
    ⟨.ofNat 5, .vertex .resultSet⟩]

def twoLinks : List Element :=
  [⟨.ofNat 6, .edge ⟨.contains, .ofNat 2, .ofNat 4, [], none, none⟩⟩,
    ⟨.ofNat 7, .edge ⟨.next, .ofNat 4, .ofNat 5, [], none, none⟩⟩]

theorem reordered_dumps_alike_twoDocuments :
    ∃ graph other, Graph.ofElements (twoDocuments ++ twoLinks) = .ok graph ∧
      Graph.ofElements (twoLinks ++ twoDocuments.reverse) = .ok other ∧
      (∀ id label, graph.resolve id label = other.resolve id label) ∧
      ∀ plan, Plan.ofGraph graph (.ofRoot "file:///repo" .empty) = .ok plan ↔
        Plan.ofGraph other (.ofRoot "file:///repo" .empty) = .ok plan := by
  have perm : (twoDocuments ++ twoLinks).Perm (twoLinks ++ twoDocuments.reverse) :=
    List.perm_append_comm.trans ((List.reverse_perm _).symm.append_left _)
  obtain ⟨graph, built⟩ := exists_eq_ok
    (show (Graph.ofElements (twoDocuments ++ twoLinks)).isOk = true by decide)
  obtain ⟨accepted, alike⟩ := reordered_dumps_alike perm (by decide)
  obtain ⟨other, builtOther⟩ := accepted.mp ⟨graph, built⟩
  obtain ⟨answers, _, plans, _⟩ := alike graph other built builtOther
  refine ⟨graph, other, built, builtOther, fun id => (answers id).2.2.2.2, plans _ ?_⟩
  rw [(Graph.describes_of_ofElements built).documents]
  unfold DistinctPaths
  decide

end Site

end CodeAtlas
