import CodeAtlas.Proofs.Address.Containment
import CodeAtlas.Proofs.Dump.Adjacency
import CodeAtlas.Proofs.Site.Reordering
import CodeAtlas.Proofs.Symbol.Occurrences
import CodeAtlas.Proofs.Text.Encoding

/-!
# What a build reads

The first part of a build reads the disk and leaves it as it is. What it makes of it is a function of the
disk (`Site.loadOn`), and the site is drawn from that alone. The plan holds each path that some document
has, once.
-/

namespace CodeAtlas

/-! ### Plans -/

namespace Plan

variable {pages : PageMap}

def Mapped (pages : PageMap) (documents : List (ElementId × Document)) (path : String) : Prop :=
  ∃ entry ∈ documents, pages.path? entry.2.uri = some path

theorem add_cases {plan next : Plan} {entry : ElementId × Document}
    (added : add pages plan entry = .ok next) :
    next.paths = plan.paths ∧ (∀ path, pages.path? entry.2.uri = some path → path ∈ plan.paths) ∨
    ∃ path, pages.path? entry.2.uri = some path ∧ path ∉ plan.paths ∧
      next.paths = path :: plan.paths := by
  unfold add at added
  split at added
  · rename_i unmapped
    cases added
    exact .inl ⟨rfl, fun path mapped => by cases unmapped.symm.trans mapped⟩
  · rename_i path mapped
    split at added
    · rename_i taken
      cases added
      refine .inl ⟨rfl, fun other same => ?_⟩
      cases mapped.symm.trans same
      exact (hasPath_iff plan path).mp taken
    · rename_i free
      obtain ⟨source, _, rfl⟩ := map_eq_ok_iff.mp added
      exact .inr ⟨path, mapped, fun mem => free ((hasPath_iff plan path).mpr mem), rfl⟩

theorem foldlM_add_paths {documents : List (ElementId × Document)} {plan final : Plan}
    (done : documents.foldlM (add pages) plan = .ok final) (once : plan.paths.Nodup) :
    final.paths.Nodup ∧
      ∀ path, path ∈ final.paths ↔ path ∈ plan.paths ∨ Mapped pages documents path := by
  induction documents generalizing plan with
  | nil =>
    cases done
    exact ⟨once, fun path => by simp [Mapped]⟩
  | cons entry documents ih =>
    rw [List.foldlM_cons] at done
    cases added : add pages plan entry with
    | error fault =>
      rw [added] at done
      cases done
    | ok next =>
      rw [added] at done
      rcases add_cases added with ⟨same, taken⟩ | ⟨path, mapped, free, more⟩
      · obtain ⟨distinct, listed⟩ := ih done (same ▸ once)
        refine ⟨distinct, fun other => ?_⟩
        rw [listed, same]
        simp only [Mapped, List.mem_cons, exists_eq_or_imp]
        exact ⟨fun known => known.elim .inl fun later => .inr (.inr later),
          fun known => known.elim .inl fun
            | .inl first => .inl (taken other first)
            | .inr later => .inr later⟩
      · obtain ⟨distinct, listed⟩ := ih done (more ▸ List.nodup_cons.mpr ⟨free, once⟩)
        refine ⟨distinct, fun other => ?_⟩
        rw [listed, more, List.mem_cons]
        simp only [Mapped, List.mem_cons, exists_eq_or_imp, mapped, Option.some.injEq, @eq_comm _ path,
          or_assoc, or_left_comm]

/-- A plan holds the paths of the dump's documents, each once. -/
theorem ofGraph_paths {graph : Graph} {plan : Plan} (done : ofGraph graph pages = .ok plan) :
    plan.paths.Nodup ∧ ∀ path, path ∈ plan.paths ↔ Mapped pages graph.documents path := by
  unfold ofGraph at done
  obtain ⟨final, added, rfl⟩ := map_eq_ok_iff.mp done
  obtain ⟨distinct, listed⟩ := foldlM_add_paths added List.nodup_nil
  have sorted := (List.mergeSort_perm final.documents fun a b => decide (a.path ≤ b.path)).map
    PlannedDocument.path
  refine ⟨sorted.nodup_iff.mpr distinct, fun path => ?_⟩
  exact sorted.mem_iff.trans ((listed path).trans (by simp [empty, paths]))

end Plan

/-! ### Reading -/

/-- What is known about what a build has read. -/
structure SiteInput.Sound (input : SiteInput) : Prop where
  described : ∃ elements, input.locator.graph.Describes elements
  once : (input.documents.map PlannedDocument.path).Nodup
  /-- A path is one of theirs if some document of the dump has it. -/
  mapped : ∀ path, path ∈ input.documents.map PlannedDocument.path ↔
    Plan.Mapped input.locator.pages input.locator.graph.documents path

namespace Site

variable {α β : Type}

/-- The part of a build leaves the disk as it is, and its result is a function of the disk. -/
def Reads (part : ExceptT SiteFault (StateM Store) α) (result : Store → Except SiteFault α) : Prop :=
  ∀ store, runOn part store = (result store, store)

theorem exists_run_eq_ok {part : ExceptT SiteFault (StateM Store) α} {store : Store}
    (ok : (runOn part store).1.isOk = true) : ∃ value after, runOn part store = (.ok value, after) := by
  obtain ⟨value, same⟩ := exists_eq_ok ok
  exact ⟨value, (runOn part store).2, Prod.ext same rfl⟩

theorem run_bind_of_error {first : ExceptT SiteFault (StateM Store) α} {store after : Store}
    {fault : SiteFault} (failed : runOn first store = (.error fault, after))
    (next : α → ExceptT SiteFault (StateM Store) β) :
    runOn (first >>= next) store = (.error fault, after) := by
  unfold runOn at failed ⊢
  rw [ExceptT.run_bind, StateT.run_bind, failed]
  rfl

theorem Reads.bind {first : ExceptT SiteFault (StateM Store) α} {value : Store → Except SiteFault α}
    (reads : Reads first value) {next : α → ExceptT SiteFault (StateM Store) β}
    {result : α → Store → Except SiteFault β} (later : ∀ a, Reads (next a) (result a)) :
    Reads (first >>= next) fun store => value store >>= fun a => result a store := by
  intro store
  have read := reads store
  dsimp only
  cases outcome : value store with
  | error fault =>
    rw [outcome] at read
    exact run_bind_of_error read next
  | ok a =>
    rw [outcome] at read
    rw [run_bind_of_ok read]
    exact later a store

theorem reads_pure (value : α) : Reads (pure value) fun _ => .ok value :=
  fun _ => rfl

theorem reads_liftExcept (result : Except SiteFault α) : Reads (liftExcept result) fun _ => result := by
  intro store
  cases result <;> rfl

theorem Reads.map {part : ExceptT SiteFault (StateM Store) α} {value : Store → Except SiteFault α}
    (reads : Reads part value) (f : α → β) : Reads (f <$> part) fun store => (value store).map f := by
  rw [map_eq_pure_bind]
  have mapped := reads.bind fun a => reads_pure (f a)
  intro store
  rw [mapped store]
  cases value store <;> rfl

theorem Reads.mapM {next : α → ExceptT SiteFault (StateM Store) β}
    {result : α → Store → Except SiteFault β} (reads : ∀ a, Reads (next a) (result a))
    (list : List α) : Reads (list.mapM next) fun store => list.mapM fun a => result a store := by
  induction list with
  | nil => exact reads_pure []
  | cons first rest ih =>
    simp only [List.mapM_cons]
    exact (reads first).bind fun value => ih.bind fun values => reads_pure (value :: values)

def bytesOn (path : DiskPath) (store : Store) : Except SiteFault (List UInt8) :=
  (store.read path).mapError (SiteFault.disk path)

def textOn (path : DiskPath) (store : Store) : Except SiteFault String := do
  match Text.decodeUtf8? (← bytesOn path store) with
  | some text => .ok text
  | none => .error (.disk path .notUtf8)

def sourceOn (document : PlannedDocument) (store : Store) :
    Except SiteFault (ElementId × SourceText) := do
  .ok (document.id, .ofText (Text.decodeLossy (← bytesOn document.source store)))

/-- What a site is made from with the given text as its dump, and how many documents are left out. -/
def loadFrom (config : SiteConfig) (dump : List Char) (store : Store) :
    Except SiteFault (SiteInput × Nat) := do
  let graph ← (Graph.parse dump).mapError SiteFault.dump
  let pages := PageMap.ofRoot graph.projectRoot config.uriMap
  let (plan, nav) ← planned graph pages
  let sources ← plan.documents.mapM fun document => sourceOn document store
  .ok (⟨⟨graph, pages, .ofList sources⟩, plan.documents, nav⟩, plan.skipped)

def loadOn (config : SiteConfig) (store : Store) : Except SiteFault (SiteInput × Nat) := do
  let text ← textOn config.input store
  loadFrom config text.toList store

theorem reads_readBytes (path : DiskPath) : Reads (readBytes path) (bytesOn path) := by
  intro store
  have answer : StateT.run (Disk.read path : StateM Store _) store = (store.read path, store) := rfl
  simp only [runOn, readBytes, onDisk, ExceptT.run_mk, StateT.run_bind, answer, bytesOn]
  cases store.read path <;> rfl

theorem reads_readText (path : DiskPath) : Reads (readText path) (textOn path) := by
  refine (reads_readBytes path).bind fun bytes => ?_
  cases Text.decodeUtf8? bytes <;> exact fun _ => rfl

theorem reads_readSource (document : PlannedDocument) :
    Reads (readSource document) (sourceOn document) :=
  (reads_readBytes document.source).bind fun _ => reads_pure _

def drawOn (presentation : Presentation) (config : SiteConfig) (store : Store) :
    Except SiteFault (Site × Nat) := do
  let (input, skipped) ← loadOn config store
  let site ← render presentation input
  .ok (site, skipped)

theorem reads_prepare (presentation : Presentation) (config : SiteConfig) :
    Reads (prepare presentation config) (drawOn presentation config) := by
  have parts : Reads (prepare presentation config) (fun store => do
      let text ← textOn config.input store
      let graph ← (Graph.parse text.toList).mapError SiteFault.dump
      let found ← planned graph (.ofRoot graph.projectRoot config.uriMap)
      let sources ← found.1.documents.mapM fun document => sourceOn document store
      let site ← render presentation ⟨⟨graph, .ofRoot graph.projectRoot config.uriMap,
        .ofList sources⟩, found.1.documents, found.2⟩
      .ok (site, found.1.skipped)) := by
    refine (reads_readText config.input).bind fun text => ?_
    refine (reads_liftExcept _).bind fun graph => ?_
    refine (reads_liftExcept _).bind fun found => ?_
    refine (Reads.mapM reads_readSource found.1.documents).bind fun sources => ?_
    exact (reads_liftExcept _).bind fun site => reads_pure (site, found.1.skipped)
  intro store
  rw [parts store]
  simp only [drawOn, loadOn, loadFrom, bind_assoc]
  rfl

theorem drawOn_eq_ok {presentation : Presentation} {config : SiteConfig} {store : Store} {site : Site}
    {skipped : Nat} (drawn : drawOn presentation config store = .ok (site, skipped)) :
    ∃ input, loadOn config store = .ok (input, skipped) ∧ render presentation input = .ok site := by
  obtain ⟨⟨input, left⟩, loaded, drawn⟩ := ok_of_bind_eq_ok drawn
  obtain ⟨made, rendered, same⟩ := ok_of_bind_eq_ok drawn
  cases same
  exact ⟨input, loaded, rendered⟩

theorem textOn_of_read {path : DiskPath} {store : Store} {text : List Char}
    (read : store.read path = .ok (Text.encodeUtf8 text)) :
    textOn path store = .ok (String.ofList text) := by
  rw [textOn, bytesOn, read]
  simp only [mapError_ok, bind, Except.bind, Text.decodeUtf8?_encodeUtf8]

theorem loadOn_of_read {config : SiteConfig} {store : Store} {dump : List Char}
    (read : store.read config.input = .ok (Text.encodeUtf8 dump)) :
    loadOn config store = loadFrom config dump store := by
  rw [loadOn, textOn_of_read read]
  simp only [bind, Except.bind, String.toList_ofList]

theorem parse_of_loadOn {config : SiteConfig} {store : Store} {input : SiteInput} {skipped : Nat}
    (loaded : loadOn config store = .ok (input, skipped)) {text : List Char}
    (read : store.read config.input = .ok (Text.encodeUtf8 text)) :
    Graph.parse text = .ok input.locator.graph := by
  rw [loadOn_of_read read] at loaded
  obtain ⟨graph, parsed, loaded⟩ := ok_of_bind_eq_ok loaded
  obtain ⟨_, _, loaded⟩ := ok_of_bind_eq_ok loaded
  obtain ⟨_, _, same⟩ := ok_of_bind_eq_ok loaded
  cases same
  exact mapError_eq_ok_iff.mp parsed

theorem sound_of_loadOn {config : SiteConfig} {store : Store} {input : SiteInput} {skipped : Nat}
    (loaded : loadOn config store = .ok (input, skipped)) : input.Sound := by
  obtain ⟨text, _, loaded⟩ := ok_of_bind_eq_ok loaded
  obtain ⟨graph, parsed, loaded⟩ := ok_of_bind_eq_ok loaded
  obtain ⟨⟨plan, nav⟩, found, loaded⟩ := ok_of_bind_eq_ok loaded
  obtain ⟨sources, _, same⟩ := ok_of_bind_eq_ok loaded
  obtain ⟨plan', ofGraph, rest⟩ := ok_of_bind_eq_ok found
  obtain ⟨nav', _, samePlan⟩ := ok_of_bind_eq_ok rest
  cases samePlan
  cases same
  obtain ⟨elements, _, described⟩ := Graph.describes_of_parse (mapError_eq_ok_iff.mp parsed)
  obtain ⟨once, mapped⟩ := Plan.ofGraph_paths ofGraph
  exact ⟨⟨elements, described⟩, once, mapped⟩

end Site

end CodeAtlas
