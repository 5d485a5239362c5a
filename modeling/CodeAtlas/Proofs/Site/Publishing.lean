import CodeAtlas.Proofs.Site.Contents
import CodeAtlas.Proofs.Site.Writes

/-!
# What a build writes

A build that fails before it writes leaves the disk as it is. One that succeeds puts the files of the
site below the output folder, each with its own contents unless another file goes to its place, and touches
no other file. What was in the output folder before is gone, unless the path of the folder led through one
that was not there: then nothing is removed.
-/

namespace CodeAtlas

namespace Store

/-- The files that are left when the folder at a path was removed, if it could be found. -/
def remaining (store : Store) (path : DiskPath) (place : Place) : Option (List UInt8) :=
  match store.lookup path with
  | .error _ => store.file? place
  | .ok _ => if store.destination path <+: place then none else store.file? place

end Store

namespace Site

variable {store after : Store}

/-! ### Removing an earlier site -/

structure Cleaned (store : Store) (output : DiskPath) (after : Store) : Prop where
  removed : after = (store.removeTree output).2
  missing : ∀ fault, store.lookup output = .error fault → fault = .notFound
  file? : after.file? = store.remaining output
  current : after.current = store.current
  nodes : ∀ place, place ∈ after.nodes → place ∈ store.nodes

theorem run_cleanOutput (store : Store) (output : DiskPath) :
    runOn (cleanOutput output) store =
      (match (store.removeTree output).1 with
        | none | some .notFound => .ok ()
        | some cause => .error (.disk output cause), (store.removeTree output).2) := by
  have answer : StateT.run (Disk.removeTree output : StateM Store _) store =
      (Store.outcome (store.removeTree output).1, (store.removeTree output).2) := rfl
  unfold runOn cleanOutput
  rw [ExceptT.run_mk, StateT.run_bind, answer]
  cases (store.removeTree output).1 with
  | none => rfl
  | some fault => cases fault <;> rfl

theorem cleaned_of_cleanOutput {output : DiskPath}
    (done : runOn (cleanOutput output) store = (.ok (), after)) : Cleaned store output after := by
  rw [run_cleanOutput, Prod.mk.injEq] at done
  obtain ⟨passed, rfl⟩ := done
  have nodes : ∀ place, place ∈ (store.removeTree output).2.nodes → place ∈ store.nodes :=
    fun place => store.removeTree_nodes output
  cases found : store.lookup output with
  | error fault =>
    have removed : store.removeTree output = (some fault, store) := by simp [Store.removeTree, found]
    rw [removed] at passed nodes ⊢
    refine ⟨removed ▸ rfl, ?_, by funext place; simp [Store.remaining, found], rfl, nodes⟩
    intro other same
    cases found.symm.trans same
    cases fault <;> first | rfl | cases passed
  | ok result =>
    obtain ⟨place, node⟩ := result
    cases node with
    | file contents => simp [Store.removeTree, found] at passed
    | folder =>
      obtain ⟨current, files⟩ := Store.removeTree_spec found
      have located := Store.destination_of_locate (Store.lookup_eq_ok_iff.mp found).1
      refine ⟨rfl, fun fault missing => (by cases found.symm.trans missing), ?_, current, nodes⟩
      funext other
      rw [files, Store.remaining, found, ← located]

/-! ### Assets -/

def copiedOn (folder target : DiskPath) (steps : List DiskPath.Step) (store : Store) :
    Except SiteFault OutputFile := do
  let relative := DiskPath.ofSteps steps
  .ok ⟨target.join relative,
    ← bytesOn (if steps.isEmpty then folder else folder.join relative) store⟩

def assetsOn (config : SiteConfig) (store : Store) : Except SiteFault (List OutputFile) :=
  match config.dist with
  | none => .ok (ownAssets config.output)
  | some folder =>
    match store.filesBelow folder with
    | .error cause => .error (.listing folder cause)
    | .ok found =>
      found.mapM fun steps => copiedOn folder (config.output.child Page.assetFolder) steps store

theorem reads_copied (folder target : DiskPath) (steps : List DiskPath.Step) :
    Reads (copied folder target steps) (copiedOn folder target steps) :=
  (reads_readBytes _).bind fun _ => reads_pure _

theorem reads_assets (config : SiteConfig) : Reads (assets config) (assetsOn config) := by
  intro store
  unfold assets assetsOn
  cases config.dist with
  | none => rfl
  | some folder =>
    have found : runOn (monadLift (Disk.filesBelow folder : StateM Store _)) store =
        (.ok (store.filesBelow folder), store) := rfl
    dsimp only
    rw [run_bind_of_ok found]
    cases store.filesBelow folder with
    | error cause => rfl
    | ok listed => exact Reads.mapM (reads_copied folder _) listed store

theorem destination_copied {steps : List DiskPath.Step} (target : DiskPath)
    (names : ∀ step ∈ steps, DiskPath.IsName step ∧ DiskPath.slash ∉ step) :
    store.destination (target.join (.ofSteps steps)) = store.destination target ++ steps := by
  cases steps with
  | nil =>
    have relative : (DiskPath.ofSteps []).isAbsolute = false := by decide
    rw [Store.destination, DiskPath.foldl_follow_join target relative, DiskPath.isAbsolute_join target
      relative, List.append_nil]
    rfl
  | cons step steps =>
    have whole : (DiskPath.ofSteps (step :: steps)).steps = step :: steps :=
      List.splitOn_intercalate _ (fun step mem => (names step mem).2) (by simp)
    rw [Store.destination_join store target, whole]
    rw [whole]
    exact fun step mem => (names step mem).1

theorem names_of_filesBelow (named : store.Named) {folder : DiskPath} {listed : List Place}
    (below : store.filesBelow folder = .ok listed) {steps : Place} (mem : steps ∈ listed) :
    ∀ step ∈ steps, DiskPath.IsName step ∧ DiskPath.slash ∉ step := by
  obtain ⟨⟨place, node⟩, _, same⟩ := ok_of_bind_eq_ok below
  cases same
  obtain ⟨⟨_, contents⟩, under, rfl⟩ := List.mem_map.mp mem
  obtain ⟨⟨other, node⟩, there, same⟩ := List.mem_filterMap.mp under
  have inside : other ∈ store.nodes := by
    have held := Std.TreeMap.mem_toList_iff_getElem?_eq_some.mp there
    exact Std.TreeMap.mem_iff_isSome_getElem?.mpr (by simp [held])
  cases node with
  | folder => cases same
  | file held =>
    dsimp only at same
    split at same
    · cases same
      exact fun step listed => named other inside step (List.mem_of_mem_drop listed)
    · cases same

theorem assets_below {config : SiteConfig} {assets : List OutputFile} (named : store.Named)
    (found : assetsOn config store = .ok assets) :
    ∀ file ∈ assets, store.destination config.output ++ (DiskPath.ofString Page.assetFolder).steps <+:
      store.destination file.path := by
  have target : store.destination (config.output.child Page.assetFolder) =
      store.destination config.output ++ (DiskPath.ofString Page.assetFolder).steps :=
    store.destination_child config.output isPlain_assetFolder
  intro file mem
  unfold assetsOn at found
  cases dist : config.dist with
  | none =>
    simp only [dist, Except.ok.injEq] at found
    subst found
    simp only [ownAssets, List.mem_map] at mem
    obtain ⟨⟨name, text⟩, listed, rfl⟩ := mem
    have plain : PagePath.IsPlain name.toList := by
      simp only [Page.assets, List.mem_cons, Prod.mk.injEq, List.not_mem_nil, or_false] at listed
      rcases listed with ⟨rfl, _⟩ | ⟨rfl, _⟩ <;> decide
    rw [textFile, store.destination_child _ plain, target]
    exact List.prefix_append _ _
  | some folder =>
    simp only [dist] at found
    split at found
    · cases found
    · rename_i listed below
      obtain ⟨steps, inside, copied⟩ := (mem_of_mapM_eq_ok found file).mp mem
      obtain ⟨bytes, _, same⟩ := ok_of_bind_eq_ok copied
      cases same
      rw [destination_copied _ (names_of_filesBelow named below inside), target]
      exact List.prefix_append _ _

/-! ### Publishing -/

/-- The assets of a site, as they are when an earlier site was removed. -/
def assetsLeft (config : SiteConfig) (store : Store) : Except SiteFault (List OutputFile) :=
  assetsOn config (store.removeTree config.output).2

/-- A site was published with the given assets: its files can all be read, and what they do not replace
is what the removal of an earlier site has left. -/
structure Published (config : SiteConfig) (schedule : Schedule) (site : Site) (assets : List OutputFile)
    (store after : Store) : Prop where
  found : assetsLeft config store = .ok assets
  below : store.Named → ∀ file ∈ assets,
    store.destination config.output ++ (DiskPath.ofString Page.assetFolder).steps <+:
      store.destination file.path
  missing : ∀ fault, store.lookup config.output = .error fault → fault = .notFound
  /-- The files were written in some order, and without a schedule in their own. -/
  file? : ∃ written, written.Perm (site.files config.output assets) ∧
    (schedule = [] → written = site.files config.output assets) ∧
    after.file? = putAll store written (store.remaining config.output)
  locate : ∀ file ∈ site.files config.output assets,
    after.locate file.path = .ok (store.destination file.path)

variable {schedule : Schedule}

theorem published_of_publish {config : SiteConfig} {site : Site}
    (done : runOn (publish config schedule site) store = (.ok (), after)) :
    ∃ assets, Published config schedule site assets store after := by
  unfold publish at done
  obtain ⟨_, cleaned, cleans, done⟩ := ok_of_run_bind done
  obtain ⟨assets, later, reads, writes⟩ := ok_of_run_bind done
  rw [reads_assets, Prod.mk.injEq] at reads
  obtain ⟨found, rfl⟩ := reads
  obtain ⟨removed, missing, files, current, nodes⟩ := cleaned_of_cleanOutput cleans
  obtain ⟨written, perm, own, wrote⟩ := exists_wrote writes
  have same : ∀ path, cleaned.destination path = store.destination path := by
    intro path
    rw [Store.destination, Store.destination, current]
  refine ⟨assets, ?_, ?_, missing, ⟨written, perm, own, ?_⟩, ?_⟩
  · rw [assetsLeft, ← removed, found]
  · intro named file mem
    have kept : cleaned.Named := fun place there => named place (nodes place there)
    have below := assets_below kept found file mem
    rwa [same, same] at below
  · rw [wrote.file?, files]
    simp only [putAll, same]
  · intro file mem
    rw [← same]
    exact wrote.locate file (perm.mem_iff.mpr mem)

theorem Published.own {config : SiteConfig} {site : Site} {assets : List OutputFile}
    (published : Published config schedule site assets store after) (own : config.dist = none) :
    assets = ownAssets config.output := by
  have found := published.found
  simp only [assetsLeft, assetsOn, own, Except.ok.injEq] at found
  exact found.symm

def checkOn : List DiskPath → Store → Except SiteFault CheckOutcome
  | [], _ => .ok (.passed 0)
  | page :: pages, store => do
    match Markup.checkNesting (← textOn page store).toList with
    | .error fault => .ok (.invalid page fault)
    | .ok () => .ok (← checkOn pages store).afterPage

theorem reads_checkPages (pages : List DiskPath) : Reads (checkPages pages) (checkOn pages) := by
  induction pages with
  | nil => exact reads_pure _
  | cons page pages ih =>
    refine (reads_readText page).bind fun text => ?_
    cases Markup.checkNesting text.toList with
    | error fault => exact reads_pure _
    | ok _ => exact ih.bind fun outcome => reads_pure _

variable {presentation : Presentation} {config : SiteConfig} {report : BuildReport}

theorem build_eq_ok (done : runOn (build presentation config schedule) store = (.ok report, after)) :
    ∃ input site assets, loadOn config store = .ok (input, report.skipped) ∧
      render presentation input = .ok site ∧ Published config schedule site assets store after ∧
      report.documents = site.pages.length ∧
      (if config.check then
        ∃ outcome, checkOn (site.pageFiles config.output) after = .ok outcome ∧
          report.check = some outcome
      else report.check = none) := by
  unfold build at done
  obtain ⟨⟨site, skipped⟩, later, prepares, done⟩ := ok_of_run_bind done
  rw [reads_prepare, Prod.mk.injEq] at prepares
  obtain ⟨drawn, rfl⟩ := prepares
  obtain ⟨input, loaded, rendered⟩ := drawOn_eq_ok drawn
  obtain ⟨_, published, publishes, done⟩ := ok_of_run_bind done
  obtain ⟨assets, was⟩ := published_of_publish publishes
  cases check : config.check with
  | false =>
    simp only [check, Bool.false_eq_true, if_false] at done
    cases done
    exact ⟨input, site, assets, loaded, rendered, was, rfl, by simp⟩
  | true =>
    simp only [check, if_true] at done
    obtain ⟨outcome, later, checks, done⟩ := ok_of_run_bind done
    cases done
    rw [(reads_checkPages (site.pageFiles config.output)).map some, Prod.mk.injEq] at checks
    obtain ⟨checked, rfl⟩ := checks
    obtain ⟨found, read, rfl⟩ := map_eq_ok_iff.mp checked
    exact ⟨input, site, assets, loaded, rendered, was, rfl, by simpa using read⟩

/-! ### Files below the output folder -/

theorem destination_entryFile (store : Store) {entry : SiteFile × List UInt8}
    (contained : entry.1.Contained) (output : DiskPath) :
    store.destination (entryFile output entry).path = store.destination output ++ entry.1.place :=
  store.destination_child output contained.isPlain_name

variable {input : SiteInput}

section Entries

variable {entries : List (SiteFile × List UInt8)} {written : List OutputFile} (sound : input.Sound)
  (made : ∀ entry ∈ entries, input.Makes presentation entry.1 entry.2) {output : DiskPath}
  (perm : written.Perm (entries.map (entryFile output)))
include sound made perm

/-- The files of a site end up with their contents, unless a document called `index` is in the way of
the page to start from. -/
theorem putAll_entries_of_mem {file : SiteFile} {contents : List UInt8}
    (mem : (file, contents) ∈ entries)
    (apart : ∀ entry ∈ entries, ¬ (file = .welcome ∧ entry.1 = .page "index") ∧
      ¬ (file = .page "index" ∧ entry.1 = .welcome))
    (disk : Place → Option (List UInt8)) :
    putAll store written disk (store.destination output ++ file.place) = some contents := by
  have contained : ∀ entry ∈ entries, entry.1.Contained := fun entry mem =>
    (made entry mem).contained sound
  have place := destination_entryFile store (contained _ mem) output
  rw [← place]
  refine putAll_of_mem (perm.mem_iff.mpr (List.mem_map_of_mem mem)) ?_ disk
  intro other listed same
  obtain ⟨entry, inside, rfl⟩ := List.mem_map.mp (perm.mem_iff.mp listed)
  rw [place, destination_entryFile store (contained entry inside)] at same
  rcases SiteFile.eq_of_place_eq (List.append_cancel_left same) with same | index | index
  · have other := made entry inside
    rw [same] at other
    exact other.unique sound (made _ mem)
  · exact absurd index.symm (apart entry inside).2
  · exact absurd index.symm (apart entry inside).1

theorem putAll_entries_of_forall_ne {rest : Place} (apart : ∀ entry ∈ entries, entry.1.place ≠ rest)
    (disk : Place → Option (List UInt8)) :
    putAll store written disk (store.destination output ++ rest) =
      disk (store.destination output ++ rest) := by
  apply putAll_of_forall_ne
  intro file listed same
  obtain ⟨entry, inside, rfl⟩ := List.mem_map.mp (perm.mem_iff.mp listed)
  rw [destination_entryFile store ((made entry inside).contained sound)] at same
  exact apart entry inside (List.append_cancel_left same)

theorem putAll_entries_outside {place : Place} (outside : ¬ store.destination output <+: place)
    (disk : Place → Option (List UInt8)) : putAll store written disk place = disk place := by
  apply putAll_of_forall_ne
  intro file listed same
  obtain ⟨entry, inside, rfl⟩ := List.mem_map.mp (perm.mem_iff.mp listed)
  rw [destination_entryFile store ((made entry inside).contained sound)] at same
  exact outside (same ▸ List.prefix_append _ _)

end Entries

variable {site : Site} {assets : List OutputFile}

def entries (site : Site) : List (SiteFile × List UInt8) :=
  site.firstEntries ++ assetEntries ++ site.lastEntries

theorem files_ownAssets (site : Site) (output : DiskPath) :
    site.files output (ownAssets output) = site.entries.map (entryFile output) := by
  rw [files_eq, ownAssets_eq, entries, List.map_append, List.map_append]

theorem mem_entries_iff (rendered : render presentation input = .ok site) (file : SiteFile)
    (contents : List UInt8) :
    (file, contents) ∈ site.entries ↔ input.Makes presentation file contents := by
  rw [makes_iff rendered, entries, List.mem_append, List.mem_append, or_assoc]

theorem Published.file?_of_own (published : Published config schedule site assets store after)
    (own : config.dist = none) :
    ∃ written, written.Perm (site.entries.map (entryFile config.output)) ∧
      after.file? = putAll store written (store.remaining config.output) := by
  obtain ⟨written, perm, _, files⟩ := published.file?
  rw [published.own own, files_ownAssets] at perm
  exact ⟨written, perm, files⟩

/-- Without a document called `index`, a place has one contents. -/
theorem makes_unique_of_place (sound : input.Sound)
    (notIndex : ∀ held, ¬ input.Makes presentation (.page "index") held) {file other : SiteFile}
    {held contents : List UInt8} (makes : input.Makes presentation file held)
    (makesOther : input.Makes presentation other contents) (same : file.place = other.place) :
    held = contents := by
  rcases SiteFile.eq_of_place_eq same with rfl | ⟨_, rfl⟩ | ⟨rfl, _⟩
  · exact makes.unique sound makesOther
  · exact absurd makesOther (notIndex contents)
  · exact absurd makes (notIndex held)

theorem remaining_below_iff (missing : ∀ fault, store.lookup config.output = .error fault →
      fault = .notFound) (rest : Place) (contents : List UInt8) :
    store.remaining config.output (store.destination config.output ++ rest) = some contents ↔
      store.lookup config.output = .error .notFound ∧
        store.file? (store.destination config.output ++ rest) = some contents := by
  cases found : store.lookup config.output with
  | error fault =>
    obtain rfl := missing fault found
    simp [Store.remaining, found]
  | ok result => simp [Store.remaining, found]

/-- The files below the output folder are those of the site, and others only if the folder could not be
found when it was to be removed. -/
theorem Published.file?_below_iff (published : Published config schedule site assets store after)
    (own : config.dist = none) (sound : input.Sound) (rendered : render presentation input = .ok site)
    (notIndex : ∀ held, ¬ input.Makes presentation (.page "index") held) (rest : Place)
    (contents : List UInt8) :
    after.file? (store.destination config.output ++ rest) = some contents ↔
      (∃ file, input.Makes presentation file contents ∧ rest = file.place) ∨
      (¬ ∃ file held, input.Makes presentation file held ∧ rest = file.place) ∧
        store.lookup config.output = .error .notFound ∧
        store.file? (store.destination config.output ++ rest) = some contents := by
  have made : ∀ entry ∈ site.entries, input.Makes presentation entry.1 entry.2 :=
    fun entry => (mem_entries_iff rendered _ _).mp
  obtain ⟨written, perm, files⟩ := published.file?_of_own own
  rw [files]
  by_cases drawn : ∃ file held, input.Makes presentation file held ∧ rest = file.place
  · obtain ⟨file, held, makes, rfl⟩ := drawn
    rw [putAll_entries_of_mem sound made perm ((mem_entries_iff rendered _ _).mpr makes)]
    · constructor
      · rintro ⟨⟩
        exact .inl ⟨file, makes, rfl⟩
      · rintro (⟨other, makesOther, same⟩ | ⟨undrawn, _⟩)
        · rw [makes_unique_of_place sound notIndex makes makesOther same]
        · exact absurd ⟨file, held, makes, rfl⟩ undrawn
    · intro entry mem
      refine ⟨fun clash => notIndex entry.2 (clash.2 ▸ made entry mem), fun clash => ?_⟩
      exact notIndex held (clash.1 ▸ makes)
  · have apart : ∀ entry ∈ site.entries, entry.1.place ≠ rest :=
      fun entry mem same => drawn ⟨entry.1, entry.2, made entry mem, same.symm⟩
    rw [putAll_entries_of_forall_ne sound made perm apart, remaining_below_iff published.missing]
    constructor
    · exact fun left => .inr ⟨drawn, left⟩
    · rintro (⟨file, makes, same⟩ | ⟨_, left⟩)
      · exact absurd ⟨file, contents, makes, same⟩ drawn
      · exact left

theorem Published.file?_outside (published : Published config schedule site assets store after)
    (own : config.dist = none) (sound : input.Sound) (rendered : render presentation input = .ok site)
    {place : Place} (outside : ¬ store.destination config.output <+: place) :
    after.file? place = store.file? place := by
  have made : ∀ entry ∈ site.entries, input.Makes presentation entry.1 entry.2 :=
    fun entry => (mem_entries_iff rendered _ _).mp
  obtain ⟨written, perm, files⟩ := published.file?_of_own own
  rw [files, putAll_entries_outside sound made perm outside, Store.remaining]
  split
  · rfl
  · rw [if_neg outside]

theorem ne_welcome_of_mem_lastEntries {entry : SiteFile × List UInt8}
    (mem : entry ∈ site.lastEntries) : entry.1 ≠ .welcome := by
  obtain ⟨file, held⟩ := entry
  rintro rfl
  rcases (mem_lastEntries_iff _ _ _).mp mem with ⟨_, _, ⟨same, _⟩ | ⟨same, _⟩⟩ | ⟨_, _, _, same, _⟩
  all_goals cases same

/-! ### Files that stay -/

/-- No asset that is taken from a folder goes to the place of the file. -/
def AssetsApart (config : SiteConfig) (store : Store) (file : SiteFile) : Prop :=
  ∀ folder assets, config.dist = some folder → assetsLeft config store = .ok assets → ∀ asset ∈ assets,
    store.destination asset.path ≠ store.destination (config.output.child file.name)

/-- A page, a sidecar or a reference file is left as it was written: no other file goes to its place, or the
files are written one after the other, in which case it is the last of those that go there. -/
def Stays (config : SiteConfig) (schedule : Schedule) (store : Store) (file : SiteFile) : Prop :=
  schedule = [] ∨ file ≠ .page "index" ∧ AssetsApart config store file

theorem Published.asset_cases (published : Published config schedule site assets store after)
    {asset : OutputFile} (mem : asset ∈ assets) {file : SiteFile} (apart : AssetsApart config store file) :
    (∃ entry ∈ assetEntries, asset = entryFile config.output entry) ∨
      store.destination asset.path ≠ store.destination (config.output.child file.name) := by
  cases dist : config.dist with
  | none =>
    rw [published.own dist, ownAssets_eq] at mem
    obtain ⟨entry, listed, same⟩ := List.mem_map.mp mem
    exact .inl ⟨entry, listed, same.symm⟩
  | some folder => exact .inr (apart folder assets dist published.found asset mem)

theorem Published.assetsApart_of_place (published : Published config schedule site assets store after)
    (named : store.Named) {file : SiteFile} (contained : file.Contained)
    (outside : ¬ (DiskPath.ofString Page.assetFolder).steps <+: file.place) :
    AssetsApart config store file := by
  intro folder others _ found asset mem same
  cases published.found.symm.trans found
  have below := published.below named asset mem
  rw [same, store.destination_child config.output contained.isPlain_name,
    List.prefix_append_right_inj] at below
  exact outside below

/-- If no asset from a folder is in the way, all that goes to the place of a file was made for the site. -/
theorem Published.exists_makes_of_place (published : Published config schedule site assets store after)
    (sound : input.Sound) (rendered : render presentation input = .ok site) {file : SiteFile}
    (contained : file.Contained) (apart : AssetsApart config store file) {other : OutputFile}
    (mem : other ∈ site.files config.output assets)
    (same : store.destination other.path = store.destination (config.output.child file.name)) :
    ∃ entry, input.Makes presentation entry.1 entry.2 ∧ other = entryFile config.output entry ∧
      entry.1.place = file.place := by
  have made : ∃ entry, input.Makes presentation entry.1 entry.2 ∧ other = entryFile config.output entry := by
    rw [files_eq, List.mem_append, List.mem_append] at mem
    rcases mem with (first | asset) | last
    · obtain ⟨entry, inside, own⟩ := List.mem_map.mp first
      exact ⟨entry, (makes_iff rendered _ _).mpr (.inl inside), own.symm⟩
    · rcases published.asset_cases asset apart with ⟨entry, inside, own⟩ | elsewhere
      · exact ⟨entry, (makes_iff rendered _ _).mpr (.inr (.inl inside)), own⟩
      · exact absurd same elsewhere
    · obtain ⟨entry, inside, own⟩ := List.mem_map.mp last
      exact ⟨entry, (makes_iff rendered _ _).mpr (.inr (.inr inside)), own.symm⟩
  obtain ⟨entry, makes, rfl⟩ := made
  rw [destination_entryFile store (makes.contained sound),
    store.destination_child config.output contained.isPlain_name] at same
  exact ⟨entry, makes, rfl, List.append_cancel_left same⟩

theorem Published.exists_last (published : Published config schedule site assets store after)
    {file : OutputFile} (mem : file ∈ site.files config.output assets) :
    ∃ last ∈ site.files config.output assets,
      store.destination last.path = store.destination file.path ∧
        after.read file.path = .ok last.contents := by
  obtain ⟨written, perm, _, files⟩ := published.file?
  obtain ⟨last, there, same, held⟩ :=
    exists_putAll_eq (perm.mem_iff.mpr mem) (store.remaining config.output)
  exact ⟨last, perm.mem_iff.mp there, same, Store.read_of_file? (published.locate _ mem) (files ▸ held)⟩

theorem entryFile_mem_files {entry : SiteFile × List UInt8} (mem : entry ∈ site.lastEntries)
    (output : DiskPath) (assets : List OutputFile) : entryFile output entry ∈ site.files output assets := by
  rw [files_eq]
  exact List.mem_append_right _ (List.mem_map_of_mem mem)

theorem Published.read_of_mem (published : Published config schedule site assets store after)
    (sound : input.Sound) (rendered : render presentation input = .ok site) {file : SiteFile}
    {contents : List UInt8} (mem : (file, contents) ∈ site.lastEntries)
    (stays : Stays config schedule store file) :
    after.read (config.output.child file.name) = .ok contents := by
  have made : ∀ entry ∈ site.lastEntries, input.Makes presentation entry.1 entry.2 :=
    fun entry listed => (makes_iff rendered _ _).mpr (.inr (.inr listed))
  have contained : file.Contained := (made _ mem).contained sound
  have listed := entryFile_mem_files mem config.output assets
  obtain ⟨written, perm, inOrder, files⟩ := published.file?
  refine Store.read_of_file? (published.locate _ listed) ?_
  rcases stays with alone | ⟨notIndex, apart⟩
  · -- What is written last is left.
    rw [destination_entryFile store contained, files, inOrder alone, files_eq, putAll_append]
    refine putAll_entries_of_mem sound made (.refl _) mem (fun entry listed => ⟨?_, ?_⟩) _
    · exact fun clash => ne_welcome_of_mem_lastEntries mem clash.1
    · exact fun clash => ne_welcome_of_mem_lastEntries listed clash.2
  · rw [files]
    refine putAll_of_mem (perm.mem_iff.mpr listed) (fun other there same => ?_) _
    obtain ⟨entry, makes, rfl, place⟩ :=
      published.exists_makes_of_place sound rendered contained apart (perm.mem_iff.mp there) same
    rcases SiteFile.eq_of_place_eq place with same | ⟨_, index⟩ | ⟨_, start⟩
    · exact (same ▸ makes).unique sound (made _ mem)
    · exact absurd index notIndex
    · exact absurd start (ne_welcome_of_mem_lastEntries mem)

theorem mem_lastEntries_of_makes (rendered : render presentation input = .ok site) {file : SiteFile}
    {contents : List UInt8} (makes : input.Makes presentation file contents) (drawn : file.isDrawn = true) :
    (file, contents) ∈ site.lastEntries := by
  rcases (makes_iff rendered _ _).mp makes with first | own | last
  · simp only [firstEntries, List.mem_cons, Prod.mk.injEq, List.not_mem_nil, or_false] at first
    rcases first with ⟨rfl, _⟩ | ⟨rfl, _⟩ <;> cases drawn
  · simp only [assetEntries, List.mem_cons, Prod.mk.injEq, List.not_mem_nil, or_false] at own
    rcases own with ⟨rfl, _⟩ | ⟨rfl, _⟩ <;> cases drawn
  · exact last

/-- Pages, sidecars and reference files can be read, and are as they were made if they stay. -/
theorem Published.exists_read (published : Published config schedule site assets store after)
    (sound : input.Sound) (rendered : render presentation input = .ok site) {file : SiteFile}
    {contents : List UInt8} (makes : input.Makes presentation file contents)
    (drawn : file.isDrawn = true) :
    ∃ held, after.read (config.output.child file.name) = .ok held ∧
      (Stays config schedule store file → held = contents) := by
  have mem := mem_lastEntries_of_makes rendered makes drawn
  obtain ⟨last, _, _, read⟩ := published.exists_last (entryFile_mem_files mem config.output assets)
  refine ⟨last.contents, read, fun stays => ?_⟩
  have own := published.read_of_mem sound rendered mem stays
  exact Except.ok.inj (read.symm.trans own)

theorem Published.stays_references (published : Published config schedule site assets store after)
    (named : store.Named) (id : ElementId) : Stays config schedule store (.references id) := by
  refine .inr ⟨by simp, published.assetsApart_of_place named trivial ?_⟩
  rw [SiteFile.place_references]
  exact not_assets_below_references _

/-- Where the page to start from is looked for there is one, or else the page of a document called `index`. -/
theorem Published.read_index (published : Published config schedule site assets store after)
    (named : store.Named) (sound : input.Sound) (rendered : render presentation input = .ok site) :
    ∃ file contents, (file = .welcome ∨ file = .page "index") ∧
      input.Makes presentation file contents ∧
      after.read (config.output.child SiteFile.welcome.name) = .ok contents := by
  have start : (SiteFile.welcome, Text.encodeUtf8 site.welcome) ∈ site.firstEntries := List.mem_cons_self
  have listed : entryFile config.output (SiteFile.welcome, Text.encodeUtf8 site.welcome) ∈
      site.files config.output assets := by
    rw [files_eq]
    exact List.mem_append_left _ (List.mem_append_left _ (List.mem_map_of_mem start))
  obtain ⟨last, there, same, read⟩ := published.exists_last listed
  have contained : SiteFile.welcome.Contained := trivial
  have apart := published.assetsApart_of_place named contained (by decide)
  obtain ⟨entry, makes, rfl, place⟩ :=
    published.exists_makes_of_place sound rendered contained apart there same
  refine ⟨entry.1, entry.2, ?_, makes, read⟩
  rcases SiteFile.eq_of_place_eq place with same | ⟨same, _⟩ | ⟨same, _⟩
  · exact .inl same
  · exact .inl same
  · exact .inr same

theorem not_makes_index (sound : input.Sound)
    (index : ∀ entry ∈ input.locator.graph.documents,
      input.locator.pages.path? entry.2.uri ≠ some "index") (held : List UInt8) :
    ¬ input.Makes presentation (.page "index") held := by
  intro page
  obtain ⟨document, mem, path, _⟩ := page.of_page
  obtain ⟨entry, listed, mapped⟩ := (sound.mapped _).mp (List.mem_map_of_mem mem)
  exact index entry listed (path ▸ mapped)

/-- A build that fails before it writes leaves the disk as it is. If one with its own assets succeeds and
no document is called `index`, no file outside the output folder has changed, and all files of the site
are there. They are all the files of the output folder just if nothing else was below the place where
its path leads, or the folder was found when it was to be removed: and so it is for every path that never
goes up. -/
theorem build_clean_iff (presentation : Presentation) (config : SiteConfig) (schedule : Schedule)
    (store : Store) :
    (∀ fault after, runOn (prepare presentation config) store = (.error fault, after) →
      runOn (build presentation config schedule) store = (.error fault, store)) ∧
    ∀ report after, runOn (build presentation config schedule) store = (.ok report, after) →
      config.dist = none →
      ∃ input, loadOn config store = .ok (input, report.skipped) ∧
        ((∀ entry ∈ input.locator.graph.documents,
          input.locator.pages.path? entry.2.uri ≠ some "index") →
        (∀ place, ¬ store.destination config.output <+: place →
          after.file? place = store.file? place) ∧
        (∀ file contents, input.Makes presentation file contents →
          after.file? (store.destination config.output ++ file.place) = some contents) ∧
        ((∀ rest contents, after.file? (store.destination config.output ++ rest) = some contents ↔
            ∃ file, input.Makes presentation file contents ∧ rest = file.place) ↔
          (store.lookup config.output = .error .notFound →
            ∀ rest contents, store.file? (store.destination config.output ++ rest) = some contents →
              ∃ file held, input.Makes presentation file held ∧ rest = file.place)) ∧
        (store.WellFormed → config.output.bytes ≠ [] → DiskPath.above ∉ config.output.steps →
          ∀ rest contents, after.file? (store.destination config.output ++ rest) = some contents ↔
            ∃ file, input.Makes presentation file contents ∧ rest = file.place)) := by
  refine ⟨fun fault after failed => ?_, fun report after done own => ?_⟩
  · have unchanged : after = store := by
      rw [reads_prepare, Prod.mk.injEq] at failed
      exact failed.2.symm
    subst unchanged
    exact run_bind_of_error failed _
  · obtain ⟨input, site, assets, loaded, rendered, published, _⟩ := build_eq_ok done
    have sound := sound_of_loadOn loaded
    refine ⟨input, loaded, fun index => ?_⟩
    have below := published.file?_below_iff own sound rendered (not_makes_index sound index)
    have exactly : (∀ rest contents,
        after.file? (store.destination config.output ++ rest) = some contents ↔
          ∃ file, input.Makes presentation file contents ∧ rest = file.place) ↔
        (store.lookup config.output = .error .notFound →
          ∀ rest contents, store.file? (store.destination config.output ++ rest) = some contents →
            ∃ file held, input.Makes presentation file held ∧ rest = file.place) := by
      constructor
      · intro listed missing rest contents there
        by_contra undrawn
        have survives := (below rest contents).mpr (.inr ⟨undrawn, missing, there⟩)
        obtain ⟨file, makes, same⟩ := (listed rest contents).mp survives
        exact undrawn ⟨file, contents, makes, same⟩
      · intro nothing rest contents
        rw [below]
        constructor
        · rintro (drawn | ⟨undrawn, missing, there⟩)
          · exact drawn
          · exact absurd (nothing missing rest contents there) undrawn
        · exact .inl
    refine ⟨fun place outside => published.file?_outside own sound rendered outside, ?_, exactly, ?_⟩
    · intro file contents makes
      exact (below _ _).mpr (.inl ⟨file, makes, rfl⟩)
    · intro wellFormed given down
      refine exactly.mpr fun missing rest contents there => ?_
      rw [wellFormed.file?_of_notFound given down missing rest] at there
      cases there

/-! ### Builds of given dumps -/

/-- The site that a build makes of a dump with the given text, and the disk once it is written. -/
def siteFrom (presentation : Presentation) (config : SiteConfig) (schedule : Schedule) (store : Store)
    (dump : List Char) : Option (Site × Store) := do
  let (input, _) ← (loadFrom config dump store).toOption
  let site ← (render presentation input).toOption
  match runOn (publish config schedule site) store with
  | (.ok _, after) => some (site, after)
  | (.error _, _) => none

theorem exists_run_build {presentation : Presentation} {dump : List Char} {site : Site}
    (unchecked : config.check = false) (read : store.read config.input = .ok (Text.encodeUtf8 dump))
    (made : siteFrom presentation config schedule store dump = some (site, after)) :
    ∃ report, runOn (build presentation config schedule) store = (.ok report, after) ∧
      drawOn presentation config store = .ok (site, report.skipped) ∧
      report.documents = site.pages.length ∧ report.referenceSets = site.references.length := by
  obtain ⟨⟨input, skipped⟩, loaded, made⟩ := Option.bind_eq_some_iff.mp made
  obtain ⟨drawn, rendered, made⟩ := Option.bind_eq_some_iff.mp made
  split at made
  · rename_i written published
    cases made
    have draws : drawOn presentation config store = .ok (site, skipped) := by
      rw [drawOn, loadOn_of_read read, ok_of_toOption_eq_some loaded]
      simp only [bind, Except.bind, ok_of_toOption_eq_some rendered]
    have prepared : runOn (prepare presentation config) store = (.ok (site, skipped), store) := by
      rw [reads_prepare, draws]
    refine ⟨⟨site.pages.length, skipped,
      site.pages.foldl (fun ranges page => ranges + page.annotated) 0, site.references.length, none⟩,
      ?_, draws, rfl, rfl⟩
    unfold build
    rw [run_bind_of_ok prepared, run_bind_of_ok published]
    simp only [unchecked]
    rfl
  · cases made

def usedDump : List Char :=
  Page.ofLines [
    "\x7b\"id\":1,\"type\":\"vertex\",\"label\":\"metaData\",\"projectRoot\":\"file:///\"\x7d",
    "\x7b\"id\":2,\"type\":\"vertex\",\"label\":\"document\",\"uri\":\"file:///a\"\x7d"]

/-- A disk with a dump of one document, its source, and a file in the folder `out`. -/
def usedDisk : Store where
  nodes := .ofList [
    ([Text.bytesOf "d"], DiskNode.file (Text.encodeUtf8 usedDump)),
    ([Text.bytesOf "a"], .file (Text.bytesOf "t")),
    ([Text.bytesOf "out"], .folder),
    ([Text.bytesOf "out", Text.bytesOf "old.txt"], .file [])]
  current := []

def usedConfig (output : String) : SiteConfig :=
  ⟨.ofString "d", .ofString output, none, .empty, false⟩

theorem usedDisk_wellFormed : usedDisk.WellFormed where
  named := by
    intro place there
    have each : ∀ place ∈ usedDisk.nodes.keys, ∀ step ∈ place,
        (DiskPath.isIdle step = false ∧ step ≠ DiskPath.above) ∧ DiskPath.slash ∉ step := by
      decide
    exact each place (Std.TreeMap.mem_keys.mpr there)
  parent := by
    intro place step there
    have each : ∀ place ∈ usedDisk.nodes.keys, usedDisk.node? place.dropLast = some .folder := by
      decide
    simpa using each _ (Std.TreeMap.mem_keys.mpr there)
  current := rfl

theorem usedDisk_paths : ∀ found, loadOn (usedConfig "out") usedDisk = .ok found →
    ∀ entry ∈ found.1.locator.graph.documents,
      found.1.locator.pages.path? entry.2.uri ≠ some "index" := by
  have each : (loadFrom (usedConfig "out") usedDump usedDisk).toOption.map (fun found =>
      found.1.locator.graph.documents.map fun entry =>
        found.1.locator.pages.path? entry.2.uri) = some [some "a"] := by
    unfold usedDump
    repeat rw [Page.ofLines_cons]
    decide +kernel
  intro found loaded entry mem index
  have same : loadOn (usedConfig "out") usedDisk = loadFrom (usedConfig "out") usedDump usedDisk :=
    loadOn_of_read rfl
  rw [← same, loaded] at each
  have listed : some "index" ∈ [some "a"] := by
    rw [← Option.some.inj each, ← index]
    exact List.mem_map_of_mem mem
  simp at listed

def unreadable : Presentation :=
  { Presentation.plain with source := fun _ languageId => .error ⟨languageId, "no tree"⟩ }

/-- If the source cannot be shown, the disk is as before. If it can, the output folder holds the files of the
site and no other, also if the page is written while its sidecar is; the old file is gone. -/
theorem build_clean_iff_usedDisk :
    runOn (build unreadable (usedConfig "out") []) usedDisk =
      (.error (.highlight ⟨"", "no tree"⟩), usedDisk) ∧
    ∃ report after,
      runOn (build .plain (usedConfig "out") [5, 4, 5, 0]) usedDisk = (.ok report, after) ∧
      usedDisk.file? [Text.bytesOf "out", Text.bytesOf "old.txt"] = some [] ∧
      ∃ input, loadOn (usedConfig "out") usedDisk = .ok (input, report.skipped) ∧
        ∀ rest contents,
          after.file? (usedDisk.destination (usedConfig "out").output ++ rest) = some contents ↔
            ∃ file, input.Makes .plain file contents ∧ rest = file.place := by
  constructor
  · have failed : (do
        let (input, skipped) ← loadFrom (usedConfig "out") usedDump usedDisk
        let site ← render unreadable input
        .ok (site, skipped)) = .error (.highlight ⟨"", "no tree"⟩) := by
      unfold usedDump
      repeat rw [Page.ofLines_cons]
      decide +kernel
    refine (build_clean_iff unreadable (usedConfig "out") [] usedDisk).1 _ usedDisk ?_
    rw [reads_prepare, drawOn, loadOn_of_read rfl, failed]
  · have drawn : (siteFrom .plain (usedConfig "out") [5, 4, 5, 0] usedDisk usedDump).isSome = true := by
      unfold usedDump
      repeat rw [Page.ofLines_cons]
      decide +kernel
    obtain ⟨⟨site, after⟩, made⟩ := Option.isSome_iff_exists.mp drawn
    obtain ⟨report, built, _⟩ := exists_run_build rfl rfl made
    refine ⟨report, after, built, by decide, ?_⟩
    obtain ⟨input, loaded, clean⟩ :=
      (build_clean_iff .plain (usedConfig "out") [5, 4, 5, 0] usedDisk).2 report after built rfl
    exact ⟨input, loaded, (clean (usedDisk_paths _ loaded)).2.2.2 usedDisk_wellFormed (by decide)
      (by decide)⟩

/-- If the path leads through a folder that is not there, nothing is removed: the old file is still in
the output folder, though no file of a site has its name. -/
theorem old_file_stays :
    ((runOn (build .plain (usedConfig "no/../out") []) usedDisk).1.isOk = true ∧
      (runOn (build .plain (usedConfig "no/../out") []) usedDisk).2.file?
        (usedDisk.destination (usedConfig "no/../out").output ++ [Text.bytesOf "old.txt"]) = some []) ∧
    ∀ file : SiteFile, file.place ≠ [Text.bytesOf "old.txt"] := by
  have kept : (siteFrom .plain (usedConfig "no/../out") [] usedDisk usedDump).map (fun made =>
      made.2.file? (usedDisk.destination (usedConfig "no/../out").output ++ [Text.bytesOf "old.txt"])) =
        some (some []) := by
    unfold usedDump
    repeat rw [Page.ofLines_cons]
    decide +kernel
  obtain ⟨⟨site, after⟩, made, old⟩ := Option.map_eq_some_iff.mp kept
  obtain ⟨report, built, _⟩ := exists_run_build rfl rfl made
  rw [built]
  refine ⟨⟨rfl, old⟩, fun file same => ?_⟩
  have name : file.name = "old.txt" :=
    DiskPath.ofString_steps_injective (same.trans (by decide))
  have ends := file.take_reverse_name
  rw [name] at ends
  cases file <;> simp [SiteFile.ending] at ends

end Site

end CodeAtlas
