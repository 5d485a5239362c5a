import CodeAtlas.Markup.Nesting
import CodeAtlas.Site.Pages

/-!
# Building a site

Reads a dump and the sources it describes, and writes the site in place of an earlier one. Nothing is
written before all pages are there.
-/

namespace CodeAtlas

/-- What a site is built from, and where to. -/
structure SiteConfig where
  input : DiskPath
  output : DiskPath
  /-- A folder to take the assets from. -/
  dist : Option DiskPath
  uriMap : UriMap
  /-- Whether the pages are checked once they are written. -/
  check : Bool

inductive CheckOutcome where
  | passed (pages : Nat)
  | invalid (path : DiskPath) (fault : Markup.NestingFault)
  deriving DecidableEq, Repr

/-- The outcome for some pages and one before them that is in order. -/
def CheckOutcome.afterPage : CheckOutcome → CheckOutcome
  | .passed pages => .passed (pages + 1)
  | .invalid path fault => .invalid path fault

structure BuildReport where
  documents : Nat
  skipped : Nat
  annotatedRanges : Nat
  referenceSets : Nat
  check : Option CheckOutcome
  deriving DecidableEq, Repr

namespace Site

variable {m : Type → Type} [Monad m] [Disk m]

/-- The answer of a disk about a path, with the path in its fault. -/
def onDisk {α : Type} (path : DiskPath) (answer : m (Except DiskFault α)) :
    ExceptT SiteFault m α :=
  ExceptT.mk do
    match ← answer with
    | .ok value => return .ok value
    | .error cause => return .error (.disk path cause)

def readBytes (path : DiskPath) : ExceptT SiteFault m (List UInt8) :=
  onDisk path (Disk.read path)

/-- The text of a file that has to be UTF-8. -/
def readText (path : DiskPath) : ExceptT SiteFault m String := do
  match Text.decodeUtf8? (← readBytes path) with
  | some text => return text
  | none => throw (.disk path .notUtf8)

def readUriMap (path : DiskPath) : ExceptT SiteFault m UriMap := do
  match UriMap.ofJson? (← readText path).toList with
  | some map => return map
  | none => throw .badUriMap

/-- The source of a document. Bytes that are not UTF-8 are replaced. -/
def readSource (document : PlannedDocument) : ExceptT SiteFault m (ElementId × SourceText) := do
  return (document.id, .ofText (Text.decodeLossy (← readBytes document.source)))

def cleanOutput (output : DiskPath) : ExceptT SiteFault m Unit :=
  ExceptT.mk do
    match ← Disk.removeTree output with
    | .ok () | .error .notFound => return .ok ()
    | .error cause => return .error (.disk output cause)

/-- A file below a folder, to be copied to the same place below `target`. -/
def copied (folder target : DiskPath) (steps : List DiskPath.Step) :
    ExceptT SiteFault m OutputFile := do
  let relative := DiskPath.ofSteps steps
  let source := if steps.isEmpty then folder else folder.join relative
  return ⟨target.join relative, ← readBytes source⟩

/-- The assets of a site: those of the given folder, or else its own. -/
def assets (config : SiteConfig) : ExceptT SiteFault m (List OutputFile) := do
  match config.dist with
  | none => return ownAssets config.output
  | some folder =>
    match ← (Disk.filesBelow folder : m _) with
    | .error cause => throw (.listing folder cause)
    | .ok found => found.mapM (copied folder (config.output.child Page.assetFolder))

inductive WriteStep where
  | folders (path : DiskPath)
  | contents (file : OutputFile)

/-- How a file is written: first the folders it is in. -/
def WriteStep.ofFile (file : OutputFile) : List WriteStep :=
  (file.path.parent?.map folders).toList ++ [contents file]

def WriteStep.perform : WriteStep → ExceptT SiteFault m Unit
  | .folders path => onDisk path (Disk.makeFolders path)
  | .contents file => onDisk file.path (Disk.write file.path file.contents)

/-- In which order tasks that run at the same time go on: the number of the one that takes the next step,
again and again. -/
abbrev Schedule := List Nat

/-- The steps of some tasks in the order of a schedule. The number of a task that is done is passed over;
what is left when the schedule ends goes one task after the other. -/
def interleave {α : Type} : Schedule → (tasks : List (List α)) → List α
  | [], tasks => tasks.flatten
  | turn :: schedule, tasks =>
    match tasks[turn]? with
    | some (step :: rest) => step :: interleave schedule (tasks.set turn rest)
    | _ => interleave schedule tasks

/-- Writes files, all at the same time, up to the first step that fails. -/
def writeAll (schedule : Schedule) (files : List OutputFile) : ExceptT SiteFault m Unit :=
  (interleave schedule (files.map WriteStep.ofFile)).forM WriteStep.perform

/-- Checks pages one by one, up to the first that is not well nested. -/
def checkPages : List DiskPath → ExceptT SiteFault m CheckOutcome
  | [] => return .passed 0
  | page :: pages => do
    match Markup.checkNesting (← readText page).toList with
    | .error fault => return .invalid page fault
    | .ok () => return (← checkPages pages).afterPage

def planned (graph : Graph) (pages : PageMap) : Except SiteFault (Plan × List NavNode) := do
  let plan ← Plan.ofGraph graph pages
  let nav ← (NavNode.ofPaths plan.paths).mapError SiteFault.nav
  return (plan, nav)

/-- The part of a build that only reads: the site, and how many documents are left out. -/
def prepare (presentation : Presentation) (config : SiteConfig) :
    ExceptT SiteFault m (Site × Nat) := do
  let text ← readText config.input
  let graph ← liftExcept ((Graph.parse text.toList).mapError SiteFault.dump)
  let pages := PageMap.ofRoot graph.projectRoot config.uriMap
  let (plan, nav) ← liftExcept (planned graph pages)
  let sources ← plan.documents.mapM readSource
  let locator : Locator := ⟨graph, pages, .ofList sources⟩
  let site ← liftExcept (render presentation ⟨locator, plan.documents, nav⟩)
  return (site, plan.skipped)

def publish (config : SiteConfig) (schedule : Schedule) (site : Site) : ExceptT SiteFault m Unit := do
  cleanOutput config.output
  let assets ← assets config
  writeAll schedule (site.files config.output assets)

/-- Builds a site. The files are written as the schedule has it. -/
def build (presentation : Presentation) (config : SiteConfig) (schedule : Schedule) :
    ExceptT SiteFault m BuildReport := do
  let (site, skipped) ← prepare presentation config
  publish config schedule site
  let check ←
    if config.check then some <$> checkPages (site.pageFiles config.output) else pure none
  return {
    documents := site.pages.length
    skipped
    annotatedRanges := site.pages.foldl (fun ranges page => ranges + page.annotated) 0
    referenceSets := site.references.length
    check }

end Site

end CodeAtlas
