import CodeAtlas.Page.Layout
import CodeAtlas.Render.Markdown
import CodeAtlas.Site.Plan
import CodeAtlas.Symbol.Sidecar

/-!
# The pages of a site

All that a site holds apart from its assets: a page and its hover data for each document, a page to
start from, and the reference sets that the pages share.
-/

namespace CodeAtlas

structure RenderedPage where
  path : String
  html : List Char
  sidecar : List Char
  /-- How many ranges of the document carry something. -/
  annotated : Nat
  deriving DecidableEq, Repr

/-- A site before it is written. -/
structure Site where
  pages : List RenderedPage
  welcome : List Char
  references : List (ElementId × List Char)
  deriving DecidableEq, Repr

/-- What a site is made from. -/
structure SiteInput where
  locator : Locator
  documents : List PlannedDocument
  nav : List NavNode

/-- The source of a document, which is to be there before its page is. -/
def SiteInput.sourceOf (input : SiteInput) (document : PlannedDocument) : Except SiteFault SourceText :=
  match input.locator.sources[document.id]? with
  | some source => .ok source
  | none => .error (.task s!"source of {document.path} was not loaded")

namespace Site

def page (nav : List NavNode) (document : PlannedDocument) (source : SourceText)
    (highlighted : List Char) (occurrences : List Occurrence) : RenderedPage where
  path := document.path
  html :=
    Page.SourcePage.render
      { fileName := (PagePath.fileName document.path).toList
        toRoot := (PagePath.toRoot document.path).toList
        nav := NavNode.render nav (some document.path)
        source := Markup.weave highlighted (markersOf occurrences)
        lineCount := source.lineCount }
  sidecar := (Sidecar.ofOccurrences occurrences).toJson.write
  annotated := occurrences.length

def renderPage (presentation : Presentation) (input : SiteInput) (document : PlannedDocument) :
    Query RenderedPage := do
  let source ← liftExcept (input.sourceOf document)
  let occurrences ← Query.occurrences input.locator presentation.markdown document.id
  let highlighted ← presentation.source source.text document.languageId
  return page input.nav document source highlighted occurrences

/-- The site of the given pages, with the reference sets that were worked out for them. -/
def assemble (nav : List NavNode) (pages : List RenderedPage) (answers : Answers) : Site where
  pages
  welcome := Page.welcome (NavNode.render nav none)
  references := answers.referenceSets.map fun (id, set) => (id, set.toJson.write)

def render (presentation : Presentation) (input : SiteInput) : Except SiteFault Site :=
  let (pages, answers) :=
    (input.documents.mapM (renderPage presentation input)).run.run Answers.empty
  pages.map fun pages => assemble input.nav pages answers

/-- The folder of the reference sets, below the output folder. -/
def referenceFolder : String :=
  "_data/refs"

structure OutputFile where
  path : DiskPath
  contents : List UInt8
  deriving DecidableEq, Repr

def textFile (path : DiskPath) (text : List Char) : OutputFile :=
  ⟨path, Text.encodeUtf8 text⟩

def pageFile (output : DiskPath) (path : String) : DiskPath :=
  output.child s!"{path}.html"

def ownAssets (output : DiskPath) : List OutputFile :=
  Page.assets.map fun (name, text) => textFile ((output.child Page.assetFolder).child name) text

def filesOfPage (output : DiskPath) (page : RenderedPage) : List OutputFile :=
  [textFile (output.child s!"{page.path}.hover.json") page.sidecar,
    textFile (pageFile output page.path) page.html]

def referenceFile (output : DiskPath) (id : ElementId) (json : List Char) : OutputFile :=
  textFile ((output.child referenceFolder).child s!"{id.fileStem}.json") json

/-- All files of a site with the given assets, in the order in which they are written. -/
def files (site : Site) (output : DiskPath) (assets : List OutputFile) : List OutputFile :=
  [textFile (output.child "index.html") site.welcome, ⟨output.child ".nojekyll", []⟩] ++ assets ++
    site.pages.flatMap (filesOfPage output) ++
    site.references.map fun (id, json) => referenceFile output id json

/-- The pages of a site, in the order in which they are checked. -/
def pageFiles (site : Site) (output : DiskPath) : List DiskPath :=
  output.child "index.html" :: site.pages.map fun page => pageFile output page.path

end Site

end CodeAtlas
