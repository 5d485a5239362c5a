import CodeAtlas.Address.Url
import CodeAtlas.Dump.Graph
import CodeAtlas.Fault

/-!
# The plan of a site

Which documents get a page, and where. Documents without a path are left out, and so are those whose
path another document has already.
-/

namespace CodeAtlas

/-- A document that gets a page. -/
structure PlannedDocument where
  id : ElementId
  /-- The path of its page, before any extension. -/
  path : String
  /-- The file with its source. -/
  source : DiskPath
  languageId : String
  deriving DecidableEq, Repr

/-- The documents that get a page, and how many are left out. -/
structure Plan where
  documents : List PlannedDocument
  skipped : Nat
  deriving DecidableEq, Repr

def sourcePath (uri : String) : Except SiteFault DiskPath :=
  match Url.parse uri.toList with
  | .error fault => .error (.badUri uri fault.message)
  | .ok url =>
    match url.localPath? with
    | none => .error (.badUri uri "not a local file uri")
    | some bytes => .ok ⟨bytes⟩

namespace Plan

def empty : Plan :=
  ⟨[], 0⟩

def skip (plan : Plan) : Plan :=
  { plan with skipped := plan.skipped + 1 }

def hasPath (plan : Plan) (path : String) : Bool :=
  plan.documents.any fun document => document.path == path

def add (pages : PageMap) (plan : Plan) (entry : ElementId × Document) : Except SiteFault Plan :=
  match pages.path? entry.2.uri with
  | none => .ok plan.skip
  | some path =>
    if plan.hasPath path then .ok plan.skip
    else
      (sourcePath entry.2.uri).map fun source =>
        { plan with
          documents := ⟨entry.1, path, source, entry.2.languageId⟩ :: plan.documents }

/-- The plan of a dump, in the order of the paths. -/
def ofGraph (graph : Graph) (pages : PageMap) : Except SiteFault Plan :=
  (graph.documents.foldlM (add pages) empty).map fun plan =>
    { plan with documents := plan.documents.mergeSort fun a b => decide (a.path ≤ b.path) }

def paths (plan : Plan) : List String :=
  plan.documents.map (·.path)

end Plan

end CodeAtlas
