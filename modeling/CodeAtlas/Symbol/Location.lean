import CodeAtlas.Address.PagePath
import CodeAtlas.Dump.Graph
import CodeAtlas.Source

/-!
# Locations

Where a range of the dump is found in the site: a line of the page of the document that holds it.
-/

namespace CodeAtlas

structure Location where
  /-- The link to the line from the output folder. -/
  url : String
  /-- The number of the line, counted from one. -/
  line : UInt32
  /-- The line without blanks at its ends. -/
  text : String
  deriving DecidableEq, Repr

def Location.toJson (location : Location) : Json :=
  .object [("url", .string location.url), ("line", .natural location.line.toNat),
    ("text", .string location.text)]

/-- What locations are found by. -/
structure Locator where
  graph : Graph
  pages : PageMap
  sources : SourceMap

namespace Locator

def documentOf? (locator : Locator) (link : Link) : Option ElementId :=
  match (locator.graph.get? link.edge.source).bind Element.vertex? with
  | some (.document _) => some link.edge.source
  | _ => none

/-- The document that contains a range: the first one, if there are several. -/
def owner? (locator : Locator) (range : ElementId) : Option ElementId :=
  ((locator.graph.incoming range).filter fun link => link.edge.label == .contains).findSome?
    locator.documentOf?

/-- The line of a document where `range` starts, as a location. -/
def lineOf (locator : Locator) (document : ElementId) (path : String) (range : Range) : Location :=
  let number := range.start.line + 1
  let text := (locator.sources.line? document range.start.line.toNat).getD []
  ⟨s!"{path}.html#{number}", number, String.ofList (Text.trim text)⟩

/-- The location of a range. If no document contains it, it is taken to be in the document `hint`.
There is none if the document is not part of the site. -/
def locate (locator : Locator) (rangeId : ElementId) (hint : Option ElementId) :
    Except DumpFault (Option Location) := do
  let range ← locator.graph.range rangeId
  match (locator.owner? rangeId).or hint with
  | none => .error (.noOwningDocument rangeId)
  | some documentId =>
    let document ← locator.graph.document documentId
    .ok ((locator.pages.path? document.uri).map fun path => locator.lineOf documentId path range)

end Locator

end CodeAtlas
