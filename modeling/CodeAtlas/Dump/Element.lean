import CodeAtlas.Dump.Id
import CodeAtlas.Json.Basic

/-!
# Elements of a dump

A dump is a list of elements, each a vertex or an edge of the symbol graph. The vertices that the
site is made from carry data: the project's root, documents, ranges and hover texts.
-/

namespace CodeAtlas

/-- A place in a source text: a zero-based line and a zero-based column in UTF-16 units. -/
structure Position where
  line : UInt32
  character : UInt32
  deriving DecidableEq, Repr, Inhabited

structure Range where
  start : Position
  stop : Position
  deriving DecidableEq, Repr, Inhabited

def Range.isEmpty (range : Range) : Bool :=
  range.start == range.stop

/-- What the dump says about itself. -/
structure MetaData where
  projectRoot : String
  version : Option String
  positionEncoding : Option String
  deriving DecidableEq, Repr, Inhabited

/-- A source file of the project or of one of its dependencies. -/
structure Document where
  uri : String
  languageId : String
  deriving DecidableEq, Repr, Inhabited

inductive Vertex where
  | metaData (data : MetaData)
  | event
  | source
  | capabilities
  | project
  | document (document : Document)
  | range (range : Range)
  | resultSet
  | moniker
  | packageInformation
  | hoverResult (contents : Json)
  | definitionResult
  | declarationResult
  | referenceResult
  | implementationResult
  | typeDefinitionResult
  | foldingRangeResult
  | documentLinkResult
  | documentSymbolResult
  | diagnosticResult
  deriving Inhabited

def Vertex.label : Vertex → String
  | .metaData _ => "metaData"
  | .event => "$event"
  | .source => "source"
  | .capabilities => "capabilities"
  | .project => "project"
  | .document _ => "document"
  | .range _ => "range"
  | .resultSet => "resultSet"
  | .moniker => "moniker"
  | .packageInformation => "packageInformation"
  | .hoverResult _ => "hoverResult"
  | .definitionResult => "definitionResult"
  | .declarationResult => "declarationResult"
  | .referenceResult => "referenceResult"
  | .implementationResult => "implementationResult"
  | .typeDefinitionResult => "typeDefinitionResult"
  | .foldingRangeResult => "foldingRangeResult"
  | .documentLinkResult => "documentLinkResult"
  | .documentSymbolResult => "documentSymbolResult"
  | .diagnosticResult => "diagnosticResult"

inductive EdgeLabel where
  | contains
  | item
  | next
  | moniker
  | nextMoniker
  | packageInformation
  | attach
  | belongsTo
  | hover
  | definition
  | declaration
  | references
  | implementation
  | typeDefinition
  | foldingRange
  | documentLink
  | documentSymbol
  | diagnostic
  deriving DecidableEq, Repr, Inhabited

/-- The label of an edge that a dump writes as `text`. -/
def EdgeLabel.ofText? : String → Option EdgeLabel
  | "contains" => some .contains
  | "item" => some .item
  | "next" => some .next
  | "moniker" => some .moniker
  | "nextMoniker" => some .nextMoniker
  | "packageInformation" => some .packageInformation
  | "attach" => some .attach
  | "belongsTo" => some .belongsTo
  | "textDocument/hover" => some .hover
  | "textDocument/definition" => some .definition
  | "textDocument/declaration" => some .declaration
  | "textDocument/references" => some .references
  | "textDocument/implementation" => some .implementation
  | "textDocument/typeDefinition" => some .typeDefinition
  | "textDocument/foldingRange" => some .foldingRange
  | "textDocument/documentLink" => some .documentLink
  | "textDocument/documentSymbol" => some .documentSymbol
  | "textDocument/diagnostic" => some .diagnostic
  | _ => none

/-- What the targets of an item edge are to the result that it leaves. -/
inductive ItemProperty where
  | definitions
  | declarations
  | references
  | referenceResults
  | referenceLinks
  | other
  deriving DecidableEq, Repr, Inhabited

def ItemProperty.ofText : String → ItemProperty
  | "definitions" => .definitions
  | "declarations" => .declarations
  | "references" => .references
  | "referenceResults" => .referenceResults
  | "referenceLinks" => .referenceLinks
  | _ => .other

/-- An edge, from one vertex to one or several others. -/
structure Edge where
  label : EdgeLabel
  source : ElementId
  target : ElementId
  /-- The targets after the first. -/
  moreTargets : List ElementId
  /-- The document that the targets of an item edge lie in. -/
  document : Option ElementId
  property : Option ItemProperty
  deriving DecidableEq, Repr, Inhabited

/-- All targets of an edge, in the order they are written. -/
def Edge.targets (edge : Edge) : List ElementId :=
  edge.target :: edge.moreTargets

inductive ElementKind where
  | vertex (vertex : Vertex)
  | edge (edge : Edge)
  deriving Inhabited

structure Element where
  id : ElementId
  kind : ElementKind
  deriving Inhabited

def Element.vertex? (element : Element) : Option Vertex :=
  match element.kind with
  | .vertex vertex => some vertex
  | .edge _ => none

def Element.edge? (element : Element) : Option Edge :=
  match element.kind with
  | .vertex _ => none
  | .edge edge => some edge

end CodeAtlas
