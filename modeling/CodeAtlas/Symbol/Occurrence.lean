import CodeAtlas.Markup.Weave
import CodeAtlas.Symbol.Memo

/-!
# Occurrences

The ranges of a document about which the dump knows something: what to show when a reader points at
them, and where their definitions and references are. Each gets a pair of markers around its text.
-/

namespace CodeAtlas

/-- What the dump knows about a range. -/
structure Occurrence where
  rangeId : ElementId
  range : Range
  /-- The hover result and its markup. -/
  hover : Option (ElementId × List Char)
  /-- The definition result and where it leads. -/
  definition : Option (ElementId × Location)
  references : Option ElementId
  deriving DecidableEq, Repr

namespace Occurrence

def openMarker (rangeId : ElementId) : List Char :=
  "<span id=\"lsif".toList ++ rangeId.name.toList ++ "\">".toList

def closeMarker : List Char :=
  "</span>".toList

def markers (occurrence : Occurrence) : List Markup.Insertion :=
  [⟨occurrence.range.start, openMarker occurrence.rangeId⟩, ⟨occurrence.range.stop, closeMarker⟩]

/-- What the parts known about a range make of it; nothing if no part is known. -/
def ofParts (rangeId : ElementId) (range : Range) (hover : Option (ElementId × List Char))
    (definition : Option (ElementId × Location)) (references : Option ElementId) :
    Option Occurrence :=
  if hover.isNone && definition.isNone && references.isNone then none
  else some ⟨rangeId, range, hover, definition, references⟩

end Occurrence

def markersOf (occurrences : List Occurrence) : List Markup.Insertion :=
  occurrences.flatMap Occurrence.markers

namespace Locator

/-- Where the definition result `id` leads from a range: to the first target of its first item, unless
that is the range itself. -/
def definition? (locator : Locator) (rangeId id : ElementId) : Except DumpFault (Option Location) :=
  match locator.graph.firstLink? id .item with
  | none => .ok none
  | some link =>
    if link.edge.target = rangeId then .ok none
    else locator.locate link.edge.target link.edge.document

/-- The definition of a range: the definition result that its chain leads to, and where that
leads. -/
def definitionOf? (locator : Locator) (rangeId : ElementId) :
    Except DumpFault (Option (ElementId × Location)) := do
  match ← locator.graph.resolve rangeId .definition with
  | none => return none
  | some (id, _) => return (← locator.definition? rangeId id).map fun location => (id, location)

end Locator

namespace Query

/-- The hover text of a range: the hover result that its chain leads to, and its markup. -/
def hoverOf (locator : Locator) (renderer : MarkdownRenderer) (rangeId : ElementId) :
    Query (Option (ElementId × List Char)) := do
  match ← locator.graph.resolve rangeId .hover with
  | none => return none
  | some (id, .hoverResult contents) => return some (id, ← hover renderer id contents)
  | some (id, _) => throw (.dump (.unexpectedKind id "hoverResult"))

/-- The references of a range: the reference result that its chain leads to, if that has a set. -/
def referencesOf (locator : Locator) (rangeId : ElementId) : Query (Option ElementId) := do
  match ← locator.graph.resolve rangeId .references with
  | none => return none
  | some (id, _) => return (← referenceSet locator id).map fun _ => id

/-- What the dump knows about an element that a document contains: nothing unless it is a range, and
not an empty one. -/
def occurrence (locator : Locator) (renderer : MarkdownRenderer) (id : ElementId) :
    Query (Option Occurrence) := do
  match ← locator.graph.vertex id with
  | .range range =>
    if range.isEmpty then return none
    else
      let hover ← hoverOf locator renderer id
      let definition ← locator.definitionOf? id
      let references ← referencesOf locator id
      return Occurrence.ofParts id range hover definition references
  | _ => return none

/-- The occurrences in a document, in the order in which it lists its ranges. -/
def occurrences (locator : Locator) (renderer : MarkdownRenderer) (document : ElementId) :
    Query (List Occurrence) := do
  let contained := (locator.graph.outgoingLabeled document .contains).flatMap (·.edge.targets)
  return (← contained.mapM (occurrence locator renderer)).filterMap id

end Query

end CodeAtlas
