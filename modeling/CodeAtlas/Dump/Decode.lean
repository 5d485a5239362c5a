import CodeAtlas.Dump.Element
import CodeAtlas.Json.Reader

/-!
# Decoding elements

One line of a dump is one JSON object. Its `type` says whether it is a vertex or an edge and its
`label` of which kind; the other fields depend on these. Fields that the element does not have are
passed over, and a field that it does have may stand once only. A record may also be written as the
array of its values.
-/

namespace CodeAtlas

open Json (Fields)

inductive TargetFault where
  | none
  | both
  | empty
  deriving DecidableEq, Repr

def TargetFault.message : TargetFault → String
  | .none => "edge has neither inV nor inVs"
  | .both => "edge carries both inV and inVs"
  | .empty => "edge has an empty inVs list"

inductive DecodeFault where
  /-- The line is not JSON, or not the JSON of an element. -/
  | malformed
  /-- All else is in order, but the edge has no list of targets. -/
  | targets (fault : TargetFault)
  deriving DecidableEq, Repr

def DecodeFault.message : DecodeFault → String
  | .malformed => "not an element of a dump"
  | .targets fault => fault.message

namespace Decode

def required? (fields : Fields) (name : String) : Option Json :=
  (fields.unique? name).join

/-- A field that may be absent or `null`, given how its value is read. -/
def optional? {α : Type} (value? : Json → Option α) (fields : Fields) (name : String) :
    Option (Option α) :=
  match fields.unique? name with
  | none => none
  | some none => some none
  | some (some .null) => some none
  | some (some value) => (value? value).map some

def text? : Json → Option String
  | .string s => some s
  | _ => none

/-- A natural number that fits a 32-bit word. -/
def word? : Json → Option UInt32
  | .natural n => if n < UInt32.size then some (UInt32.ofNat n) else none
  | _ => none

/-- An id: a string, or a natural number. -/
def id? : Json → Option ElementId
  | .natural n => some (.ofNat n)
  | .string s => some ⟨s⟩
  | _ => none

def ids? : Json → Option (List ElementId)
  | .array items => items.mapM id?
  | _ => none

/-- One of a set of names: the name itself, or an object with that name as its only field and nothing
in it. -/
def name? : Json → Option String
  | .string s => some s
  | .object [(name, .null)] => some name
  | .object [(name, .object [])] => some name
  | _ => none

/-- A position: an object, or an array of line and column. -/
def position? : Json → Option Position
  | .object fields => do
    let line ← (required? fields "line").bind word?
    let character ← (required? fields "character").bind word?
    return ⟨line, character⟩
  | .array [line, character] => do
    return ⟨← word? line, ← word? character⟩
  | _ => none

mutual

/-- A value in which every object keeps one field of each name: the last one written. -/
def settle : Json → Json
  | .array items => .array (settleItems items)
  | .object fields => .object (settleFields [] fields)
  | value => value

def settleItems : List Json → List Json
  | [] => []
  | item :: items => settle item :: settleItems items

/-- `settle` on the fields of an object, after those already settled. -/
def settleFields (done : Fields) : List (String × Json) → Fields
  | [] => done
  | (name, value) :: fields => settleFields (Fields.put done name (settle value)) fields

end

/-- The contents of a hover result: an object's field `contents`, or the only item of an array. -/
def contents? : Json → Option Json
  | .object fields => (required? fields "contents").map settle
  | .array [contents] => some (settle contents)
  | _ => none

def metaData? (fields : Fields) : Option MetaData := do
  let projectRoot ← (required? fields "projectRoot").bind text?
  let version ← optional? text? fields "version"
  let positionEncoding ← optional? text? fields "positionEncoding"
  return ⟨projectRoot, version, positionEncoding⟩

/-- The data of a `document` vertex. A document may leave its language open. -/
def document? (fields : Fields) : Option Document := do
  let uri ← (required? fields "uri").bind text?
  let languageId ← match fields.unique? "languageId" with
    | none => none
    | some none => some ""
    | some (some value) => text? value
  return ⟨uri, languageId⟩

def range? (fields : Fields) : Option Range := do
  let start ← (required? fields "start").bind position?
  let stop ← (required? fields "end").bind position?
  return ⟨start, stop⟩

/-- The vertex labels in the order of their numbers. -/
def vertexLabels : List String :=
  ["metaData", "$event", "source", "capabilities", "project", "document", "range", "resultSet",
    "moniker", "packageInformation", "hoverResult", "definitionResult", "declarationResult",
    "referenceResult", "implementationResult", "typeDefinitionResult", "foldingRangeResult",
    "documentLinkResult", "documentSymbolResult", "diagnosticResult"]

/-- A tag: one of `names`, or its number in the list. -/
def tag? (names : List String) : Json → Option String
  | .string s => if s ∈ names then some s else none
  | .natural n => names[n]?
  | _ => none

def vertexOf? (fields : Fields) : (label : String) → Option Vertex
  | "metaData" => (metaData? fields).map .metaData
  | "$event" => some .event
  | "source" => some .source
  | "capabilities" => some .capabilities
  | "project" => some .project
  | "document" => (document? fields).map .document
  | "range" => (range? fields).map .range
  | "resultSet" => some .resultSet
  | "moniker" => some .moniker
  | "packageInformation" => some .packageInformation
  | "hoverResult" => ((required? fields "result").bind contents?).map .hoverResult
  | "definitionResult" => some .definitionResult
  | "declarationResult" => some .declarationResult
  | "referenceResult" => some .referenceResult
  | "implementationResult" => some .implementationResult
  | "typeDefinitionResult" => some .typeDefinitionResult
  | "foldingRangeResult" => some .foldingRangeResult
  | "documentLinkResult" => some .documentLinkResult
  | "documentSymbolResult" => some .documentSymbolResult
  | "diagnosticResult" => some .diagnosticResult
  | _ => none

def vertex? (fields : Fields) : Option Vertex := do
  let label ← (required? fields "label").bind (tag? vertexLabels)
  vertexOf? fields label

/-- The targets of an edge: a single one, or a list that is not empty. -/
def targets : Option ElementId → Option (List ElementId) →
    Except TargetFault (ElementId × List ElementId)
  | some target, none => .ok (target, [])
  | none, some (target :: more) => .ok (target, more)
  | none, some [] => .error .empty
  | some _, some _ => .error .both
  | none, none => .error .none

/-- An edge, if all fields but those of its targets are in order; the targets may still be at
fault. -/
def edge? (fields : Fields) : Option (Except TargetFault Edge) := do
  let label ← ((required? fields "label").bind name?).bind EdgeLabel.ofText?
  let source ← (required? fields "outV").bind id?
  let single ← optional? id? fields "inV"
  let several ← optional? ids? fields "inVs"
  let document ← optional? id? fields "document"
  let property ← optional? name? fields "property"
  return (targets single several).map fun (target, more) =>
    ⟨label, source, target, more, document, property.map ItemProperty.ofText⟩

def fields (fields : Fields) : Except DecodeFault Element :=
  match (required? fields "id").bind id?, (required? fields "type").bind (tag? ["vertex", "edge"]) with
  | some id, some "vertex" =>
    match vertex? fields with
    | some vertex => .ok ⟨id, .vertex vertex⟩
    | none => .error .malformed
  | some id, some "edge" =>
    match edge? fields with
    | some (.ok edge) => .ok ⟨id, .edge edge⟩
    | some (.error fault) => .error (.targets fault)
    | none => .error .malformed
  | _, _ => .error .malformed

def value : Json → Except DecodeFault Element
  | .object fields => Decode.fields fields
  | _ => .error .malformed

end Decode

/-- The element that a line of a dump is. A fault of the object's own comes before a fault of what
follows it on the line. -/
def Element.decode (line : List Char) : Except DecodeFault Element :=
  match Json.readValue? Json.maxDepth line with
  | none => .error .malformed
  | some (value, rest) =>
    match Decode.value value with
    | .error fault => .error fault
    | .ok element => if (Json.skipSpace rest).isEmpty then .ok element else .error .malformed

end CodeAtlas
