import CodeAtlas.Fault
import CodeAtlas.Text.Lines

/-!
# The symbol graph

A dump in memory, with its elements by id and its edges by the vertices they leave and reach. A graph
is built from the list of elements in the order of the dump; it is refused if an id stands for two
elements, if it has not exactly one `metaData` vertex, or if an edge leads to anything but a vertex.
-/

namespace CodeAtlas

structure Link where
  id : ElementId
  edge : Edge
  deriving DecidableEq, Repr, Inhabited

/-- Links by an id at one of their ends, each list in the order of the dump. -/
abbrev LinkTable := Std.TreeMap ElementId (Array Link)

/-- `table` with `link` added after the links at `id`. -/
def LinkTable.add (table : LinkTable) (id : ElementId) (link : Link) : LinkTable :=
  table.alter id fun links => some ((links.getD #[]).push link)

def LinkTable.at (table : LinkTable) (id : ElementId) : List Link :=
  (table.getD id #[]).toList

/-- The elements of a dump read so far. -/
structure Index where
  byId : Std.TreeMap ElementId Element
  outgoing : LinkTable
  incoming : LinkTable
  metaData : Option MetaData
  /-- The documents, last first. -/
  documents : List (ElementId × Document)

namespace Index

def empty : Index :=
  ⟨∅, ∅, ∅, none, []⟩

def addLink (index : Index) (link : Link) : Index :=
  { index with
    outgoing := index.outgoing.add link.edge.source link
    incoming := link.edge.targets.foldl (fun table target => table.add target link) index.incoming }

def addVertex (index : Index) (id : ElementId) : Vertex → Except DumpFault Index
  | .metaData data =>
    match index.metaData with
    | some _ => .error (.duplicateMetaData id)
    | none => .ok { index with metaData := some data }
  | .document document => .ok { index with documents := (id, document) :: index.documents }
  | _ => .ok index

def add (index : Index) (element : Element) : Except DumpFault Index :=
  if index.byId.contains element.id then .error (.duplicateId element.id)
  else
    let index := { index with byId := index.byId.insert element.id element }
    match element.kind with
    | .edge edge => .ok (index.addLink ⟨element.id, edge⟩)
    | .vertex vertex => index.addVertex element.id vertex

def ofElements (elements : List Element) : Except DumpFault Index :=
  elements.foldlM add empty

end Index

/-- A dump in memory. -/
structure Graph where
  elements : List Element
  byId : Std.TreeMap ElementId Element
  outgoingTable : LinkTable
  incomingTable : LinkTable
  metaData : MetaData
  documents : List (ElementId × Document)

/-- The ids that an edge names, in the order in which they are checked. -/
def Edge.endpoints (edge : Edge) : List ElementId :=
  edge.source :: edge.targets ++ edge.document.toList

namespace Graph

def get? (graph : Graph) (id : ElementId) : Option Element :=
  graph.byId[id]?

/-- Nothing if `endpoint` is a vertex, and otherwise what is wrong with the edge that names it. -/
def endpointFault? (graph : Graph) (edge endpoint : ElementId) : Option DumpFault :=
  match graph.get? endpoint with
  | none => some (.missingElement endpoint)
  | some element =>
    match element.kind with
    | .vertex _ => none
    | .edge _ => some (.edgeEndpoint edge endpoint)

/-- What is wrong with the first bad endpoint of the first edge that has one. -/
def endpointFaults (graph : Graph) (elements : List Element) : Option DumpFault :=
  elements.findSome? fun element =>
    element.edge?.bind fun edge => edge.endpoints.findSome? (graph.endpointFault? element.id)

def ofElements (elements : List Element) : Except DumpFault Graph := do
  let index ← Index.ofElements elements
  match index.metaData with
  | none => .error .missingMetaData
  | some metaData =>
    let graph : Graph :=
      ⟨elements, index.byId, index.outgoing, index.incoming, metaData, index.documents.reverse⟩
    match graph.endpointFaults elements with
    | some fault => .error fault
    | none => .ok graph

def decodeLine (number : Nat) (line : List Char) : Except DumpFault (Option Element) :=
  match Text.trim line with
  | [] => .ok none
  | text =>
    match Element.decode text with
    | .ok element => .ok (some element)
    | .error cause => .error (.badLine number cause)

/-- The elements on the lines of a dump, the first of which has the given number. `done` holds those
read so far, last first. -/
def decodeLines (done : List Element) (number : Nat) :
    List (List Char) → Except DumpFault (List Element)
  | [] => .ok done.reverse
  | line :: lines =>
    match decodeLine number line with
    | .error fault => .error fault
    | .ok none => decodeLines done (number + 1) lines
    | .ok (some element) => decodeLines (element :: done) (number + 1) lines

/-- The graph of a dump's text: one element on each line that is not blank. -/
def parse (text : List Char) : Except DumpFault Graph := do
  ofElements (← decodeLines [] 1 (Text.lines text))

/-! ### Questions -/

/-- The element with the given id, which has to be there. -/
def require (graph : Graph) (id : ElementId) : Except DumpFault Element :=
  match graph.get? id with
  | some element => .ok element
  | none => .error (.missingElement id)

def vertex (graph : Graph) (id : ElementId) : Except DumpFault Vertex :=
  match graph.require id with
  | .error fault => .error fault
  | .ok element =>
    match element.kind with
    | .vertex vertex => .ok vertex
    | .edge _ => .error (.unexpectedKind id "vertex")

def range (graph : Graph) (id : ElementId) : Except DumpFault Range :=
  match graph.vertex id with
  | .error fault => .error fault
  | .ok (.range range) => .ok range
  | .ok _ => .error (.unexpectedKind id "range")

def document (graph : Graph) (id : ElementId) : Except DumpFault Document :=
  match graph.vertex id with
  | .error fault => .error fault
  | .ok (.document document) => .ok document
  | .ok _ => .error (.unexpectedKind id "document")

def outgoing (graph : Graph) (id : ElementId) : List Link :=
  graph.outgoingTable.at id

/-- The edges that reach `id`, in the order of the dump; one that names it several times is listed
as often. -/
def incoming (graph : Graph) (id : ElementId) : List Link :=
  graph.incomingTable.at id

def outgoingLabeled (graph : Graph) (id : ElementId) (label : EdgeLabel) : List Link :=
  (graph.outgoing id).filter fun link => link.edge.label == label

def size (graph : Graph) : Nat :=
  graph.elements.length

def edgeCount (graph : Graph) : Nat :=
  graph.elements.countP fun element => element.edge?.isSome

def projectRoot (graph : Graph) : String :=
  graph.metaData.projectRoot

end Graph

end CodeAtlas
