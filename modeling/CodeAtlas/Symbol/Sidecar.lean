import CodeAtlas.Json.Writer
import CodeAtlas.Symbol.Occurrence

/-!
# Hover data of a page

What a page loads to answer a reader who points at a symbol. Each range names its hover text and its
definition by the ids of their results, so that a text shared by many ranges is held once.
-/

namespace CodeAtlas

/-- What a page knows about a range: where its hover text and its definition are in the data, and the
name of the file with its references. -/
structure SidecarEntry where
  content : Option String
  definition : Option String
  references : Option String
  deriving DecidableEq, Repr

/-- The hover data of a page, in the order in which the page first needs it. -/
structure Sidecar where
  hovers : List (String × SidecarEntry)
  data : List (String × String)
  deriving DecidableEq, Repr

namespace Sidecar

/-- `data` with `value` under `key`, unless there is a value already. -/
def addData (data : List (String × String)) (key value : String) : List (String × String) :=
  if data.any fun entry => entry.1 == key then data else data ++ [(key, value)]

/-- `hovers` with `entry` under `key`, in its place if there is one already. -/
def putEntry (hovers : List (String × SidecarEntry)) (key : String) (entry : SidecarEntry) :
    List (String × SidecarEntry) :=
  if hovers.any fun other => other.1 == key then
    hovers.map fun other => if other.1 == key then (key, entry) else other
  else hovers ++ [(key, entry)]

/-- The data of an occurrence: its hover text and the link to its definition. -/
def dataOf (occurrence : Occurrence) : List (String × String) :=
  (occurrence.hover.map fun (id, html) => (id.name, String.ofList html)).toList ++
    (occurrence.definition.map fun (id, location) => (id.name, location.url)).toList

def entryOf (occurrence : Occurrence) : SidecarEntry where
  content := occurrence.hover.map fun (id, _) => id.name
  definition := occurrence.definition.map fun (id, _) => id.name
  references := occurrence.references.map ElementId.fileStem

def keyOf (rangeId : ElementId) : String :=
  "x" ++ rangeId.name

def add (sidecar : Sidecar) (occurrence : Occurrence) : Sidecar where
  hovers := putEntry sidecar.hovers (keyOf occurrence.rangeId) (entryOf occurrence)
  data := (dataOf occurrence).foldl (fun data (key, value) => addData data key value) sidecar.data

def ofOccurrences (occurrences : List Occurrence) : Sidecar :=
  occurrences.foldl add ⟨[], []⟩

def optionalField (name : String) (value : Option String) : Json.Fields :=
  (value.map fun value => (name, Json.string value)).toList

def entryJson (entry : SidecarEntry) : Json :=
  .object (optionalField "content" entry.content ++ optionalField "definition" entry.definition ++
    optionalField "references" entry.references)

def toJson (sidecar : Sidecar) : Json :=
  .object
    [("hovers", .object (sidecar.hovers.map fun (key, entry) => (key, entryJson entry))),
      ("data", .object (sidecar.data.map fun (key, value) => (key, .string value)))]

end Sidecar

end CodeAtlas
