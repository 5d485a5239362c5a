import CodeAtlas.Json.Reader

/-!
# The table of URI prefixes

A table that a user supplies sends URIs with a given start to paths with another start. The longest
start wins, whatever the order of the table.
-/

namespace CodeAtlas

/-- A table from starts of URIs to starts of paths, the longest start first. -/
structure UriMap where
  entries : List (String × String)
  deriving DecidableEq, Repr

namespace UriMap

/-- The table of the given entries. Starts of one length keep their order. -/
def ofEntries (entries : List (String × String)) : UriMap :=
  ⟨entries.mergeSort fun a b => b.1.utf8ByteSize ≤ a.1.utf8ByteSize⟩

def empty : UriMap :=
  ⟨[]⟩

/-- What the entry `(start, target)` sends `uri` to. -/
def send? (uri : String) (entry : String × String) : Option String :=
  (Text.dropRun? entry.1.toList uri.toList).map fun rest => entry.2 ++ String.ofList rest

/-- What the table sends `uri` to: the target of the longest start that `uri` has, and the rest of
`uri`. -/
def lookup (map : UriMap) (uri : String) : Option String :=
  map.entries.findSome? (send? uri)

/-- `entries` with `target` for `start`, in its place if it stands already. -/
def putEntry (entries : List (String × String)) (start target : String) : List (String × String) :=
  if entries.any fun entry => entry.1 == start then
    entries.map fun entry => if entry.1 == start then (start, target) else entry
  else entries ++ [(start, target)]

/-- The entries of a JSON object whose values are all strings. Of two values for one start the last
counts. -/
def entriesOf? (done : List (String × String)) : Json.Fields → Option (List (String × String))
  | [] => some done
  | (start, .string target) :: fields => entriesOf? (putEntry done start target) fields
  | _ :: _ => none

def ofJson? (text : List Char) : Option UriMap :=
  match Json.read? text with
  | some (.object fields) => (entriesOf? [] fields).map ofEntries
  | _ => none

end UriMap

end CodeAtlas
