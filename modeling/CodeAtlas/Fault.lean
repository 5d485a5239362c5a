import CodeAtlas.Disk.Basic
import CodeAtlas.Dump.Decode
import CodeAtlas.Page.Nav

/-!
# Faults

What can be wrong with a dump, when it is loaded and when a question about one of its symbols leads to
something that cannot be answered; and why a site cannot be built: a disk, a dump, a document's address, the
navigation tree or the highlighting of a source can be at fault.
-/

namespace CodeAtlas

inductive DumpFault where
  /-- The line with this number, counted from one, is not an element. -/
  | badLine (number : Nat) (cause : DecodeFault)
  | missingElement (id : ElementId)
  | duplicateId (id : ElementId)
  /-- An edge leads from or to another edge. -/
  | edgeEndpoint (edge endpoint : ElementId)
  | missingMetaData
  | duplicateMetaData (second : ElementId)
  | unexpectedKind (id : ElementId) (expected : String)
  /-- A walk that may pass each element once comes back to one of them. -/
  | cycle (start revisited : ElementId)
  | unrecognizedHover (id : ElementId)
  | noOwningDocument (range : ElementId)
  deriving DecidableEq, Repr

def DumpFault.message : DumpFault → String
  | .badLine number cause => s!"line {number}: " ++ cause.message
  | .missingElement id => s!"element {id.name} is referenced but not present in the dump"
  | .duplicateId id => s!"element id {id.name} appears more than once"
  | .edgeEndpoint edge endpoint =>
    s!"edge {edge.name} is malformed: endpoint {endpoint.name} is an edge"
  | .missingMetaData => "dump has no metaData vertex"
  | .duplicateMetaData second => s!"dump has more than one metaData vertex (second is {second.name})"
  | .unexpectedKind id expected => s!"element {id.name} is not a {expected}"
  | .cycle start revisited =>
    s!"result-set chain starting at {start.name} revisits {revisited.name}"
  | .unrecognizedHover id =>
    s!"hover result {id.name} has an unrecognized shape: " ++
      "data did not match any variant of untagged enum HoverContents"
  | .noOwningDocument range => s!"range {range.name} is not contained in any document"

inductive SiteFault where
  | disk (path : DiskPath) (cause : DiskFault)
  /-- The files below a path cannot be listed. -/
  | listing (path : DiskPath) (cause : DiskFault)
  | badUriMap
  | dump (cause : DumpFault)
  | nav (conflict : NavConflict)
  /-- A document has a URI that leads to no file. -/
  | badUri (uri reason : String)
  | highlight (cause : HighlightFault)
  /-- A part of the work was not done when another one needed it. -/
  | task (reason : String)
  deriving DecidableEq, Repr

def SiteFault.message : SiteFault → String
  | .disk path cause => s!"I/O error at {path.display}: {cause.message}"
  | .listing path cause =>
    s!"I/O error at {path.display}: IO error for operation on {path.display}: {cause.message}"
  | .badUriMap => "JSON serialization/deserialization error: expected an object of strings"
  | .dump cause => s!"malformed LSIF dump: {cause.message}"
  | .nav conflict => s!"navigation tree error: {conflict.message}"
  | .badUri uri reason => s!"cannot map document uri {uri}: {reason}"
  | .highlight cause => cause.message
  | .task reason => s!"task error: {reason}"

end CodeAtlas
