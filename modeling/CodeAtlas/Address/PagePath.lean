import CodeAtlas.Address.UriMap
import CodeAtlas.Text.Utf8

/-!
# Page paths

Each document of the site has a path below the output folder, without a leading slash and before any
extension. It comes from the document's URI: by the table of URI prefixes, or else by cutting off the
project's root. A path that could leave the output folder is refused.
-/

namespace CodeAtlas

namespace PagePath

/-- Whether `segment` is a plain name: neither empty nor a step to this folder or the one above, and
free of backslashes and NUL characters. -/
def isPlainName (segment : List Char) : Bool :=
  !segment.isEmpty && segment != ['.'] && segment != ['.', '.'] &&
    !segment.contains '\\' && !segment.contains '\x00'

/-- Whether every segment of `path` is a plain name and the first is no drive. -/
def isContained (path : List Char) : Bool :=
  match path.splitOn '/' with
  | [] => true
  | first :: rest =>
    isPlainName first && first.getLast? != some ':' && rest.all isPlainName

/-- The number of folders between the output folder and the page at `path`. -/
def depth (path : String) : Nat :=
  path.toList.count '/'

/-- The way from the folder of the page at `path` back to the output folder. -/
def toRoot (path : String) : String :=
  String.join (List.replicate (depth path) "../")

def fileName (path : String) : String :=
  String.ofList ((path.toList.splitOn '/').getLast?.getD [])

end PagePath

/-- How documents get their paths: the project's root, with its closing slash, and the table of URI
prefixes. -/
structure PageMap where
  root : String
  uriMap : UriMap
  deriving DecidableEq, Repr

namespace PageMap

def ofRoot (projectRoot : String) (uriMap : UriMap) : PageMap :=
  ⟨if projectRoot.toList.getLast? = some '/' then projectRoot else projectRoot ++ "/", uriMap⟩

/-- The path that `uri` is sent to before escapes are read: by the table, or else below the root. -/
def target? (map : PageMap) (uri : String) : Option (List Char) :=
  match map.uriMap.lookup uri with
  | some target => some target.toList
  | none => Text.dropRun? map.root.toList uri.toList

/-- The path of the page for the document with the given URI; `none` if the document is not part of
the site. -/
def path? (map : PageMap) (uri : String) : Option String := do
  let target ← map.target? uri
  let trimmed := target.dropWhile (· == '/')
  if trimmed.isEmpty || trimmed.getLast? == some '/' then none
  else
    let path ← Text.decodeUtf8? (Text.percentDecode (Text.encodeUtf8 trimmed))
    if PagePath.isContained path.toList then some path else none

end PageMap

end CodeAtlas
