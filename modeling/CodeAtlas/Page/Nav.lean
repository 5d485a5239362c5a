import CodeAtlas.Address.PagePath
import CodeAtlas.Render.Basic

/-!
# The navigation tree

The pages of a site as a tree of folders, in the order in which their paths are given. A path that is
a file in one place and a folder in another is refused.
-/

namespace CodeAtlas

inductive NavNode where
  | file (name : String)
  | folder (name : String) (children : List NavNode)
  deriving Repr, BEq

/-- A path that is both a file and a folder. -/
structure NavConflict where
  path : String
  deriving DecidableEq, Repr

def NavConflict.message (conflict : NavConflict) : String :=
  s!"{conflict.path} is used both as a file and as a folder"

namespace NavNode

def name : NavNode → String
  | .file name => name
  | .folder name _ => name

def named? (level : List NavNode) (name : String) : Option NavNode :=
  level.find? fun node => node.name == name

/-- `level` with `children` in the folder of the given name. -/
def putChildren (level : List NavNode) (name : String) (children : List NavNode) : List NavNode :=
  level.map fun node => if node.name == name then .folder name children else node

/-- `level` with the file that `segments` lead to. `path` is the whole path, and `passed` are its
segments down to this level. -/
def insert (path : String) (passed : List String) :
    (segments : List String) → (level : List NavNode) → Except NavConflict (List NavNode)
  | [], level => .ok level
  | [name], level =>
    match named? level name with
    | none => .ok (level ++ [.file name])
    | some (.file _) => .ok level
    | some (.folder _ _) => .error ⟨path⟩
  | name :: next :: more, level =>
    match named? level name with
    | none =>
      (insert path (passed ++ [name]) (next :: more) []).map fun children =>
        level ++ [.folder name children]
    | some (.file _) => .error ⟨"/".intercalate (passed ++ [name])⟩
    | some (.folder _ children) =>
      (insert path (passed ++ [name]) (next :: more) children).map (putChildren level name)

/-- The segments of a path that are not empty. -/
def segments (path : String) : List String :=
  ((path.toList.splitOn '/').filter fun segment => !segment.isEmpty).map String.ofList

def ofPaths (paths : List String) : Except NavConflict (List NavNode) :=
  paths.foldlM (fun level path => insert path [] (segments path) level) []

/-- The path of a node in the folder at `folder`, which is empty at the top. -/
def pathIn (folder name : String) : String :=
  if folder.isEmpty then name else s!"{folder}/{name}"

/-- The link to the page at `path`, marked if it is the current one. -/
def link (toRoot : String) (current : Option String) (path name : String) : List Char :=
  (if current == some path then "<li class=\"current-file\">" else "<li>").toList ++
    "<a href=\"".toList ++ toRoot.toList ++ Markup.escape path.toList ++ ".html\">".toList ++
    Markup.escape name.toList ++ "</a></li>".toList

mutual

def renderNode (toRoot : String) (current : Option String) (folder : String) :
    NavNode → List Char
  | .file name => link toRoot current (pathIn folder name) name
  | .folder name children =>
    "<li class=\"folder\"><span>".toList ++ Markup.escape name.toList ++ "</span><ul>".toList ++
      renderLevel toRoot current (pathIn folder name) children ++ "</ul></li>".toList

def renderLevel (toRoot : String) (current : Option String) (folder : String) :
    List NavNode → List Char
  | [] => []
  | node :: nodes =>
    renderNode toRoot current folder node ++ renderLevel toRoot current folder nodes

end

/-- The tree as it stands on the page at `current`, or on the page to start from. -/
def render (tree : List NavNode) (current : Option String) : List Char :=
  "<ul>".toList ++ renderLevel ((current.map PagePath.toRoot).getD "") current "" tree ++
    "</ul>".toList

end NavNode

end CodeAtlas
