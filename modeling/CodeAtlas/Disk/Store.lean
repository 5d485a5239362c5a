import CodeAtlas.Disk.Basic
import Std.Data.TreeMap

/-!
# A disk in memory

Files and folders by their places. A place is the list of names that lead there from the top, which is
always a folder; what is at a place is in a folder at the place before it.
-/

namespace CodeAtlas

abbrev Place := List DiskPath.Step

inductive DiskNode where
  | folder
  | file (contents : List UInt8)
  deriving DecidableEq, Repr

/-- A disk in memory, and the place that relative paths start from. -/
structure Store where
  nodes : Std.TreeMap Place DiskNode
  current : Place

namespace Store

/-- The longest name that a file or folder may have, in bytes. -/
def maxName : Nat :=
  255

/-- The longest path that is looked up, in bytes. -/
def maxPath : Nat :=
  4095

def node? (store : Store) (place : Place) : Option DiskNode :=
  if place.isEmpty then some .folder else store.nodes[place]?

def put (store : Store) (place : Place) (node : DiskNode) : Store :=
  { store with nodes := store.nodes.insert place node }

/-- The place that steps lead to from another. All but the last of the places on the way have to be
folders; the last need not be there. -/
def walk (store : Store) (place : Place) : List DiskPath.Step → Except DiskFault Place
  | [] => .ok place
  | step :: steps =>
    match store.node? place with
    | none => .error .notFound
    | some (.file _) => .error .notFolder
    | some .folder =>
      if DiskPath.isIdle step then store.walk place steps
      else if step = DiskPath.above then store.walk place.dropLast steps
      else if maxName < step.length then .error .nameTooLong
      else store.walk (place ++ [step]) steps

/-- The place where a path starts, unless no disk can have it. -/
def start (store : Store) (path : DiskPath) : Except DiskFault Place :=
  if path.bytes.contains 0 then .error .nulInPath
  else if path.bytes.isEmpty then .error .notFound
  else if maxPath < path.bytes.length then .error .nameTooLong
  else .ok (if path.isAbsolute then [] else store.current)

def locate (store : Store) (path : DiskPath) : Except DiskFault Place := do
  store.walk (← store.start path) path.steps

def lookup (store : Store) (path : DiskPath) : Except DiskFault (Place × DiskNode) := do
  let place ← store.locate path
  match store.node? place with
  | none => .error .notFound
  | some node => .ok (place, node)

def read (store : Store) (path : DiskPath) : Except DiskFault (List UInt8) := do
  match ← store.lookup path with
  | (_, .file contents) => .ok contents
  | (_, .folder) => .error .isFolder

def endsInName (path : DiskPath) : Bool :=
  match path.steps.getLast? with
  | none => false
  | some step => !DiskPath.isIdle step && step != DiskPath.above

def write (store : Store) (path : DiskPath) (contents : List UInt8) : Except DiskFault Store := do
  let place ← store.start path
  if endsInName path then
    let place ← store.walk place path.steps
    match store.node? place with
    | some .folder => .error .isFolder
    | _ => .ok (store.put place (.file contents))
  else
    let _ ← store.walk place path.steps.dropLast
    .error .isFolder

/-- The store with the folders made that steps lead through from the folder at a place, and what is
wrong with the first one that cannot be made. -/
def makeSteps (store : Store) (place : Place) : List DiskPath.Step → Option DiskFault × Store
  | [] => (none, store)
  | step :: steps =>
    if step = DiskPath.above then store.makeSteps place.dropLast steps
    else if maxName < step.length then (some .nameTooLong, store)
    else
      let next := place ++ [step]
      match store.node? next with
      | some .folder => store.makeSteps next steps
      | some (.file _) => (some (if steps.isEmpty then .exists else .notFolder), store)
      | none => (store.put next .folder).makeSteps next steps

/-- The store with a folder and the folders it is in, and what is wrong if they cannot be made. -/
def makeFolders (store : Store) (path : DiskPath) : Option DiskFault × Store :=
  if path.bytes.isEmpty then (none, store)
  else
    match store.start path with
    | .error fault => (some fault, store)
    | .ok place => store.makeSteps place (path.steps.filter fun step => !DiskPath.isIdle step)

/-- The store without what is strictly below a place. -/
def clear (store : Store) (place : Place) : Store :=
  { store with
    nodes := store.nodes.filter fun other _ => !(place.isPrefixOf other && place != other) }

/-- Why a folder that a path names cannot be removed, though it is empty: the path does not end in its
name. -/
def unremovable? (path : DiskPath) : Option DiskFault :=
  match (path.steps.reverse.dropWhile List.isEmpty).head? with
  | none => some .busy
  | some step =>
    if step = DiskPath.here then some .invalid
    else if step = DiskPath.above then some .notEmpty
    else none

/-- The store without a folder and what is in it, and what is wrong if it cannot be removed. What is in
the folder goes first, and with it perhaps a folder that the path leads through. -/
def removeTree (store : Store) (path : DiskPath) : Option DiskFault × Store :=
  match store.lookup path with
  | .error fault => (some fault, store)
  | .ok (_, .file _) => (some .notFolder, store)
  | .ok (place, .folder) =>
    let cleared := store.clear place
    match cleared.locate path with
    | .error fault => (some fault, cleared)
    | .ok _ =>
      match unremovable? path with
      | some fault => (some fault, cleared)
      | none => (none, { cleared with nodes := cleared.nodes.erase place })

/-- The files below a place, by the names that lead to them from there, with their contents. -/
def filesUnder (store : Store) (place : Place) : List (Place × List UInt8) :=
  store.nodes.toList.filterMap fun (other, node) =>
    match node with
    | .folder => none
    | .file contents =>
      if place.isPrefixOf other then some (other.drop place.length, contents) else none

def filesBelow (store : Store) (path : DiskPath) : Except DiskFault (List Place) := do
  let (place, _) ← store.lookup path
  return (store.filesUnder place).map (·.1)

/-- The answer to an operation that fails for the given reason, if any. -/
def outcome : Option DiskFault → Except DiskFault Unit
  | none => .ok ()
  | some fault => .error fault

end Store

instance : Disk (StateM Store) where
  read path := fun store => (store.read path, store)
  write path contents := fun store =>
    match store.write path contents with
    | .ok store => (.ok (), store)
    | .error fault => (.error fault, store)
  makeFolders path := fun store =>
    let (fault, store) := store.makeFolders path
    (Store.outcome fault, store)
  removeTree path := fun store =>
    let (fault, store) := store.removeTree path
    (Store.outcome fault, store)
  filesBelow path := fun store => (store.filesBelow path, store)

end CodeAtlas
