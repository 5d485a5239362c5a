import CodeAtlas.Text.Utf8

/-!
# Paths on a disk

A path names a file or a folder by the steps that lead there, divided by slashes. A step is a name,
which may hold any bytes but a slash.
-/

namespace CodeAtlas

/-- A path, by its bytes. -/
structure DiskPath where
  bytes : List UInt8
  deriving DecidableEq, Repr

namespace DiskPath

abbrev Step := List UInt8

def slash : UInt8 :=
  0x2f

/-- The step that stays in a folder. -/
def here : Step :=
  [0x2e]

def above : Step :=
  [0x2e, 0x2e]

def ofString (text : String) : DiskPath :=
  ⟨Text.bytesOf text⟩

def display (path : DiskPath) : String :=
  String.ofList (Text.decodeLossy path.bytes)

def isAbsolute (path : DiskPath) : Bool :=
  path.bytes.head? == some slash

/-- `other` read from the folder at `path`. -/
def join (path other : DiskPath) : DiskPath :=
  if other.isAbsolute then other
  else if path.bytes.isEmpty || path.bytes.getLast? == some slash then ⟨path.bytes ++ other.bytes⟩
  else ⟨path.bytes ++ slash :: other.bytes⟩

def child (path : DiskPath) (name : String) : DiskPath :=
  path.join (ofString name)

def ofSteps (steps : List Step) : DiskPath :=
  ⟨[slash].intercalate steps⟩

/-- The steps of the path, empty ones included. -/
def steps (path : DiskPath) : List Step :=
  path.bytes.splitOn slash

/-- Whether a step leads nowhere. -/
def isIdle (step : Step) : Bool :=
  step.isEmpty || step == here

/-- The folder that holds what the path names, if the path has any step at all. -/
def parent? (path : DiskPath) : Option DiskPath :=
  match path.steps.reverse.dropWhile isIdle with
  | [] => none
  | _ :: before =>
    match before.dropWhile isIdle with
    | [] =>
      if path.isAbsolute then some ⟨[slash]⟩
      else if before.getLast? == some here then some ⟨here⟩
      else some ⟨[]⟩
    | before => some (ofSteps before.reverse)

end DiskPath

end CodeAtlas
