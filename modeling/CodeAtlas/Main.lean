import CodeAtlas.CommandLine

/-!
# The program

Runs the command on the disk of the machine. No grammars come with the program, so source is shown
without highlighting.
-/

namespace CodeAtlas

/-- The number that the machine gives an error, and what it says about it. -/
def errorCode? : IO.Error → Option (UInt32 × String)
  | .alreadyExists _ code text | .invalidArgument _ code text | .permissionDenied _ code text
  | .resourceExhausted _ code text | .inappropriateType _ code text | .noSuchThing _ code text =>
    some (code, text)
  | .interrupted _ code text | .noFileOrDirectory _ code text => some (code, text)
  | .otherError code text | .resourceBusy code text | .resourceVanished code text
  | .unsupportedOperation code text | .hardwareFault code text | .unsatisfiedConstraints code text
  | .illegalOperation code text | .protocolError code text | .timeExpired code text =>
    some (code, text)
  | .unexpectedEof | .userError _ => none

def DiskFault.ofError (error : IO.Error) : DiskFault :=
  match errorCode? error with
  | some (2, _) => .notFound
  | some (16, _) => .busy
  | some (17, _) => .exists
  | some (20, _) => .notFolder
  | some (21, _) => .isFolder
  | some (22, _) => .invalid
  | some (36, _) => .nameTooLong
  | some (39, _) => .notEmpty
  | some (code, text) => .other s!"{text} (os error {code})"
  | none => .other (toString error)

def attempt {α : Type} (action : IO α) : IO (Except DiskFault α) := do
  try
    return .ok (← action)
  catch error =>
    return .error (.ofError error)

/-- The files below the folder `folder`, each with the given steps before its own. -/
partial def listFolder (folder : String) (steps : List DiskPath.Step) :
    IO (List (List DiskPath.Step)) := do
  let entries ← (← IO.FS.realPath folder).readDir
  let sorted := entries.toList.mergeSort fun a b => decide (a.fileName ≤ b.fileName)
  let found ← sorted.mapM fun entry => do
    let steps := steps ++ [Text.bytesOf entry.fileName]
    match (← entry.path.symlinkMetadata).type with
    | .dir => listFolder s!"{folder}/{entry.fileName}" steps
    | .file => return [steps]
    | _ => return []
  return found.flatten

/-- The files below a path; the path itself if it is a file. -/
def listPath (path : String) : IO (List (List DiskPath.Step)) := do
  match (← (← IO.FS.realPath path).metadata).type with
  | .dir => listFolder path []
  | .file => return [[]]
  | _ => return []

instance : Disk IO where
  read path := attempt do return (← IO.FS.readBinFile path.display).data.toList
  write path contents := attempt (IO.FS.writeBinFile path.display ⟨contents.toArray⟩)
  makeFolders path := attempt (IO.FS.createDirAll path.display)
  removeTree path := attempt (IO.FS.removeDirAll path.display)
  filesBelow path := attempt (listPath path.display)

end CodeAtlas

def main (arguments : List String) : IO UInt32 := do
  let presentation : CodeAtlas.Presentation :=
    { CodeAtlas.Presentation.plain with
      markdown := CodeAtlas.Markdown.render CodeAtlas.Presentation.plain.source }
  let outcome ← CodeAtlas.CommandLine.run presentation [] arguments
  IO.print outcome.output
  match outcome.fault with
  | some fault => IO.eprintln s!"error: {fault.message}"
  | none => pure ()
  match outcome.usage with
  | some fault => IO.eprintln s!"error: {fault.message}"
  | none => pure ()
  return outcome.exit.toUInt32
