import CodeAtlas.Disk.Path

/-!
# Disks

What a site needs of a disk, and why a file or a folder cannot be read or written. `Store` is a disk in
memory.
-/

namespace CodeAtlas

inductive DiskFault where
  | notFound
  | busy
  | exists
  | notFolder
  | isFolder
  | invalid
  | nameTooLong
  | notEmpty
  | notUtf8
  /-- A path with a NUL byte, which no disk takes. -/
  | nulInPath
  | other (message : String)
  deriving DecidableEq, Repr

def DiskFault.message : DiskFault → String
  | .notFound => "No such file or directory (os error 2)"
  | .busy => "Device or resource busy (os error 16)"
  | .exists => "File exists (os error 17)"
  | .notFolder => "Not a directory (os error 20)"
  | .isFolder => "Is a directory (os error 21)"
  | .invalid => "Invalid argument (os error 22)"
  | .nameTooLong => "File name too long (os error 36)"
  | .notEmpty => "Directory not empty (os error 39)"
  | .notUtf8 => "stream did not contain valid UTF-8"
  | .nulInPath => "file name contained an unexpected NUL byte"
  | .other message => message

class Disk (m : Type → Type) where
  read : DiskPath → m (Except DiskFault (List UInt8))
  /-- Writes a file, in place of one that is there. Its folder has to be there. -/
  write : DiskPath → List UInt8 → m (Except DiskFault Unit)
  /-- Makes a folder and the folders it is in, unless they are there. -/
  makeFolders : DiskPath → m (Except DiskFault Unit)
  removeTree : DiskPath → m (Except DiskFault Unit)
  /-- The files below a path, by the steps that lead to them from there. -/
  filesBelow : DiskPath → m (Except DiskFault (List (List DiskPath.Step)))

end CodeAtlas
