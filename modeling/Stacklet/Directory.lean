import Stacklet.Repl

/-!
The directory a command is entered in, and the way along a path to one of its
files. A path is walked part by part, and the first part that leads nowhere
decides the error: `missing/x` is not found however long the name `x` is, since
nothing is looked up below a directory that is not there.
-/

namespace Stacklet

/-- Why a file has no text. -/
inductive ReadError
  | notFound
  | denied
  | notADirectory
  | isADirectory
  | nameTooLong
  /-- The bytes are not well-formed UTF-8. -/
  | notText
  | other (message : String)
  deriving DecidableEq, Inhabited, Repr

/-- The wording of the error. -/
def ReadError.message : ReadError → String
  | .notFound => "No such file or directory (os error 2)"
  | .denied => "Permission denied (os error 13)"
  | .notADirectory => "Not a directory (os error 20)"
  | .isADirectory => "Is a directory (os error 21)"
  | .nameTooLong => "File name too long (os error 36)"
  | .notText => Repl.notText
  | .other message => message

/-- The parts of a path between its slashes. A part without a character stands
beside a slash that begins, ends or follows another. -/
def pathParts (path : String) : List String := (path.toList.splitOn '/').map String.ofList

/-- Whether a part of a path stays where it is. -/
def staysInPlace (part : String) : Bool := part = "" || part = "."

/-- Whether a path names a program: its last part that does not stay in place ends
in the extension `mk`, with something in front of the point. -/
def namesProgram (path : String) : Bool :=
  match ((pathParts path).filter fun part => !staysInPlace part).getLast? with
  | none => false
  | some name => name.endsWith ".mk" && name.length > 3

/-- A directory that holds only files, with their bytes. -/
abbrev Directory := List (String × List UInt8)

/-- Where a walk along a path stands. -/
inductive Place
  /-- In the directory it starts from. -/
  | inside
  /-- In some directory above it, of whose content nothing is known. -/
  | outside
  /-- At a file. -/
  | file (bytes : List UInt8)
  deriving DecidableEq, Inhabited, Repr

/-- The most bytes in a name that a directory can hold. -/
def maxNameSize : Nat := 255

/-- The size in bytes from which on a path is not walked at all. -/
def maxPathSize : Nat := 4096

/-- One part of a path. From a file no part leads on, not even one that stays in
place, so no slash may follow the name of a file. -/
def Directory.step (files : Directory) (place : Place) (part : String) : Except ReadError Place :=
  match place with
  | .file _ => .error .notADirectory
  | place =>
    if staysInPlace part then .ok place
    else if part = ".." then .ok .outside
    else if part.utf8ByteSize > maxNameSize then .error .nameTooLong
    else
      match place, files.lookup part with
      | .inside, some bytes => .ok (.file bytes)
      | _, _ => .error .notFound

/-- The bytes of the file that a path leads to. A path that begins with a slash is
walked from the top. -/
def Directory.read (files : Directory) (path : String) : Except ReadError (List UInt8) :=
  if path.utf8ByteSize ≥ maxPathSize then .error .nameTooLong
  else
    match (pathParts path).foldlM files.step (if path.startsWith "/" then .outside else .inside) with
    | .ok (.file bytes) => .ok bytes
    | .ok _ => .error .isADirectory
    | .error error => .error error

end Stacklet
