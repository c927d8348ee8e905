import CallTable.Files.Path

/-!
# Access to files

The program reads and writes files through four operations, so that it runs on the files of a
machine and on a file tree that is a value. An operation that fails says why, and the reason is
reported with the purpose and the path of the access.
-/

namespace CallTable

/-- Why the file system refuses an operation. -/
inductive Cause where
  | notFound
  | alreadyExists
  | notDirectory
  | isDirectory
  /-- The bytes of a file that should be text are not UTF-8. -/
  | notText
  /-- Any other reason, in the words of the system. -/
  | other (words : String)
  deriving DecidableEq, Repr

/-- The wording of a cause, with the number that the system gives it. -/
def Cause.message : Cause → String
  | .notFound => "No such file or directory (os error 2)"
  | .alreadyExists => "File exists (os error 17)"
  | .notDirectory => "Not a directory (os error 20)"
  | .isDirectory => "Is a directory (os error 21)"
  | .notText => "stream did not contain valid UTF-8"
  | .other words => words

/-- What can stand at a path. -/
inductive FileKind where
  | file
  | directory
  deriving DecidableEq, Repr

/-- Operations on files in a monad. -/
class FileSystem (m : Type → Type) where
  /-- The bytes of a file. -/
  readBytes : Path → m (Except Cause ByteArray)
  /-- Makes a file hold exactly the text. -/
  writeText : Path → String → m (Except Cause Unit)
  /-- Makes one directory inside a directory that exists. -/
  makeDirectory : Path → m (Except Cause Unit)
  /-- What stands at a path, if anything does. -/
  kind? : Path → m (Option FileKind)

/-- A failed access: what it was for, where, and why it failed. -/
inductive FileError where
  /-- A file could not be read. -/
  | read (what : String) (path : Path) (cause : Cause)
  /-- The directory of a file could not be made. -/
  | makeDirectory (path : Path) (cause : Cause)
  /-- A file could not be written. -/
  | write (path : Path) (cause : Cause)
  /-- A file was read but does not hold settings. -/
  | badSettings (path : Path)
  deriving DecidableEq, Repr

/-- The wording of a failed access. -/
def FileError.message : FileError → String
  | .read what path cause => s!"failed to read {what}: {path.text}: {cause.message}"
  | .makeDirectory path cause => s!"failed to create directory: {path.text}: {cause.message}"
  | .write path cause => s!"failed to write file: {path.text}: {cause.message}"
  | .badSettings path => s!"failed to parse config: {path.text}"

namespace FileSystem

variable {m : Type → Type} [Monad m] [FileSystem m]

/-- Something stands at the path. -/
def pathExists (path : Path) : m Bool := do
  return (← kind? path).isSome

/-- A directory stands at the path. -/
def isDirectory (path : Path) : m Bool := do
  return (← kind? path) = some .directory

/-- The text of a file. `what` says what the file is for. -/
def readText (what : String) (path : Path) : m (Except FileError String) := do
  match ← readBytes path with
  | .error cause => return .error (.read what path cause)
  | .ok bytes =>
    match String.fromUTF8? bytes with
    | none => return .error (.read what path .notText)
    | some text => return .ok text

/-- Makes the first of the directories, of which each lies in the next. Where the next is missing
it is made first; a directory that is there already will do. -/
def makeDirectories : List Path → m (Except Cause Unit)
  | [] => return .ok ()
  | path :: above => do
    match ← makeDirectory path with
    | .ok () => return .ok ()
    | .error .notFound =>
      match ← makeDirectories above with
      | .error cause => return .error cause
      | .ok () => makeOrFind path
    | .error cause => return (← settle path cause)
where
  /-- A directory that is there makes up for a failure to make it. -/
  settle (path : Path) (cause : Cause) : m (Except Cause Unit) := do
    return if ← isDirectory path then .ok () else .error cause
  /-- Makes one directory unless it is there. -/
  makeOrFind (path : Path) : m (Except Cause Unit) := do
    match ← makeDirectory path with
    | .ok () => return .ok ()
    | .error cause => settle path cause

/-- Writes a text to a file and makes the directories that it lies in. -/
def saveText (path : Path) (text : String) : m (Except FileError Unit) := do
  match path.parent?.filter (·.text ≠ "") with
  | none => write
  | some parent =>
    match ← makeDirectories (parent.ancestors.filter (·.text ≠ "")) with
    | .error cause => return .error (.makeDirectory parent cause)
    | .ok () => write
where
  /-- Writes the file itself. -/
  write : m (Except FileError Unit) := do
    match ← writeText path text with
    | .error cause => return .error (.write path cause)
    | .ok () => return .ok ()

end FileSystem

end CallTable
