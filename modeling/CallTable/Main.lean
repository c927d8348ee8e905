import CallTable.Command.Run

/-!
# The program

Runs the command line of the process on the files of the machine. The name of a settings file may
come from the environment variable `WRAPGEN_CONFIG`.
-/

namespace CallTable

/-- The number of a system error. Some calls give it with the sign reversed. -/
def errorNumber (code : UInt32) : UInt32 :=
  if code ≤ 0x7FFFFFFF then code else 0 - code

/-- The cause that an error of the system stands for. -/
def Cause.ofError (error : IO.Error) : Cause :=
  match error with
  | .noFileOrDirectory .. => .notFound
  | .alreadyExists .. => .alreadyExists
  | .inappropriateType _ code words | .permissionDenied _ code words
  | .resourceExhausted _ code words =>
    match errorNumber code with
    | 20 => .notDirectory
    | 21 => .isDirectory
    | number => .other s!"{words} (os error {number})"
  | error => .other (toString error)

/-- Gives the cause of a failure instead of failing. -/
def withCause {α : Type} (action : IO α) : IO (Except Cause α) := do
  try
    return .ok (← action)
  catch error =>
    return .error (Cause.ofError error)

instance : FileSystem IO where
  readBytes path := withCause (IO.FS.readBinFile path.text)
  writeText path text := withCause (IO.FS.writeFile path.text text)
  makeDirectory path := withCause (IO.FS.createDir path.text)
  kind? path := do
    let place := (← IO.currentDir) / path.text
    if path.text.isEmpty || !(← place.pathExists) then return none
    return some (if ← place.isDir then .directory else .file)

end CallTable

/-- Runs the command line and ends with its exit code. -/
def main (arguments : List String) : IO UInt32 := do
  let environment ← IO.getEnv "WRAPGEN_CONFIG"
  let outcome ← (CallTable.Command.run arguments environment : IO _)
  (← IO.getStdout).putStr outcome.output
  (← IO.getStderr).putStr outcome.notices
  return outcome.code.toUInt32
