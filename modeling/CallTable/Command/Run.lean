import CallTable.Command.Line
import CallTable.MemberMap.Listing
import CallTable.Settings.Storage

/-!
# Running a command

A run ends with an exit code, a text for the standard output and notices for the standard error,
in the order in which they came up. What a run prints it prints at its end, after everything that
can fail, so a run that fails has printed nothing and has written no file.
-/

namespace CallTable.Command

open FileSystem

/-- Something that is said on the standard error. -/
inductive Notice where
  | event (event : Event)
  | diagnostic (diagnostic : Diagnostic)
  /-- The reason why a run failed. -/
  | failure (reason : String)
  deriving DecidableEq, Repr

namespace Notice

/-- A character of a log line. Those that could control a terminal are written as escapes. -/
def logCharacter (c : Char) : List Char :=
  if c ∈ ['\x07', '\x08', '\x0c', '\x1b', '\x7f'] then '\\' :: 'x' :: Text.hexDigits 2 c.toNat
  else if 0x80 ≤ c.toNat ∧ c.toNat ≤ 0x9F then
    "\\u\x7b".toList ++ Text.hexDigits 2 c.toNat ++ ['\x7d']
  else [c]

/-- The log line of an event. The level takes five places. -/
def logLine (event : Event) : String :=
  let level := event.level.name
  let margin := String.ofList (List.replicate (5 - level.length) ' ')
  margin ++ level ++ " " ++ String.ofList (event.message.toList.flatMap logCharacter) ++ "\n"

/-- The text of a notice. What helps only when a run is looked into is left out unless asked for.
-/
def render (invocation : Invocation) : Notice → String
  | .event reported =>
    if reported.level = .debug ∧ ¬invocation.verbose then "" else logLine reported
  | .diagnostic shown => shown.render invocation.coloured
  | .failure reason => "error: " ++ reason ++ "\n"

end Notice

/-- What a run has said so far: its standard output and its notices. -/
structure Transcript where
  output : String
  notices : List Notice
  deriving DecidableEq, Repr

/-- A run that may fail with a reason and keeps its transcript then. -/
abbrev Session (m : Type → Type) := ExceptT String (StateT Transcript m)

/-- The reason of a failed access. What is wrong with the text of a settings file is not told in
detail. -/
def failureReason (failure : FileError) : String :=
  match failure with
  | .badSettings _ => failure.message ++ ": TOML parse error"
  | _ => failure.message

section
variable {m : Type → Type} [Monad m]

/-- Adds notices. -/
def sayAll (notices : List Notice) : Session m Unit :=
  modify fun transcript => { transcript with notices := transcript.notices ++ notices }

/-- Adds a notice. -/
def say (notice : Notice) : Session m Unit :=
  sayAll [notice]

/-- Adds to the standard output. -/
def print (text : String) : Session m Unit :=
  modify fun transcript => { transcript with output := transcript.output ++ text }

/-- Adds the events of a computation. -/
def logged {α : Type} (computation : Logged α) : Session m α := do
  sayAll (computation.events.map .event)
  return computation.value

/-- Accesses a file, and fails if the access does. -/
def access {α : Type} (action : m (Except FileError α)) : Session m α := do
  match ← (action : m _) with
  | .error failure => throw (failureReason failure)
  | .ok value => return value

variable [FileSystem m]

/-- The settings at a path, or the standard ones, with the table dump that the command line names.
-/
def readSettings (path : Path) (table : Option Path) : Session m Settings := do
  let outcome ← logged (← (Settings.loadOrStandard path : m _))
  let settings ← access (pure outcome)
  return { settings with table := table.getD settings.table }

/-- The warning about lines that were left out. -/
def droppedDiagnostic (dropped : List DroppedLine) (signatures : Path) : Diagnostic :=
  { Diagnostic.plain .warning (toString dropped.length ++
      " parameter line(s) did not match `name: type,` and were left out") with
    location := some signatures.text
    context := dropped.map fun line => line.pointerType ++ ": " ++ line.line }

/-- Generates the wrappers and writes or prints them. -/
def runGenerate (settings : Path) (table signatures output : Option Path) : Session m Unit := do
  let settings ← readSettings settings table
  let settings := { settings with signatures := signatures.getD settings.signatures }
  let (tableDump, signatureDump) ← access settings.readDumps
  let (outcome, sink) ←
    logged (generate settings.options tableDump signatureDump Sink.unlimited)
  match outcome with
  | .error failure =>
    say (.diagnostic (failure.diagnostic.withLocation settings.signatures.text))
    throw "generation aborted, no wrappers written"
  | .ok report =>
    unless report.dropped.isEmpty do
      say (.diagnostic (droppedDiagnostic report.dropped settings.signatures))
    let text := (String.fromUTF8? sink.written).getD ""
    match output with
    | some path =>
      access (saveText path text)
      say (.event (.fileWritten path.text))
    | none => print text
    say (.event (.wrappersGenerated report.wrappers report.entries))

/-- Lists the final table. -/
def runList (settings : Path) (table : Option Path) (format : ListingFormat) :
    Session m Unit := do
  let settings ← readSettings settings table
  let dump ← access (readText "table dump" settings.table)
  let map ← logged (finalTable settings.options dump)
  match format with
  | .text => print map.toText
  | .json => print (map.toJson ++ "\n")
  say (.event (.tablePrinted map.size))

/-- Writes the standard settings into a directory. A settings file that is there stays unless
`force` is set. -/
def runStart (directory : Path) (force : Bool) : Session m Unit := do
  let path := directory.join ⟨Settings.fileName⟩
  if (← (pathExists path : m _)) && !force then
    throw (path.text ++ " already exists (use --force to overwrite)")
  access (Settings.standard.save path)
  print ("Created " ++ path.text ++ "\n")

/-- Does a task. -/
def Task.run : Task → Session m Unit
  | .generate settings table signatures output => runGenerate settings table signatures output
  | .list settings table format => runList settings table format
  | .start directory force => runStart directory force

end

/-- How a run ended: its exit code and what it said on its two outputs. -/
structure Outcome where
  code : Nat
  output : String
  notices : String
  deriving DecidableEq, Repr

/-- The answer to a request for the version. -/
def versionText : String := "wrapgen 0.1.0\n"

/-- The answer to a command line that cannot be understood. -/
def usageText : String :=
  "usage: wrapgen [-v] [--no-color] COMMAND\n" ++
    "  generate [-c PATH] [--table PATH] [--signatures PATH] [-o PATH]\n" ++
    "  mapping [-c PATH] [--table PATH] [--format text|json]\n" ++
    "  init [PATH] [--force]\n"

/-- Runs an invocation. -/
def Invocation.run {m : Type → Type} [Monad m] [FileSystem m] (invocation : Invocation) :
    m Outcome := do
  let (result, transcript) ← (invocation.task.run : Session m Unit).run.run ⟨"", []⟩
  let (code, notices) := match result with
    | .ok () => (0, transcript.notices)
    | .error reason => (1, transcript.notices ++ [Notice.failure reason])
  return ⟨code, transcript.output, String.join (notices.map (Notice.render invocation))⟩

/-- Runs a command line with the name of a settings file that the environment gives. -/
def run {m : Type → Type} [Monad m] [FileSystem m] (arguments : List String)
    (environment : Option String) : m Outcome :=
  match Invocation.ofArguments arguments environment with
  | .error .version => return ⟨0, versionText, ""⟩
  | .error .misused => return ⟨2, "", usageText⟩
  | .ok invocation => invocation.run

end CallTable.Command
