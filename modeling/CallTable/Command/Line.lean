import CallTable.Settings

/-!
# Command lines

A command line names one of three tasks and says how to do it. Options are read from left to
right: a long one after two dashes, short ones in a row after one dash, and the value of an option
either in the same argument or in the next. No option may be given twice, no path may be empty,
and after two dashes alone nothing is an option. The name of a settings file that the environment
gives counts where the command line gives none.
-/

namespace CallTable.Command

/-- An option. -/
inductive Flag where
  | verbose
  | noColour
  | version
  | settings
  | table
  | signatures
  | output
  | format
  | force
  deriving DecidableEq, Repr

namespace Flag

/-- The long name of an option. -/
def long : Flag → String
  | .verbose => "verbose"
  | .noColour => "no-color"
  | .version => "version"
  | .settings => "config"
  | .table => "table"
  | .signatures => "signatures"
  | .output => "output"
  | .format => "format"
  | .force => "force"

/-- The short name of an option, if it has one. -/
def short? : Flag → Option Char
  | .verbose => some 'v'
  | .version => some 'V'
  | .settings => some 'c'
  | .output => some 'o'
  | _ => none

/-- The option has a value. -/
def takesValue : Flag → Bool
  | .settings | .table | .signatures | .output | .format => true
  | _ => false

end Flag

/-- How a table is listed. -/
inductive ListingFormat where
  | text
  | json
  deriving DecidableEq, Repr

/-- What the program is to do. -/
inductive Task where
  /-- Generate the wrappers, to a file if one is named. -/
  | generate (settings : Path) (table signatures output : Option Path)
  /-- List the final table. -/
  | list (settings : Path) (table : Option Path) (format : ListingFormat)
  /-- Write a settings file into a directory. -/
  | start (directory : Path) (force : Bool)
  deriving DecidableEq, Repr

/-- A task and how to report on it. -/
structure Invocation where
  task : Task
  verbose : Bool
  coloured : Bool
  deriving DecidableEq, Repr

/-- Why a command line names no task. -/
inductive Stop where
  /-- It asks for the version of the program. -/
  | version
  /-- It cannot be understood. -/
  | misused
  deriving DecidableEq, Repr

/-- The options and the other words read so far. -/
structure Choices where
  flags : List (Flag × String)
  words : List String
  deriving DecidableEq, Repr

namespace Choices

/-- No options and no words. -/
def none : Choices := ⟨[], []⟩

/-- The option was given. -/
def has (choices : Choices) (flag : Flag) : Bool :=
  (choices.flags.lookup flag).isSome

/-- The value of an option, if it was given. -/
def value? (choices : Choices) (flag : Flag) : Option String :=
  choices.flags.lookup flag

/-- The path that an option gives, if it was given. -/
def path? (choices : Choices) (flag : Flag) : Option Path :=
  (choices.value? flag).map Path.mk

/-- Notes an option with its value. The version is asked for as soon as the option is met. -/
def add (choices : Choices) (flag : Flag) (value : String) : Except Stop Choices :=
  if choices.has flag then .error .misused
  else if flag = .version then .error .version
  else if flag.takesValue ∧ value = "" then .error .misused
  else .ok { choices with flags := choices.flags ++ [(flag, value)] }

/-- Notes words that are not options. -/
def addWords (choices : Choices) (words : List String) : Choices :=
  { choices with words := choices.words ++ words }

/-- Reads the options whose short names stand in a row. The first that takes a value takes the
rest of the row, less an equals sign, or is returned to take the next argument. -/
def addShorts (allowed : List Flag) (choices : Choices) :
    List Char → Except Stop (Choices × Option Flag)
  | [] => .ok (choices, .none)
  | c :: row =>
    match allowed.find? (·.short? = some c) with
    | .none => .error .misused
    | some flag =>
      if flag.takesValue then
        match row with
        | [] => .ok (choices, some flag)
        | '=' :: value => return (← choices.add flag (String.ofList value), .none)
        | value => return (← choices.add flag (String.ofList value), .none)
      else do
        addShorts allowed (← choices.add flag "") row

/-- Reads an option by its long name. One that takes a value is returned to take the next argument
if no value stands behind an equals sign. -/
def addLong (allowed : List Flag) (choices : Choices) (argument : List Char) :
    Except Stop (Choices × Option Flag) :=
  let name := String.ofList (argument.takeWhile (· ≠ '='))
  match allowed.find? (·.long = name), argument.dropWhile (· ≠ '=') with
  | .none, _ => .error .misused
  | some flag, [] =>
    if flag.takesValue then .ok (choices, some flag) else return (← choices.add flag "", .none)
  | some flag, _ :: value =>
    if flag.takesValue then return (← choices.add flag (String.ofList value), .none)
    else .error .misused

/-- The argument can be the value of the option before it. -/
def isValue (argument : String) : Bool :=
  argument = "-" || argument.toList.head? != some '-'

/-- Reads the options of one argument. An option whose value is still to come is returned. -/
def addOptions (allowed : List Flag) (choices : Choices) (argument : String) :
    Except Stop (Choices × Option Flag) :=
  match argument.toList with
  | '-' :: '-' :: name => choices.addLong allowed name
  | _ :: row => choices.addShorts allowed row
  | [] => .error .misused

/-- Reads arguments up to the first that is a word, if `untilWord`, or to the end, and returns
what is left of them. `waiting` is an option whose value has to come next. -/
def read (allowed : List Flag) (untilWord : Bool) (choices : Choices) (waiting : Option Flag) :
    List String → Except Stop (Choices × List String)
  | [] => if waiting.isSome then .error .misused else .ok (choices, [])
  | argument :: rest =>
    match waiting with
    | some flag =>
      if isValue argument then do
        read allowed untilWord (← choices.add flag argument) .none rest
      else .error .misused
    | .none =>
      if argument = "--" then
        if untilWord then .error .misused else .ok (choices.addWords rest, [])
      else if isValue argument then
        if untilWord then .ok (choices, argument :: rest)
        else read allowed untilWord (choices.addWords [argument]) .none rest
      else do
        let (choices, waiting) ← choices.addOptions allowed argument
        read allowed untilWord choices waiting rest

end Choices

/-- The options that may stand anywhere. -/
def commonFlags : List Flag := [.verbose, .noColour]

/-- The path of the settings: the option, else the environment, else the usual name. -/
def settingsPath (choices : Choices) (environment : Option String) : Except Stop Path :=
  match choices.path? .settings, environment with
  | some path, _ => .ok path
  | none, some "" => .error .misused
  | none, some path => .ok ⟨path⟩
  | none, none => .ok ⟨Settings.fileName⟩

/-- The format that an option gives. -/
def listingFormat (choices : Choices) : Except Stop ListingFormat :=
  match choices.value? .format with
  | none | some "text" => .ok .text
  | some "json" => .ok .json
  | some _ => .error .misused

/-- The task that a word names, with its options read from the arguments after the word. -/
def readTask (word : String) (arguments : List String) (environment : Option String) :
    Except Stop (Task × Choices) := do
  match word with
  | "generate" =>
    let flags := commonFlags ++ [.settings, .table, .signatures, .output]
    let (choices, _) ← Choices.none.read flags false none arguments
    unless choices.words.isEmpty do throw .misused
    let settings ← settingsPath choices environment
    return (.generate settings (choices.path? .table) (choices.path? .signatures)
      (choices.path? .output), choices)
  | "mapping" =>
    let flags := commonFlags ++ [.settings, .table, .format]
    let (choices, _) ← Choices.none.read flags false none arguments
    unless choices.words.isEmpty do throw .misused
    let settings ← settingsPath choices environment
    return (.list settings (choices.path? .table) (← listingFormat choices), choices)
  | "init" =>
    let (choices, _) ← Choices.none.read (commonFlags ++ [.force]) false none arguments
    match choices.words with
    | [] => return (.start ⟨"."⟩ (choices.has .force), choices)
    | [directory] =>
      if directory = "" then throw .misused
      return (.start ⟨directory⟩ (choices.has .force), choices)
    | _ => throw .misused
  | _ => throw .misused

/-- The invocation that a command line stands for. Reading goes through the program's own options,
the name of the task and the options of the task. -/
def Invocation.ofArguments (arguments : List String) (environment : Option String) :
    Except Stop Invocation := do
  let (outer, rest) ← Choices.none.read (commonFlags ++ [.version]) true none arguments
  match rest with
  | [] => throw .misused
  | word :: arguments =>
    let (task, inner) ← readTask word arguments environment
    let has := fun flag => outer.has flag || inner.has flag
    return ⟨task, has .verbose, !has .noColour⟩

end CallTable.Command
