/-!
# Diagnostics

A diagnostic tells a person what went wrong: a message, the file it is about, what is known about
it, and numbered advice on what to do. On a terminal the severity and the word `help` can be
coloured.
-/

namespace CallTable

/-- Whether a diagnostic stops the run. -/
inductive Severity where
  | error
  | warning
  deriving DecidableEq, Repr

namespace Severity

/-- The word for a severity. -/
def name : Severity → String
  | .error => "error"
  | .warning => "warning"

/-- The terminal colour of a severity: red for errors and yellow for warnings. -/
def colour : Severity → String
  | .error => "31"
  | .warning => "33"

end Severity

/-- A message for a person, with its surroundings. -/
structure Diagnostic where
  severity : Severity
  message : String
  location : Option String
  context : List String
  suggestions : List String
  deriving DecidableEq, Repr

namespace Diagnostic

/-- A diagnostic with nothing but a message. -/
def plain (severity : Severity) (message : String) : Diagnostic :=
  ⟨severity, message, none, [], []⟩

/-- Names the file that the diagnostic is about. -/
def withLocation (diagnostic : Diagnostic) (path : String) : Diagnostic :=
  { diagnostic with location := some path }

/-- Adds something that is known about the problem. -/
def withContext (diagnostic : Diagnostic) (line : String) : Diagnostic :=
  { diagnostic with context := diagnostic.context ++ [line] }

/-- Adds a piece of advice. -/
def withSuggestion (diagnostic : Diagnostic) (advice : String) : Diagnostic :=
  { diagnostic with suggestions := diagnostic.suggestions ++ [advice] }

/-- A word in bold and in a colour, or as it is. -/
def highlight (coloured : Bool) (colour word : String) : String :=
  if coloured then "\x1b[1;" ++ colour ++ "m" ++ word ++ "\x1b[0m" else word

/-- The advice as a numbered list under a heading. -/
def renderAdvice (coloured : Bool) (suggestions : List String) : String :=
  match suggestions with
  | [] => ""
  | _ =>
    "\n" ++ highlight coloured "32" "help" ++ ": consider:\n" ++
      String.join (suggestions.zipIdx.map fun (advice, index) =>
        "  " ++ toString (index + 1) ++ ". " ++ advice ++ "\n")

/-- The text of a diagnostic. -/
def render (coloured : Bool) (diagnostic : Diagnostic) : String :=
  highlight coloured diagnostic.severity.colour diagnostic.severity.name ++ ": " ++
    diagnostic.message ++ "\n" ++
    String.join (diagnostic.location.toList.map fun path => "  --> " ++ path ++ "\n") ++
    String.join (diagnostic.context.map fun line => "  = " ++ line ++ "\n") ++
    renderAdvice coloured diagnostic.suggestions

end Diagnostic

end CallTable
