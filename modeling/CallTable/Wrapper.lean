import CallTable.Signature

/-!
# Wrappers

A wrapper is a method that calls one member of the function table, the encoder handle first and
then its own parameters, and turns the status it gets into a result. Its text takes one line for
each fixed part, one line for the declaration of each parameter and one for its use.
-/

namespace CallTable

/-- A method to be written: its name, the member that it calls, and its parameters with the types
that it declares. -/
structure Wrapper where
  name : String
  member : String
  parameters : List Parameter
  deriving DecidableEq, Repr

namespace Wrapper

/-- The lines up to the parameters. -/
def opening (wrapper : Wrapper) : List String :=
  ["#[inline(always)]", "pub(crate) unsafe fn " ++ wrapper.name ++ "(", "    &self,"]

/-- The line that declares a parameter. -/
def declaration (parameter : Parameter) : String :=
  "    " ++ parameter.name ++ ": " ++ parameter.type ++ ","

/-- The lines from the result type to the first argument. -/
def call (wrapper : Wrapper) : List String :=
  [") -> Result<()> \x7b",
    "    let status = (self.functions." ++ wrapper.member ++ ".unwrap_unchecked())(",
    "        self.encoder_ptr.as_ptr(),"]

/-- The line that passes a parameter on. -/
def argument (parameter : Parameter) : String :=
  "        " ++ parameter.name ++ ","

/-- The lines from the end of the call to the end of the method. -/
def closing : List String :=
  ["    );", "    match NvEncError::from_nvenc_status(status) \x7b", "        None => Ok(()),",
    "        Some(err) => Err(err),", "    \x7d", "\x7d"]

/-- The lines of a wrapper. -/
def lines (wrapper : Wrapper) : List String :=
  wrapper.opening ++ wrapper.parameters.map declaration ++ wrapper.call ++
    wrapper.parameters.map argument ++ closing

/-- The text of a wrapper, each line of it ended. -/
def render (wrapper : Wrapper) : String :=
  String.join (wrapper.lines.map (· ++ "\n"))

/-- The texts in which a wrapper is written: each name stands alone between the fixed texts around
it. -/
def pieces (wrapper : Wrapper) : List String :=
  ["#[inline(always)]\n", "pub(crate) unsafe fn ", wrapper.name, "(\n", "    &self,\n"] ++
    wrapper.parameters.flatMap (fun parameter =>
      ["    ", parameter.name, ": ", parameter.type, ",\n"]) ++
    [") -> Result<()> \x7b\n", "    let status = (self.functions.", wrapper.member,
      ".unwrap_unchecked())(\n", "        self.encoder_ptr.as_ptr(),\n"] ++
    wrapper.parameters.flatMap (fun parameter => ["        ", parameter.name, ",\n"]) ++
    closing.map (· ++ "\n")

/-- Texts joined group by group are the texts joined in one go. -/
theorem join_flatMap {α : Type} (group : α → List String) (items : List α) :
    String.join (items.flatMap group) =
      String.join (items.map fun item => String.join (group item)) := by
  induction items with
  | nil => rfl
  | cons item items ih =>
    rw [List.flatMap_cons, String.join_append, ih, List.map_cons, String.join_cons]

/-- The pieces of a wrapper are its text. -/
theorem join_pieces (wrapper : Wrapper) : String.join wrapper.pieces = wrapper.render := by
  have hdeclaration : ∀ parameter : Parameter,
      String.join ["    ", parameter.name, ": ", parameter.type, ",\n"] =
        declaration parameter ++ "\n" := by
    intro parameter
    simp [declaration, String.append_assoc]
  have hargument : ∀ parameter : Parameter,
      String.join ["        ", parameter.name, ",\n"] = argument parameter ++ "\n" := by
    intro parameter
    simp [argument, String.append_assoc]
  simp only [pieces, render, lines, List.map_append, String.join_append, join_flatMap,
    hdeclaration, hargument, List.map_map, Function.comp_def]
  simp [opening, call, String.append_assoc]

/-- A wrapper takes twelve lines and two for each parameter. -/
theorem length_lines (wrapper : Wrapper) :
    wrapper.lines.length = 12 + 2 * wrapper.parameters.length := by
  simp [lines, opening, call, closing]
  omega

end Wrapper

end CallTable
