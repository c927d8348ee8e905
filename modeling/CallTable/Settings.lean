import CallTable.Files.Path
import CallTable.Generation
import CallTable.Toml.Document
import CallTable.Toml.Sheet

/-!
# Settings

The settings of a project say where its two dumps lie and what the generator is told. They are
kept in a file in which everything may be left out. Paths in the file are relative to the
directory of the file.
-/

namespace CallTable

/-- Where the dumps lie, and the options of a run. -/
structure Settings where
  table : Path
  signatures : Path
  options : Options
  deriving DecidableEq, Repr

namespace Settings

open Toml

/-- The name of a settings file. -/
def fileName : String := "wrapgen.toml"

/-- The settings of a project that has no settings file. -/
def standard : Settings where
  table := ⟨"fntable.txt"⟩
  signatures := ⟨"signatures.txt"⟩
  options := Options.standard

/-- Takes relative paths as relative to a directory. -/
def resolvePaths (settings : Settings) (base : Path) : Settings :=
  { settings with table := base.join settings.table, signatures := base.join settings.signatures }

/-- The name of a column order in a settings file. -/
def orderName : ColumnOrder → String
  | .typeFirst => "type-first"
  | .memberFirst => "member-first"

/-- The column order of a name. -/
def orderOfName? (name : String) : Option ColumnOrder :=
  if name = orderName .typeFirst then some .typeFirst
  else if name = orderName .memberFirst then some .memberFirst
  else none

/-- The settings as they are written to a file. -/
def toSheet (settings : Settings) : Sheet :=
  let options := settings.options
  let corrections := options.corrections.map fun correction =>
    { name := "overrides", isItem := true, pairs :=
      [⟨"pointer_type", .text correction.pointerType⟩, ⟨"member", .text correction.member⟩] }
  { pairs := if options.corrections.isEmpty then [⟨"overrides", .texts []⟩] else []
    sections :=
      [⟨"input", false, [⟨"table", .text settings.table.text⟩,
          ⟨"signatures", .text settings.signatures.text⟩]⟩,
        ⟨"table", false, [⟨"layout", .text (orderName options.order)⟩]⟩,
        ⟨"naming", false, [⟨"member_prefix", .text options.memberPrefix⟩,
          ⟨"namespace", .text options.typeNamespace⟩]⟩,
        ⟨"types", false, [⟨"known", .texts options.known⟩]⟩] ++ corrections }

/-- The text of a settings file. -/
def render (settings : Settings) : String :=
  settings.toSheet.render

end Settings

/-! ## Reading values -/

namespace Toml.Value

/-- A string. -/
def text? : Value → Option String
  | .text value => some value
  | _ => none

/-- The items of an array. -/
def items? : Value → Option (List Value)
  | .array _ items => some items
  | _ => none

/-- The fields of a record: by their names from a table, in their order from an array. A point in
time counts as a table that has none of them. -/
def fields? (names : List String) : Value → Option (List (Option Value))
  | .table _ entries => some (names.map fun name => entries.lookup name)
  | .array _ items => some ((List.range names.length).map fun index => items[index]?)
  | .moment _ => some (names.map fun _ => none)
  | _ => none

/-- A column order: its name, or a table whose only key is the name and has nothing below it. -/
def order? : Value → Option ColumnOrder
  | .text name => Settings.orderOfName? name
  | .table _ [(name, .table _ [])] | .table _ [(name, .array _ [])] => Settings.orderOfName? name
  | _ => none

/-- A list of strings. -/
def texts? (value : Value) : Option (List String) := do
  (← value.items?).mapM text?

/-- A correction, of which both parts have to be there. -/
def correction? (value : Value) : Option Entry := do
  match ← value.fields? ["pointer_type", "member"] with
  | [some pointerType, some member] => some ⟨← pointerType.text?, ← member.text?⟩
  | _ => none

/-- A list of corrections. -/
def corrections? (value : Value) : Option (List Entry) := do
  (← value.items?).mapM correction?

end Toml.Value

namespace Settings

open Toml

/-- A value that may be left out, and then is the standard one. -/
def orStandard {α : Type} (standard : α) (read? : Value → Option α) (value : Option Value) :
    Option α :=
  match value with
  | none => some standard
  | some value => read? value

/-- The paths of the two dumps. -/
def inputs? (value : Value) : Option (Path × Path) := do
  match ← value.fields? ["table", "signatures"] with
  | [table, signatures] =>
    some (⟨← orStandard standard.table.text Value.text? table⟩,
      ⟨← orStandard standard.signatures.text Value.text? signatures⟩)
  | _ => none

/-- The column order of the table dump. -/
def layout? (value : Value) : Option ColumnOrder := do
  match ← value.fields? ["layout"] with
  | [layout] => orStandard Options.standard.order Value.order? layout
  | _ => none

/-- The common start of the members and the namespace of the types. -/
def naming? (value : Value) : Option (String × String) := do
  match ← value.fields? ["member_prefix", "namespace"] with
  | [memberPrefix, typeNamespace] =>
    some (← orStandard Options.standard.memberPrefix Value.text? memberPrefix,
      ← orStandard Options.standard.typeNamespace Value.text? typeNamespace)
  | _ => none

/-- The elementary types. -/
def known? (value : Value) : Option (List String) := do
  match ← value.fields? ["known"] with
  | [known] => orStandard Options.standard.known Value.texts? known
  | _ => none

/-- The settings that a document gives. Keys without a meaning are passed over. -/
def ofEntries? (entries : Entries) : Option Settings := do
  let (table, signatures) ←
    orStandard (standard.table, standard.signatures) inputs? (entries.lookup "input")
  let order ← orStandard Options.standard.order layout? (entries.lookup "table")
  let (memberPrefix, typeNamespace) ←
    orStandard (Options.standard.memberPrefix, Options.standard.typeNamespace) naming?
      (entries.lookup "naming")
  let known ← orStandard Options.standard.known known? (entries.lookup "types")
  let corrections ←
    orStandard Options.standard.corrections Value.corrections? (entries.lookup "overrides")
  some ⟨table, signatures, ⟨order, memberPrefix, typeNamespace, known, corrections⟩⟩

/-- The settings that the text of a file gives. -/
def ofText? (text : String) : Option Settings := do
  ofEntries? (← Toml.ofDocument? text)

end Settings

end CallTable
