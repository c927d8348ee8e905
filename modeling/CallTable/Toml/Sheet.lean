import CallTable.Toml.Quoted
import CallTable.Toml.Value

/-!
# Sheets

A sheet is a plain kind of document: a few pairs, then sections of pairs under headers, where a
value is a string or a list of strings. It is written with one blank line before each header that
does not stand at the start.
-/

namespace CallTable.Toml

/-- A string or a list of strings. -/
inductive Plain where
  | text (value : String)
  | texts (items : List String)
  deriving DecidableEq, Repr

/-- A key and its value. -/
structure PlainPair where
  key : String
  value : Plain
  deriving DecidableEq, Repr

/-- Pairs under a header: that of a table, or that of one table of an array of tables. -/
structure Section where
  name : String
  isItem : Bool
  pairs : List PlainPair
  deriving DecidableEq, Repr

/-- Pairs and the sections after them. -/
structure Sheet where
  pairs : List PlainPair
  sections : List Section
  deriving DecidableEq, Repr

/-- The text of a value. A list of two or more items takes a line for each, with a comma behind
every one. -/
def Plain.render : Plain → String
  | .text value => Quoted.encode value
  | .texts [] => "[]"
  | .texts [item] => "[" ++ Quoted.encode item ++ "]"
  | .texts items =>
    "[\n" ++ String.join (items.map fun item => "    " ++ Quoted.encode item ++ ",\n") ++ "]"

/-- The line or lines of a pair. -/
def PlainPair.render (pair : PlainPair) : String :=
  pair.key ++ " = " ++ pair.value.render ++ "\n"

/-- The text of a section. -/
def Section.render (section_ : Section) : String :=
  let header :=
    if section_.isItem then "[[" ++ section_.name ++ "]]\n" else "[" ++ section_.name ++ "]\n"
  header ++ String.join (section_.pairs.map PlainPair.render)

/-- The text of a sheet: its blocks with a blank line between them. The pairs before the first
header are a block if there are any. -/
def Sheet.render (sheet : Sheet) : String :=
  let head := String.join (sheet.pairs.map PlainPair.render)
  let blocks := sheet.sections.map Section.render
  "\n".intercalate (if sheet.pairs.isEmpty then blocks else head :: blocks)

end CallTable.Toml
