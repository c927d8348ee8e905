import CallTable.Toml.Moment
import CallTable.Toml.Number
import CallTable.Toml.Table

/-!
# Documents of TOML

A document is a sequence of lines: a pair of a key and a value, the header of a table, the header
of one more table of an array, or nothing, each with a comment behind it or not. Reading a
document reads its lines and then builds its table from them. Arrays and inline tables nest at
most 79 deep, and a key has at most 79 parts.
-/

namespace CallTable.Toml

open Text

/-- How deep values may nest, and how many parts a key may have. -/
def depthLimit : Nat := 79

/-- Reads blanks within a line. -/
def blanks : Reader Unit :=
  discard (Reader.run isInlineBlank)

/-- Reads a comment up to the end of its line. -/
def comment : Reader Unit := do
  Reader.char '#'
  discard (Reader.run isPrintable)

/-- Reads blanks, comments and line ends. -/
def filler : Reader Unit :=
  discard (Reader.many
    (discard (Reader.row isInlineBlank) <|> do
      discard (Reader.optional comment)
      Quoted.newline))

/-- Reads the rest of a line after its content. -/
def lineEnd : Reader Unit := do
  blanks
  discard (Reader.optional comment)
  Quoted.newline <|> Reader.atEnd

/-- A character of a key without quotes. -/
def isBareKey (c : Char) : Bool :=
  c.isAlphanum || c = '-' || c = '_'

/-- Reads one part of a key, with the blanks around it. -/
def keyPart : Reader String := do
  blanks
  let part ← Quoted.basic <|> Quoted.literal <|> Reader.row isBareKey
  blanks
  return String.ofList part

/-- A key: the parts that lead to it, and its last part. -/
structure Key where
  way : List String
  last : String
  deriving DecidableEq, Repr

/-- Reads a key. -/
def key : Reader Key := do
  let first ← keyPart
  let others ← Reader.many do
    Reader.char '.'
    keyPart
  Reader.require (others.length < depthLimit)
  let parts := first :: others
  return ⟨parts.dropLast, parts.getLast?.getD first⟩

/-- Reads a pair of a key and a value. -/
def pair (value : Reader Value) : Reader (Key × Value) := do
  let name ← key
  Reader.char '='
  blanks
  let content ← value
  return (name, content)

/-- Reads an array. Its items may stand on lines of their own, and the last may have a comma
behind it. -/
def array (value : Reader Value) : Reader Value := do
  Reader.char '['
  let items ← Reader.separated (Reader.char ',') do
    filler
    let item ← value
    filler
    return item
  if !items.isEmpty then discard (Reader.optional (Reader.char ','))
  filler
  Reader.char ']'
  return .array false items

/-- Reads a table that is written as a value, on one line. -/
def inlineTable (value : Reader Value) : Reader Value := do
  Reader.char '\x7b'
  let pairs ← Reader.separated (Reader.char ',') do
    let content ← pair value
    blanks
    return content
  blanks
  Reader.char '\x7d'
  let add := fun entries ((name, content) : Key × Value) =>
    Entries.addPair name.last content name.way entries
  match pairs.foldlM add [] with
  | none => failure
  | some entries => return .table .inlined entries

/-- Reads a value without parts. -/
def scalar : Reader Value := do
  (do return .text (String.ofList (← Quoted.any)))
  <|> (do
    Reader.word ['t', 'r', 'u', 'e']
    return .boolean true)
  <|> (do
    Reader.word ['f', 'a', 'l', 's', 'e']
    return .boolean false)
  <|> Moment.moment <|> Number.float <|> Number.integer

/-- Reads a value whose arrays and inline tables nest at most so deep. -/
def value : Nat → Reader Value
  | 0 => scalar
  | depth + 1 => scalar <|> array (value depth) <|> inlineTable (value depth)

/-- What a line of a document says. -/
inductive Line where
  | nothing
  | pair (key : Key) (value : Value)
  | table (key : Key)
  | item (key : Key)

/-- Reads a line. The last line of a document needs no line end. -/
def line : Reader Line := do
  blanks
  let content ← (do
      Reader.word ['[', '[']
      let name ← key
      Reader.word [']', ']']
      return .item name)
    <|> (do
      Reader.char '['
      let name ← key
      Reader.char ']'
      return .table name)
    <|> (do
      let (name, content) ← pair (value depthLimit)
      return .pair name content)
    <|> pure .nothing
  lineEnd
  return content

/-- A document that is being built: its table so far, and the table that the next pairs go to. -/
structure Draft where
  root : Entries
  here : List String

/-- Adds what a line says. -/
def Draft.add (draft : Draft) : Line → Option Draft
  | .nothing => some draft
  | .pair key value => do
    some { draft with root := ← draft.root.descend (·.addPair key.last value key.way) draft.here }
  | .table key => do
    some ⟨← draft.root.descend (·.openTable key.last) key.way, key.way ++ [key.last]⟩
  | .item key => do
    some ⟨← draft.root.descend (·.openItem key.last) key.way, key.way ++ [key.last]⟩

/-- The table of a document. A byte order mark may stand before it. -/
def ofDocument? (document : String) : Option Entries := do
  let text := document.toList
  let lines ← (Reader.many line).all? (if text.head? = some '\uFEFF' then text.tail else text)
  let draft ← lines.foldlM Draft.add ⟨[], []⟩
  some draft.root

end CallTable.Toml
