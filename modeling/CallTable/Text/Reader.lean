import CallTable.Text.Scan

/-!
# Readers

A reader takes something off the head of a text and leaves the rest, or fails. Readers run one
after the other as the steps of a `do` block, and `<|>` tries the second where the first fails, on
the same text.
-/

namespace CallTable.Text

/-- Takes a value off the head of a text, or fails. -/
abbrev Reader (α : Type) := StateT (List Char) Option α

namespace Reader

/-- Reads the given word. -/
def word (word : List Char) : Reader Unit := fun text =>
  (afterWord? word text).map fun rest => ((), rest)

/-- Reads one character of a class. -/
def one (isMember : Char → Bool) : Reader Char
  | [] => none
  | c :: rest => if isMember c then some (c, rest) else none

/-- Reads the given character. -/
def char (c : Char) : Reader Unit :=
  discard (one (· = c))

/-- Reads all characters of a class that stand in a row, which may be none. -/
def run (isMember : Char → Bool) : Reader (List Char) := fun text =>
  some (text.takeWhile isMember, text.dropWhile isMember)

/-- Reads all characters of a class that stand in a row, of which there has to be one. -/
def row (isMember : Char → Bool) : Reader (List Char) := do
  let first ← one isMember
  return first :: (← run isMember)

/-- Succeeds at the end of the text. -/
def atEnd : Reader Unit
  | [] => some ((), [])
  | _ :: _ => none

/-- Reads as often as the reader succeeds and takes something. -/
def manyFrom {α : Type} (reader : Reader α) (text : List Char) : List α × List Char :=
  match reader text with
  | none => ([], text)
  | some (found, rest) =>
    if rest.length < text.length then
      let (others, last) := manyFrom reader rest
      (found :: others, last)
    else ([], text)
termination_by text.length

/-- Reads any number of times. -/
def many {α : Type} (reader : Reader α) : Reader (List α) := fun text =>
  some (manyFrom reader text)

/-- Reads once or not at all. -/
def optional {α : Type} (reader : Reader α) : Reader (Option α) :=
  (some <$> reader) <|> pure none

/-- Reads exactly so many characters of a class. -/
def exactly (count : Nat) (isMember : Char → Bool) : Reader (List Char) := fun text =>
  let found := text.take count
  if found.length = count ∧ found.all isMember then some (found, text.drop count) else none

/-- Succeeds if the condition holds. -/
def require (condition : Bool) : Reader Unit :=
  if condition then pure () else failure

/-- Reads and also gives the text that was read. -/
def spelled {α : Type} (reader : Reader α) : Reader (α × List Char) := fun text => do
  let (found, rest) ← reader text
  some ((found, text.take (text.length - rest.length)), rest)

/-- Reads items with a separator between any two of them. There may be none. -/
def separated {α : Type} (separator : Reader Unit) (item : Reader α) : Reader (List α) := do
  match ← optional item with
  | none => return []
  | some first => return first :: (← many (do separator; item))

/-- The value read from a text that is read to its end. -/
def all? {α : Type} (reader : Reader α) (text : List Char) : Option α :=
  match reader text with
  | some (found, []) => some found
  | _ => none

end Reader

end CallTable.Text
