import CallTable.Text.Lower
import CallTable.Text.Scan

/-!
# Identifiers

The names of a table are written in mixed case, those of the wrappers in lowercase words joined by
underscores. A word is an ASCII letter and the lowercase letters after it; `UID` counts as written
in lowercase, so that `GUID` and `GUIDs` are one word each. What belongs to no word is lost,
unless there is no word at all.
-/

namespace CallTable.Identifier

open Text

/-- The text with every `UID` in lowercase. -/
def lowerUid : List Char → List Char
  | [] => []
  | 'U' :: 'I' :: 'D' :: rest => 'u' :: 'i' :: 'd' :: lowerUid rest
  | c :: rest => c :: lowerUid rest

/-- Reads a word at the head of a text: a letter and at least one lowercase letter after it. -/
def readWord? : List Char → Option (List Char × List Char)
  | [] => none
  | c :: rest =>
    let tail := rest.takeWhile Char.isLower
    if c.isAlpha ∧ tail ≠ [] then some (c :: tail, rest.dropWhile Char.isLower) else none

/-- Reading a word leaves less text. -/
theorem length_lt_of_readWord? {text rest word : List Char}
    (h : readWord? text = some (word, rest)) : rest.length < text.length := by
  cases text with
  | nil => simp [readWord?] at h
  | cons c text =>
    simp only [readWord?, Option.ite_none_right_eq_some, Option.some.injEq, Prod.mk.injEq] at h
    obtain ⟨_, _, rfl⟩ := h
    have := (List.dropWhile_suffix Char.isLower (l := text)).length_le
    simp only [List.length_cons]
    omega

/-- The form of a word. -/
def word : Form (List Char) := ⟨readWord?, length_lt_of_readWord?⟩

/-- The words of a name, in lowercase. -/
def words (name : List Char) : List (List Char) :=
  (word.all (lowerUid name)).map (·.map Char.toLower)

/-- A name as lowercase words joined by underscores. A name without a word, such as a single
letter, is lowercased as it stands. -/
def snakeCase (name : List Char) : List Char :=
  match words name with
  | [] => lowercase (lowerUid name)
  | lowered => ['_'].intercalate lowered

end CallTable.Identifier
