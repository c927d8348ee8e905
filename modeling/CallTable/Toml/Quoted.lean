import CallTable.Text.JsonString
import CallTable.Text.Reader

/-!
# Strings of TOML

A string is written in one of four forms: between double quotes, where a backslash begins an
escape, or between single quotes, where nothing does, and each of these on one line or, with the
quotes tripled, on several. The writer takes the first form in which the string needs no escape.
-/

namespace CallTable.Toml

open Text

/-- A tab or any character that is not a control character. -/
def isPrintable (c : Char) : Bool :=
  c = '\t' || (0x20 ≤ c.toNat && c.toNat ≠ 0x7F)

/-- A blank within a line. -/
def isInlineBlank (c : Char) : Bool :=
  c = ' ' || c = '\t'

namespace Quoted

/-- Reads the end of a line. -/
def newline : Reader Unit :=
  Reader.word ['\n'] <|> Reader.word ['\r', '\n']

/-- A hexadecimal digit. -/
def isHexDigit (c : Char) : Bool :=
  c.isDigit || ('a' ≤ c && c ≤ 'f') || ('A' ≤ c && c ≤ 'F')

/-- The value of a digit in any base up to sixteen. -/
def digitValue (c : Char) : Nat :=
  if c.isDigit then c.toNat - '0'.toNat else c.toLower.toNat - 'a'.toNat + 10

/-- The number that digits write in a base. -/
def number (base : Nat) (digits : List Char) : Nat :=
  digits.foldl (fun total digit => base * total + digitValue digit) 0

/-- Reads a character by its code point, which has to be one. -/
def codePoint (width : Nat) : Reader Char := do
  let code := number 16 (← Reader.exactly width isHexDigit)
  if code.isValidChar then return Char.ofNat code else failure

/-- Reads the rest of an escape after its backslash. -/
def escape : Reader Char := do
  match ← Reader.one fun _ => true with
  | 'b' => return '\x08'
  | 't' => return '\t'
  | 'n' => return '\n'
  | 'f' => return '\x0c'
  | 'r' => return '\r'
  | '"' => return '"'
  | '\\' => return '\\'
  | 'u' => codePoint 4
  | 'U' => codePoint 8
  | _ => failure

/-- Reads characters that stand for themselves between double quotes. -/
def plainBasic : Reader (List Char) :=
  Reader.row fun c => isPrintable c && c ≠ '"' && c ≠ '\\'

/-- Reads an escape. -/
def escaped : Reader (List Char) := do
  Reader.char '\\'
  return [← escape]

/-- Reads a line feed inside a string of several lines, where every line end is one. -/
def innerNewline : Reader (List Char) := do
  newline
  return ['\n']

/-- Reads a backslash at the end of a line and all blanks and line ends after it, which stand for
nothing. -/
def continuation : Reader (List Char) := do
  Reader.char '\\'
  discard (Reader.run isInlineBlank)
  newline
  discard (Reader.many (discard (Reader.row isInlineBlank) <|> newline))
  return []

/-- Reads one or two quotes that do not belong to the three that close a string. -/
def looseQuotes (quote : Char) : Reader (List Char) := fun text =>
  let quotes := text.takeWhile (· = quote)
  if 1 ≤ quotes.length ∧ quotes.length ≤ 2 then some (quotes, text.drop quotes.length) else none

/-- Reads the three quotes that close a string and up to two before them that belong to it. -/
def closingQuotes (quote : Char) : Reader (List Char) := fun text =>
  let count := min 5 (text.takeWhile (· = quote)).length
  if 3 ≤ count then some (List.replicate (count - 3) quote, text.drop count) else none

/-- Reads a string between double quotes. -/
def basic : Reader (List Char) := do
  Reader.char '"'
  let pieces ← Reader.many (plainBasic <|> escaped)
  Reader.char '"'
  return pieces.flatten

/-- Reads a string between single quotes. -/
def literal : Reader (List Char) := do
  Reader.char '\''
  let content ← Reader.run fun c => isPrintable c && c ≠ '\''
  Reader.char '\''
  return content

/-- Reads a string of several lines between tripled double quotes. A line end right after the
opening quotes does not belong to it. -/
def longBasic : Reader (List Char) := do
  Reader.word ['"', '"', '"']
  discard (Reader.optional newline)
  let pieces ← Reader.many
    (plainBasic <|> escaped <|> continuation <|> innerNewline <|> looseQuotes '"')
  return pieces.flatten ++ (← closingQuotes '"')

/-- Reads characters that stand for themselves between tripled single quotes. -/
def plainLiteral : Reader (List Char) :=
  Reader.row fun c => isPrintable c && c ≠ '\''

/-- Reads a string of several lines between tripled single quotes. -/
def longLiteral : Reader (List Char) := do
  Reader.word ['\'', '\'', '\'']
  discard (Reader.optional newline)
  let pieces ← Reader.many (plainLiteral <|> innerNewline <|> looseQuotes '\'')
  return pieces.flatten ++ (← closingQuotes '\'')

/-- Reads a string in any of its forms. -/
def any : Reader (List Char) :=
  longBasic <|> longLiteral <|> basic <|> literal

/-- The forms of a string. -/
inductive Form where
  | basic
  | literal
  | longBasic
  | longLiteral
  deriving DecidableEq, Repr

/-- The character has to be written as an escape, or not at all. -/
def isControl (c : Char) : Bool :=
  c ≠ '\n' && !isPrintable c

/-- Three quotes stand in a row. -/
def hasTriple (quote : Char) : List Char → Bool
  | [] => false
  | c :: text => [quote, quote, quote].isPrefixOf (c :: text) || hasTriple quote text

/-- The form in which the writer puts a string: the first that needs no escape, and a form between
double quotes if each of them does. -/
def form (text : List Char) : Form :=
  let clean := !text.any isControl
  let oneLine := !text.contains '\n'
  if clean && oneLine && !text.contains '\\' && !text.contains '"' then .basic
  else if clean && oneLine && !text.contains '\'' then .literal
  else if clean && !text.contains '\\' && !hasTriple '"' text then .longBasic
  else if clean && !hasTriple '\'' text then .longLiteral
  else if oneLine then .basic
  else .longBasic

/-- A character between double quotes, as an escape where it needs one. -/
def escapeBasic (c : Char) : List Char :=
  match c with
  | '\x08' => ['\\', 'b']
  | '\t' => ['\\', 't']
  | '\n' => ['\\', 'n']
  | '\x0c' => ['\\', 'f']
  | '\r' => ['\\', 'r']
  | '"' => ['\\', '"']
  | '\\' => ['\\', '\\']
  | c =>
    if isControl c then '\\' :: 'u' :: (hexDigits 4 c.toNat).map Char.toUpper else [c]

/-- A text between tripled double quotes, where a line feed stands for itself and so do the first
two of the quotes in a row. `quotes` counts the quotes that stand before the text. -/
def escapeLong (quotes : Nat) : List Char → List Char
  | [] => []
  | '\n' :: text => '\n' :: escapeLong 0 text
  | '"' :: text =>
    if quotes < 2 then '"' :: escapeLong (quotes + 1) text
    else '\\' :: '"' :: escapeLong 0 text
  | c :: text => escapeBasic c ++ escapeLong 0 text

/-- Tripled quotes, and a line end after them if the text has one of its own: the reader does not
count the first. -/
def openLong (quote : Char) (text : List Char) : List Char :=
  List.replicate 3 quote ++ if text.contains '\n' then ['\n'] else []

/-- A text as a string in the given form. -/
def encodeAs (form : Form) (text : List Char) : List Char :=
  match form with
  | .basic => ['"'] ++ text.flatMap escapeBasic ++ ['"']
  | .literal => ['\''] ++ text ++ ['\'']
  | .longBasic => openLong '"' text ++ escapeLong 0 text ++ List.replicate 3 '"'
  | .longLiteral => openLong '\'' text ++ text ++ List.replicate 3 '\''

/-- A text as a string. -/
def encode (text : String) : String :=
  String.ofList (encodeAs (form text.toList) text.toList)

end Quoted

end CallTable.Toml
