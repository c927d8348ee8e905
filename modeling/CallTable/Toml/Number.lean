import CallTable.Toml.Quoted
import CallTable.Toml.Value

/-!
# Numbers of TOML

A whole number is decimal with an optional sign, or hexadecimal, octal or binary without one, and
has to fit into a signed word of 64 bits. A number with a fraction or an exponent has to be near
some floating-point number of 64 bits. A single underscore may stand between any two digits.
-/

namespace CallTable.Toml.Number

open Text

/-- Reads digits of a class, between which underscores may stand, and leaves the underscores out.
-/
def digits (isMember : Char → Bool) : Reader (List Char) := do
  let first ← Reader.one isMember
  let others ← Reader.many
    (Reader.one isMember <|> (do Reader.char '_'; Reader.one isMember))
  return first :: others

/-- Reads a sign, if there is one, and tells whether it is a minus. -/
def isNegative : Reader Bool := do
  return (← Reader.optional (Reader.one fun c => c = '+' || c = '-')) = some '-'

/-- Reads the digits of a decimal number before its point. Only zero itself starts with a zero. -/
def wholeDigits : Reader (List Char) := do
  (do
    Reader.char '0'
    return ['0']) <|> digits Char.isDigit

/-- The whole number fits into a signed word of 64 bits. -/
def fitsWord (value : Int) : Bool :=
  -0x8000000000000000 ≤ value && value ≤ 0x7FFFFFFFFFFFFFFF

/-- A number of a power of ten: `digits * 10 ^ exponent`. -/
structure Scaled where
  digits : Nat
  exponent : Int

/-- The number is so large that the nearest floating-point number of 64 bits is infinite: it is at
least the middle between the greatest of them and the next power of two. The count of its decimal
places settles all numbers but those near 10 ^ 308. -/
def Scaled.isHuge (scaled : Scaled) : Bool :=
  let places : Int := (Nat.toDigits 10 scaled.digits).length + scaled.exponent
  let bound := Nat.pow 2 1024 - Nat.pow 2 970
  if scaled.digits = 0 ∨ places < 309 then false
  else if 309 < places then true
  else
    bound * Nat.pow 10 (-scaled.exponent).toNat ≤
      scaled.digits * Nat.pow 10 scaled.exponent.toNat

/-- Reads the point and the digits of a fraction. -/
def fraction : Reader (List Char) := do
  Reader.char '.'
  digits Char.isDigit

/-- Reads an exponent. -/
def exponent : Reader Int := do
  discard (Reader.one fun c => c = 'e' || c = 'E')
  let negative ← isNegative
  let size : Int := Quoted.number 10 (← digits Char.isDigit)
  return if negative then -size else size

/-- Reads a decimal number with a fraction, an exponent or both. -/
def scaled : Reader Unit := do
  let negative ← isNegative
  let whole ← wholeDigits
  let fraction ← Reader.optional fraction
  let exponent ← Reader.optional exponent
  Reader.require (fraction.isSome || exponent.isSome)
  let places := fraction.getD []
  let number : Scaled :=
    ⟨Quoted.number 10 (whole ++ places), exponent.getD 0 - places.length⟩
  Reader.require (negative || !number.isHuge)

/-- Reads infinity or the value that is not a number. -/
def special : Reader Unit := do
  discard isNegative
  Reader.word ['i', 'n', 'f'] <|> Reader.word ['n', 'a', 'n']

/-- Reads a number that is not whole. -/
def float : Reader Value := do
  let (_, spelling) ← Reader.spelled (scaled <|> special)
  return .float (String.ofList spelling)

/-- Reads a decimal whole number. -/
def decimal : Reader Int := do
  let negative ← isNegative
  let size : Int := Quoted.number 10 (← wholeDigits)
  return if negative then -size else size

/-- Reads a whole number in another base after the letter that stands for the base. -/
def inBase (letter : Char) (base : Nat) (isMember : Char → Bool) : Reader Int := do
  Reader.word ['0', letter]
  return Quoted.number base (← digits isMember)

/-- Reads a whole number. -/
def integer : Reader Value := do
  let value ← inBase 'x' 16 Quoted.isHexDigit <|> inBase 'o' 8 (fun c => '0' ≤ c && c ≤ '7') <|>
    inBase 'b' 2 (fun c => c = '0' || c = '1') <|> decimal
  Reader.require (fitsWord value)
  return .integer value

end CallTable.Toml.Number
