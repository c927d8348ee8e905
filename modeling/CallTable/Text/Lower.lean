import CallTable.Text.CaseData

/-!
# Lowercasing

Lowercasing maps each character by itself with two exceptions. The capital I with a dot above
becomes two characters, and a capital sigma becomes the final form of the letter where it ends a
word: some cased character stands before it and none after it, where ignorable characters between
do not count.
-/

namespace CallTable.Text

/-- The code point lies in one of the ranges. -/
def inRanges (ranges : List (Nat × Nat)) (code : Nat) : Bool :=
  ranges.any fun (first, last) => first ≤ code && code ≤ last

/-- The character has a case and is not skipped in the search for one. -/
def isCased (c : Char) : Bool :=
  inRanges casedRanges c.toNat

/-- The character is skipped in the search for a cased one. -/
def isCaseIgnorable (c : Char) : Bool :=
  inRanges caseIgnorableRanges c.toNat

/-- The capital is a member of the run. -/
def CapitalRun.contains (run : CapitalRun) (code : Nat) : Bool :=
  run.first ≤ code && code ≤ run.last && (code - run.first) % run.stride == 0

/-- The lowercase form of one character that does not depend on its neighbours. -/
def lowerChar (c : Char) : List Char :=
  if c = '\u0130' then ['i', '\u0307']
  else match capitalRuns.find? (·.contains c.toNat) with
    | some run => [Char.ofNat (run.image + (c.toNat - run.first))]
    | none => [c]

/-- The first character that counts is cased. -/
def meetsCased (text : List Char) : Bool :=
  (text.dropWhile isCaseIgnorable).head?.any isCased

/-- Lowercases a text of which the part before it is given last character first. -/
def lowerAfter (before : List Char) : List Char → List Char
  | [] => []
  | c :: text =>
    let here :=
      if c = 'Σ' then if meetsCased before && !meetsCased text then ['ς'] else ['σ']
      else lowerChar c
    here ++ lowerAfter (c :: before) text

/-- The text in lowercase. -/
def lowercase (text : List Char) : List Char :=
  lowerAfter [] text

end CallTable.Text
