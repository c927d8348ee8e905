/-!
# Values of TOML

A document is a table, and every key of it has a value. How a table or an array came about decides
what the rest of the document may still add to it: what is written as a value is closed, while
headers and dotted keys leave tables open to each other.
-/

namespace CallTable.Toml

/-- How a table came about. -/
inductive Origin where
  /-- It is written as a value, between braces. -/
  | inlined
  /-- A header names it. -/
  | header
  /-- A header names a table below it. -/
  | implied
  /-- A dotted key names an entry of it. -/
  | dotted
  deriving DecidableEq, Repr

/-- A value. Numbers that are not whole and points in time are kept as they are written. -/
inductive Value where
  | text (value : String)
  | integer (value : Int)
  | float (spelling : String)
  | boolean (value : Bool)
  | moment (spelling : String)
  /-- An array; `growing` if it is one of tables, each under a header of its own. -/
  | array (growing : Bool) (items : List Value)
  | table (origin : Origin) (entries : List (String × Value))

/-- The entries of a table, in the order of their first mention. -/
abbrev Entries := List (String × Value)

namespace Entries

/-- Gives a key a value, in its place if the key is there and at the end otherwise. -/
def put (key : String) (value : Value) : Entries → Entries
  | [] => [(key, value)]
  | (other, old) :: entries =>
    if other = key then (key, value) :: entries else (other, old) :: put key value entries

/-- Putting a value changes what the key has and nothing else. -/
theorem lookup_put (key : String) (value : Value) (entries : Entries) (other : String) :
    (entries.put key value).lookup other =
      if other = key then some value else entries.lookup other := by
  induction entries with
  | nil => by_cases h : other = key <;> simp [put, List.lookup_cons, h, beq_false_of_ne]
  | cons entry entries ih =>
    obtain ⟨name, old⟩ := entry
    by_cases hname : name = key
    · subst hname
      by_cases h : other = name <;> simp [put, List.lookup_cons, h, beq_false_of_ne]
    · by_cases h : other = name
      · simp [put, hname, h]
      · simpa [put, List.lookup_cons, hname, h, beq_false_of_ne] using ih

end Entries

end CallTable.Toml
