import CallTable.Toml.Value

/-!
# Building tables

The lines of a document build one table. A dotted key makes the tables on its way and may add only
to tables that came about in that manner; a header may lead through any table that is not written
as a value, and through the latest table of an array of tables. No key is given a value twice.
-/

namespace CallTable.Toml.Entries

/-- Adds the value of a dotted key to a table, if the key may still be added. The last part of the
key is given apart from the way to it. -/
def addPair (key : String) (value : Value) : List String → Entries → Option Entries
  | [], entries => if (entries.lookup key).isSome then none else some (entries ++ [(key, value)])
  | step :: way, entries =>
    match entries.lookup step with
    | none => do
      let inner ← addPair key value way []
      some (entries ++ [(step, .table .dotted inner)])
    | some (.table origin inner) =>
      if origin = .dotted ∨ (origin = .implied ∧ way ≠ []) then do
        let inner ← addPair key value way inner
        some (entries.put step (.table origin inner))
      else none
    | some (.array true items) =>
      match items.getLast?, way with
      | some (.table origin inner), _ :: _ => do
        let inner ← addPair key value way inner
        some (entries.put step (.array true (items.dropLast ++ [.table origin inner])))
      | _, _ => none
    | some _ => none

/-- Changes the table that a header leads to. Tables that are missing on the way are made. -/
def descend (change : Entries → Option Entries) : List String → Entries → Option Entries
  | [], entries => change entries
  | step :: way, entries =>
    match entries.lookup step with
    | none => do
      let inner ← descend change way []
      some (entries ++ [(step, .table .implied inner)])
    | some (.table origin inner) =>
      if origin = .inlined then none
      else do
        let inner ← descend change way inner
        some (entries.put step (.table origin inner))
    | some (.array true items) =>
      match items.getLast? with
      | some (.table origin inner) => do
        let inner ← descend change way inner
        some (entries.put step (.array true (items.dropLast ++ [.table origin inner])))
      | _ => none
    | some _ => none

/-- Opens the table of a header, which nothing but the headers of tables below it may have named
before. -/
def openTable (key : String) (entries : Entries) : Option Entries :=
  match entries.lookup key with
  | none => some (entries ++ [(key, .table .header [])])
  | some (.table .implied inner) => some (entries.put key (.table .header inner))
  | some _ => none

/-- Opens one more table of an array of tables. -/
def openItem (key : String) (entries : Entries) : Option Entries :=
  match entries.lookup key with
  | none => some (entries ++ [(key, .array true [.table .header []])])
  | some (.array true items) =>
    some (entries.put key (.array true (items ++ [.table .header []])))
  | some _ => none

end CallTable.Toml.Entries
