import CallTable.MemberMap

/-!
# Changes of a table

A table is changed in four ways: one entry is written, the whole of it is replaced by entries or by
what a dump holds, and corrections are written over it. Whoever writes one entry is told which
member it takes the place of.
-/

namespace CallTable.MemberMap

/-- Writes one entry and tells the member that it takes the place of. -/
def exchange (map : MemberMap) (entry : Entry) : Option String × MemberMap :=
  (map[entry.pointerType]?, map.write entry)

/-- A way to change a table. -/
inductive Change where
  /-- One entry is written. -/
  | write (entry : Entry)
  /-- The table is replaced by that of the entries. -/
  | refill (entries : List Entry)
  /-- The table is replaced by that of a dump. -/
  | reread (order : ColumnOrder) (memberPrefix dump : String)
  /-- Corrections are written over the table. -/
  | correct (corrections : List Entry)
  deriving DecidableEq, Repr

/-- Changes a table. Only a single entry is answered, with the member before it. -/
def change (map : MemberMap) : Change → Logged (Option String × MemberMap)
  | .write entry => return map.exchange entry
  | .refill entries => return (none, ofEntries entries)
  | .reread order memberPrefix dump => return (none, ← ofDump order memberPrefix dump)
  | .correct corrections => return (none, ← map.correctAll corrections)

/-- The table after changes, one after the other. -/
def changeAll (map : MemberMap) (changes : List Change) : Logged MemberMap :=
  changes.foldlM (fun map next => (·.2) <$> map.change next) map

end CallTable.MemberMap
