import CallTable.Event
import CallTable.Table
import Std.Data.ExtTreeMap

/-!
# Which member answers for which pointer type

The final table binds each pointer type to one member. It is a finite map in the order of its
keys, code point by code point, so a listing does not depend on the order of the dump. Writing a
pointer type again replaces its member, and corrections are written after everything else.
-/

namespace CallTable

/-- The members of a table by their pointer types. -/
abbrev MemberMap := Std.ExtTreeMap String String

namespace MemberMap

/-- Writes one entry. -/
def write (map : MemberMap) (entry : Entry) : MemberMap :=
  map.insert entry.pointerType entry.member

/-- A write binds its pointer type and leaves every other as it was. -/
theorem getElem?_write (map : MemberMap) (entry : Entry) (pointerType : String) :
    (map.write entry)[pointerType]? =
      if entry.pointerType = pointerType then some entry.member else map[pointerType]? := by
  simp [write, Std.ExtTreeMap.getElem?_insert]

/-- The entries written in order, so that the last one for a pointer type stands. -/
def ofEntries (entries : List Entry) : MemberMap :=
  entries.foldl write ∅

/-- Entries behind other entries are written over their map. -/
theorem ofEntries_append (before after : List Entry) :
    ofEntries (before ++ after) = after.foldl write (ofEntries before) := by
  rw [ofEntries, ofEntries, List.foldl_append]

/-- Reads a table dump. -/
def ofDump (order : ColumnOrder) (memberPrefix dump : String) : Logged MemberMap := do
  let entries ← Entry.ofDump order memberPrefix dump
  let map := ofEntries entries
  Logged.report (.tableRead map.size)
  return map

/-- What a correction changes: it replaces another member, adds one, or confirms the one that is
there, which is not worth a report. -/
def correctionEvents (map : MemberMap) (correction : Entry) : List Event :=
  match map[correction.pointerType]? with
  | none => [.memberAdded correction.pointerType correction.member]
  | some earlier =>
    if earlier = correction.member then []
    else [.memberReplaced correction.pointerType earlier correction.member]

/-- Writes one correction over the table. -/
def correct (map : MemberMap) (correction : Entry) : Logged MemberMap :=
  ⟨map.write correction, correctionEvents map correction⟩

/-- Writes the corrections over the table, in order. -/
def correctAll (map : MemberMap) (corrections : List Entry) : Logged MemberMap :=
  corrections.foldlM correct map

/-- A reported correction changes the table as a silent write does. -/
theorem value_correctAll (map : MemberMap) (corrections : List Entry) :
    (map.correctAll corrections).value = corrections.foldl write map := by
  induction corrections generalizing map with
  | nil => rfl
  | cons correction corrections ih => exact ih (map.write correction)

end MemberMap

end CallTable
