import CallTable.MemberMap
import CallTable.Text.JsonString

/-!
# Listings of a table

A table is listed in the order of its keys, either one entry to a line for a person or as one JSON
object for a program.
-/

namespace CallTable.MemberMap

open Text

/-- One line `POINTER_TYPE -> member` for each entry. -/
def toText (map : MemberMap) : String :=
  String.join (map.toList.map fun (pointerType, member) => pointerType ++ " -> " ++ member ++ "\n")

/-- A JSON object with one entry to a line, indented by two blanks. The empty object stays on its
line. -/
def toJson (map : MemberMap) : String :=
  match map.toList with
  | [] => "\x7b\x7d"
  | entries =>
    let line := fun ((pointerType, member) : String × String) =>
      "  " ++ jsonString pointerType ++ ": " ++ jsonString member
    "\x7b\n" ++ String.intercalate ",\n" (entries.map line) ++ "\n\x7d"

end CallTable.MemberMap
