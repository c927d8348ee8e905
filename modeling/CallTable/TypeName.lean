import CallTable.Text.Blank

/-!
# Type names

A type of the dump is either elementary, and then stands in a wrapper as it is, or a type of the
library, whose last component then needs the namespace it lives in. An elementary type brings its
mutable pointer with it.
-/

namespace CallTable.TypeName

open Text

/-- The types that need no namespace: each listed one and its mutable pointer. -/
def elementary (known : List String) : List String :=
  (known.flatMap fun name => [name, "*mut " ++ name]).eraseDups

/-- A type is elementary if it is listed or the mutable pointer of a listed type. -/
theorem mem_elementary {known : List String} {raw : String} :
    raw ∈ elementary known ↔ ∃ name ∈ known, raw = name ∨ raw = "*mut " ++ name := by
  simp [elementary, List.mem_eraseDups]

/-- Puts the namespace before the last of the components. -/
def qualifyLast (space : List Char) : List (List Char) → List (List Char)
  | [] => []
  | [base] => [space ++ base]
  | component :: others => component :: qualifyLast space others

/-- The type as a wrapper writes it. A type of the library loses surplus blanks and gains the
namespace; a type that is all blanks stays. -/
def qualify (known : List String) (space raw : String) : String :=
  if raw ∈ elementary known then raw
  else match words raw.toList with
    | [] => raw
    | components => String.ofList ([' '].intercalate (qualifyLast space.toList components))

end CallTable.TypeName
