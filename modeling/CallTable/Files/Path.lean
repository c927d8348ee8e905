/-!
# Paths

A path is a text whose components a slash separates. Joining and taking the parent work on the
text alone: no component is resolved, and a joined path keeps the spelling of its parts.
-/

namespace CallTable

/-- A path of a file or a directory. -/
structure Path where
  text : String
  deriving DecidableEq, Repr

namespace Path

/-- The path starts at the root. -/
def isAbsolute (path : Path) : Bool :=
  path.text.toList.head? = some '/'

/-- The pieces between the slashes of a path. Two slashes in a row and a slash at an end give
empty pieces. -/
def pieces (path : Path) : List String :=
  (path.text.toList.splitOn '/').map String.ofList

/-- The path `right` as seen from `left`. An absolute right side stands alone; otherwise a slash
is put between the two unless the left side is empty or ends in one. -/
def join (left right : Path) : Path :=
  if right.isAbsolute then right
  else if left.text = "" ∨ left.text.toList.getLast? = some '/' then ⟨left.text ++ right.text⟩
  else ⟨left.text ++ "/" ++ right.text⟩

/-- The pieces without those at the end that name no component of their own. -/
def trimPieces (pieces : List (List Char)) : List (List Char) :=
  (pieces.reverse.dropWhile fun piece => piece = [] ∨ piece = ['.']).reverse

/-- What a path starts with, and the rest: the root, the directory that it is relative to if a
single dot names it, or nothing. -/
def splitHead (text : List Char) : List Char × List Char :=
  match text with
  | '/' :: rest => (['/'], rest)
  | ['.'] => (['.'], [])
  | '.' :: '/' :: rest => (['.'], '/' :: rest)
  | text => ([], text)

/-- The path without its last component, if it has one that can be left out. -/
def parent? (path : Path) : Option Path :=
  let (head, body) := splitHead path.text.toList
  match trimPieces (body.splitOn '/') with
  | [] => if head = ['.'] then some ⟨""⟩ else none
  | pieces =>
    some ⟨String.ofList (head ++ ['/'].intercalate (trimPieces pieces.dropLast))⟩

/-- The first so many paths that lead up from a path: the path, its parent, the parent of that. -/
def ascend : Nat → Path → List Path
  | 0, _ => []
  | count + 1, path => path :: (path.parent?.map (ascend count)).getD []

/-- A path and everything above it. A parent is shorter than its path, so there are no more of
them than characters. -/
def ancestors (path : Path) : List Path :=
  ascend (path.text.length + 1) path

/-- An absolute path is the same from everywhere. -/
theorem join_of_isAbsolute (left : Path) {right : Path} (h : right.isAbsolute = true) :
    left.join right = right := by
  simp [join, h]

/-- A path seen from nowhere is itself. -/
theorem empty_join (right : Path) : join ⟨""⟩ right = right := by
  simp [join]

/-- A joined path is absolute if one of its parts is. -/
theorem isAbsolute_join (left right : Path) :
    (left.join right).isAbsolute = (left.isAbsolute || right.isAbsolute) := by
  by_cases hright : right.isAbsolute = true
  · simp [join, hright]
  · by_cases hleft : left.text = ""
    · simp [join, hleft, isAbsolute]
    · obtain ⟨c, rest, htext⟩ :=
        List.exists_cons_of_ne_nil (mt String.toList_eq_nil_iff.1 hleft)
      by_cases hend : left.text.toList.getLast? = some '/' <;> simp_all [join, isAbsolute]

end Path

end CallTable
