import CallTable.Event
import CallTable.Text.Blank
import CallTable.Text.Line
import CallTable.Text.Scan

/-!
# Table dumps

A table dump is any text in which declarations `pub left: right,` stand. The left column ends at a
colon that a blank follows, the right column at the last comma of its run of visible characters.
Which of the columns names the pointer type and which the member of the function table depends on
the tool that wrote the dump.
-/

namespace CallTable

open Text

/-- Which column of a table dump comes first. -/
inductive ColumnOrder where
  /-- Lines read `pub POINTER_TYPE: member,`. -/
  | typeFirst
  /-- Lines read `pub member: POINTER_TYPE,`, as the fields of a structure do. -/
  | memberFirst
  deriving DecidableEq, Repr

/-- A line of the table: a pointer type and the member that has it. -/
structure Entry where
  pointerType : String
  member : String
  deriving DecidableEq, Repr

/-- The two columns of a declaration, as they stand. -/
structure Declaration where
  left : String
  right : String
  deriving DecidableEq, Repr

namespace Declaration

/-- The word that a declaration begins with. -/
def keyword : List Char :=
  "pub ".toList

/-- Reads a declaration at the head of a text. -/
def read? (text : List Char) : Option (Declaration × List Char) := do
  let afterKeyword ← afterWord? keyword text
  let left ← beforeFinal? ':' (afterKeyword.takeWhile isVisible)
  let afterGap := (afterKeyword.dropWhile isVisible).dropWhile isBlank
  let (right, tail) ← splitLast? ',' (afterGap.takeWhile isVisible)
  if right = [] then none
  else some (⟨String.ofList left, String.ofList right⟩, tail ++ afterGap.dropWhile isVisible)

/-- Reading a declaration leaves less text. -/
theorem length_lt_of_read? {text rest : List Char} {declaration : Declaration}
    (h : read? text = some (declaration, rest)) : rest.length < text.length := by
  simp only [read?, Option.bind_eq_bind, Option.bind_eq_some_iff, Option.ite_none_left_eq_some,
    Option.some.injEq, Prod.mk.injEq, Prod.exists] at h
  obtain ⟨afterKeyword, hkeyword, left, hleft, right, tail, hsplit, hne, _, rfl⟩ := h
  rw [afterWord?_eq_some_iff] at hkeyword
  have hright := (splitLast?_eq_some hsplit).1
  have hgap := List.takeWhile_append_dropWhile (p := isVisible)
    (l := (afterKeyword.dropWhile isVisible).dropWhile isBlank)
  have hlength := congrArg List.length hgap
  have hgapLe := (List.dropWhile_suffix isBlank (l := afterKeyword.dropWhile isVisible)).length_le
  have hleftLe := (List.dropWhile_suffix isVisible (l := afterKeyword)).length_le
  have htext := congrArg List.length hkeyword
  simp only [hright, List.length_append, List.length_cons] at hlength htext ⊢
  omega

/-- The form of a declaration. -/
def form : Form Declaration := ⟨read?, length_lt_of_read?⟩

/-- The declarations of a dump, in order. -/
def ofDump (dump : String) : List Declaration :=
  form.all (unifyLineEnds dump.toList)

end Declaration

namespace Entry

/-- The entry that a declaration stands for. With members first, a field whose name lacks the
common start of the members is not a function and stands for none. -/
def ofDeclaration? (order : ColumnOrder) (memberPrefix : String) (declaration : Declaration) :
    Option Entry :=
  match order with
  | .typeFirst => some ⟨declaration.left, declaration.right⟩
  | .memberFirst =>
    if memberPrefix.toList.isPrefixOf declaration.left.toList then
      some ⟨declaration.right, declaration.left⟩
    else none

/-- With pointer types first, every declaration stands for an entry. -/
theorem filterMap_typeFirst (memberPrefix : String) (declarations : List Declaration) :
    declarations.filterMap (ofDeclaration? .typeFirst memberPrefix) =
      declarations.map fun declaration => ⟨declaration.left, declaration.right⟩ := by
  rw [← List.filterMap_eq_map]
  rfl

/-- With members first, a declaration stands for an entry if its left column carries the common
start of all members. -/
theorem filterMap_memberFirst (memberPrefix : String) (declarations : List Declaration) :
    declarations.filterMap (ofDeclaration? .memberFirst memberPrefix) =
      (declarations.filter fun declaration =>
        memberPrefix.toList.isPrefixOf declaration.left.toList).map fun declaration =>
          ⟨declaration.right, declaration.left⟩ := by
  rw [← List.filterMap_eq_map, List.filterMap_filter]
  rfl

/-- The entries of a dump, in order. Every field that is not a function is reported. -/
def ofDump (order : ColumnOrder) (memberPrefix dump : String) : Logged (List Entry) :=
  let declarations := Declaration.ofDump dump
  let isSkipped := fun declaration => (ofDeclaration? order memberPrefix declaration).isNone
  { value := declarations.filterMap (ofDeclaration? order memberPrefix)
    events := (declarations.filter isSkipped).map fun declaration =>
      .fieldSkipped declaration.left }

theorem value_ofDump (order : ColumnOrder) (memberPrefix dump : String) :
    (ofDump order memberPrefix dump).value =
      (Declaration.ofDump dump).filterMap (ofDeclaration? order memberPrefix) :=
  rfl

end Entry

end CallTable
