import CallTable.Proofs.MemberMap.LastEntry
import CallTable.Proofs.Table.Line
import Mathlib.Data.List.Dedup

/-!
# Tables that hold entries

A table whose lines declare entries, with the columns in either order, is read as those entries, as
`value_ofDump_tableDump` states. The map of a table answers for a pointer type whenever the entries
agree on its member, whatever their order is, and it is as large as the set of pointer types.
-/

namespace CallTable

open Text

namespace Declaration

/-- The line that declares two columns. -/
def line (declaration : Declaration) : List Char :=
  keyword ++ (declaration.left.toList ++ ':' :: ' ' :: (declaration.right.toList ++ [',']))

/-- Both columns are words. -/
structure HasWords (declaration : Declaration) : Prop where
  left_isWord : IsWord declaration.left.toList
  right_isWord : IsWord declaration.right.toList

/-- The line of a declaration, indented by spaces. -/
def columnLine (indent : Nat) {declaration : Declaration} (h : declaration.HasWords) :
    ColumnLine where
  margin := List.replicate indent ' '
  left := declaration.left.toList
  gap := List.replicate 1 ' '
  right := declaration.right.toList
  trail := List.replicate 0 ' '
  margin_isSpacing := .replicate indent
  left_isWord := h.left_isWord
  gap_ne_nil := by decide
  gap_isSpacing := .replicate 1
  right_isWord := h.right_isWord
  trail_isSpacing := .replicate 0

theorem declaration_columnLine (indent : Nat) {declaration : Declaration}
    (h : declaration.HasWords) : (columnLine indent h).declaration = declaration := by
  simp [columnLine, ColumnLine.declaration]

/-- Declarations of words are the declarations of their indented lines. -/
theorem exists_tableLines (indent : Nat) {declarations : List Declaration}
    (h : ∀ declaration ∈ declarations, declaration.HasWords) :
    ∃ lines : List TableLine,
      lines.map TableLine.text = declarations.map (List.replicate indent ' ' ++ line ·) ∧
        lines.filterMap TableLine.declaration? = declarations := by
  induction declarations with
  | nil => exact ⟨[], rfl, rfl⟩
  | cons declaration declarations ih =>
      obtain ⟨hwords, h⟩ := List.forall_mem_cons.1 h
      obtain ⟨lines, htext, hread⟩ := ih h
      refine ⟨.declared (columnLine indent hwords) :: lines, ?_, ?_⟩
      · rw [List.map_cons, htext, List.map_cons]
        rfl
      · show (columnLine indent hwords).declaration :: lines.filterMap TableLine.declaration? = _
        rw [declaration_columnLine, hread]

end Declaration

namespace Entry

/-- The columns that stand for an entry. -/
def columns (order : ColumnOrder) (entry : Entry) : Declaration :=
  match order with
  | .typeFirst => ⟨entry.pointerType, entry.member⟩
  | .memberFirst => ⟨entry.member, entry.pointerType⟩

/-- The dump of a table that holds the entries, one to a line. -/
def tableDump (order : ColumnOrder) (indent : Nat) (entries : List Entry) : String :=
  String.ofList (ofLines (entries.map fun entry =>
    List.replicate indent ' ' ++ (entry.columns order).line))

/-- The entry has two words, and its member carries the common start of all members. -/
structure IsDeclarable (memberPrefix : String) (entry : Entry) : Prop where
  pointerType_isWord : IsWord entry.pointerType.toList
  member_isWord : IsWord entry.member.toList
  member_starts : memberPrefix.toList <+: entry.member.toList

theorem hasWords_columns {entry : Entry} (hpointer : IsWord entry.pointerType.toList)
    (hmember : IsWord entry.member.toList) (order : ColumnOrder) :
    (entry.columns order).HasWords := by
  cases order with
  | typeFirst => exact ⟨hpointer, hmember⟩
  | memberFirst => exact ⟨hmember, hpointer⟩

/-- The columns of an entry stand for it, if its member carries the common start of all members. -/
theorem ofDeclaration?_columns {memberPrefix : String} {entry : Entry}
    (h : memberPrefix.toList <+: entry.member.toList) (order : ColumnOrder) :
    ofDeclaration? order memberPrefix (entry.columns order) = some entry := by
  cases order with
  | typeFirst => rfl
  | memberFirst => exact if_pos (List.isPrefixOf_iff_prefix.2 h)

/-- Entries whose members carry the common start are read from lines that declare them, and nothing
is skipped. -/
theorem ofDump_dump_columns (order : ColumnOrder) {memberPrefix : String} {entries : List Entry}
    {lines : List TableLine}
    (hstart : ∀ entry ∈ entries, memberPrefix.toList <+: entry.member.toList)
    (hlines : lines.filterMap TableLine.declaration? = entries.map (columns order)) :
    ofDump order memberPrefix (TableLine.dump lines) = ⟨entries, []⟩ := by
  have hvalue : (entries.map (columns order)).filterMap (ofDeclaration? order memberPrefix) =
      entries := by
    rw [List.filterMap_map]
    exact (List.filterMap_congr fun entry hentry =>
      ofDeclaration?_columns (hstart entry hentry) order).trans List.filterMap_some
  have hskipped : (entries.map (columns order)).filter (fun declaration =>
      (ofDeclaration? order memberPrefix declaration).isNone) = [] := by
    refine List.filter_eq_nil_iff.2 fun declaration hmem => ?_
    obtain ⟨entry, hentry, rfl⟩ := List.mem_map.1 hmem
    rw [ofDeclaration?_columns (hstart entry hentry)]
    exact Bool.false_ne_true
  rw [ofDump, TableLine.ofDump_tableLines, hlines, hvalue, hskipped, List.map_nil]

/-- A table is read as the entries that it holds, whichever column comes first. -/
theorem value_ofDump_tableDump {memberPrefix : String} (order : ColumnOrder) (indent : Nat)
    {entries : List Entry} (h : ∀ entry ∈ entries, entry.IsDeclarable memberPrefix) :
    (ofDump order memberPrefix (tableDump order indent entries)).value = entries := by
  have hwords : ∀ declaration ∈ entries.map (columns order), declaration.HasWords := by
    intro declaration hmem
    obtain ⟨entry, hentry, rfl⟩ := List.mem_map.1 hmem
    exact hasWords_columns (h entry hentry).pointerType_isWord (h entry hentry).member_isWord order
  obtain ⟨lines, htext, hread⟩ := Declaration.exists_tableLines indent hwords
  have hdump : tableDump order indent entries = TableLine.dump lines := by
    rw [TableLine.dump, htext, List.map_map]
    rfl
  rw [hdump, ofDump_dump_columns order (fun entry hentry => (h entry hentry).member_starts) hread]

end Entry

namespace MemberMap

/-- Written entries bind a pointer type to a member if they agree on it, and one of them or the map
before them binds it. -/
theorem getElem?_foldl_write {entries : List Entry} {map : MemberMap} {pointerType member : String}
    (hagree : ∀ entry ∈ entries, entry.pointerType = pointerType → entry.member = member)
    (h : (∃ entry ∈ entries, entry.pointerType = pointerType) ∨
      map[pointerType]? = some member) :
    (entries.foldl write map)[pointerType]? = some member := by
  rw [getElem?_foldl_write_eq]
  cases hlast : Entry.lastMember? entries pointerType with
  | some last =>
      rw [← hagree _ (Entry.mem_of_lastMember? hlast) rfl]
      rfl
  | none =>
      have hnone := Entry.lastMember?_eq_none_iff.1 hlast
      rw [Option.none_or]
      exact h.resolve_left fun ⟨entry, hentry, hkey⟩ => hnone entry hentry hkey

/-- Written entries bind their pointer types and leave those that were bound. -/
theorem mem_foldl_write {entries : List Entry} {map : MemberMap} {pointerType : String} :
    pointerType ∈ entries.foldl write map ↔
      pointerType ∈ entries.map (·.pointerType) ∨ pointerType ∈ map := by
  rw [Std.ExtTreeMap.mem_iff_isSome_getElem?, getElem?_foldl_write_eq, Option.isSome_or,
    Bool.or_eq_true, ← Std.ExtTreeMap.mem_iff_isSome_getElem?, Entry.isSome_lastMember?_iff]

/-- The map of entries has as many pointer types as the entries have. -/
theorem size_ofEntries (entries : List Entry) :
    (ofEntries entries).size = (entries.map (·.pointerType)).dedup.length := by
  rw [← Std.ExtTreeMap.length_keys]
  refine List.Perm.length_eq ((List.perm_ext_iff_of_nodup Std.ExtTreeMap.nodup_keys
    (List.nodup_dedup _)).2 fun pointerType => ?_)
  rw [Std.ExtTreeMap.mem_keys, ofEntries, mem_foldl_write, List.mem_dedup]
  simp

end MemberMap

end CallTable
