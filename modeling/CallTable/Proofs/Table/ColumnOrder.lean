import CallTable.Generation
import CallTable.Proofs.Table

/-!
# The two orders of columns

A table may be dumped with the pointer types or with the members in the first column. Either way the
entries of its lines are read in order; with members first, a line whose first column lacks the
common start of all members stands for no entry. So a table in which all members carry that start
can be dumped in both ways, and `table_orders_agree` says that a run does not see which one was
chosen.
-/

namespace CallTable

open Text

namespace Entry

/-- With pointer types first, the entries of a dump of lines are what its lines declare. -/
theorem value_ofDump_typeFirst_dump (memberPrefix : String) (lines : List TableLine) :
    (ofDump .typeFirst memberPrefix (TableLine.dump lines)).value =
      (lines.filterMap TableLine.declaration?).map fun declaration =>
        ⟨declaration.left, declaration.right⟩ := by
  rw [value_ofDump, TableLine.ofDump_tableLines, filterMap_typeFirst]

/-- With members first, they are the declarations whose left column carries the common start of all
members. -/
theorem value_ofDump_memberFirst_dump (memberPrefix : String) (lines : List TableLine) :
    (ofDump .memberFirst memberPrefix (TableLine.dump lines)).value =
      ((lines.filterMap TableLine.declaration?).filter fun declaration =>
        memberPrefix.toList.isPrefixOf declaration.left.toList).map fun declaration =>
          ⟨declaration.right, declaration.left⟩ := by
  rw [value_ofDump, TableLine.ofDump_tableLines, filterMap_memberFirst]

end Entry

/-- From dumps that are read as the same entries, whatever the orders of their columns are, a run
makes the same of any signature dump. -/
theorem generate_congr_order {options : Options} {first second : ColumnOrder}
    {firstDump secondDump : String}
    (h : Entry.ofDump first options.memberPrefix firstDump =
      Entry.ofDump second options.memberPrefix secondDump) (signatureDump : String) (sink : Sink) :
    generate { options with order := first } firstDump signatureDump sink =
      generate { options with order := second } secondDump signatureDump sink := by
  have htable : finalTable { options with order := first } firstDump =
      finalTable { options with order := second } secondDump := by
    show (MemberMap.ofDump first options.memberPrefix firstDump >>= fun map =>
      map.correctAll options.corrections) = (MemberMap.ofDump second options.memberPrefix
        secondDump >>= fun map => map.correctAll options.corrections)
    rw [MemberMap.ofDump, MemberMap.ofDump, h]
  rw [generate, htable]
  rfl

/-- A dump of lines is read as the entries that they declare, in order: with pointer types first as
all of them, with members first as those whose first column carries the common start of all members.
If a list of entries has only such members, two dumps that declare them, one with either order of
the columns, are read as the same entries and the same map, and a run makes the same of both. -/
theorem table_orders_agree (options : Options) (lines : List TableLine) :
    let declarations := lines.filterMap TableLine.declaration?
    (Entry.ofDump .typeFirst options.memberPrefix (TableLine.dump lines)).value =
        declarations.map (fun declaration => ⟨declaration.left, declaration.right⟩) ∧
      (Entry.ofDump .memberFirst options.memberPrefix (TableLine.dump lines)).value =
        (declarations.filter fun declaration =>
          options.memberPrefix.toList.isPrefixOf declaration.left.toList).map
            (fun declaration => ⟨declaration.right, declaration.left⟩) ∧
      ∀ (entries : List Entry) (byType byMember : List TableLine),
        (∀ entry ∈ entries, options.memberPrefix.toList <+: entry.member.toList) →
        byType.filterMap TableLine.declaration? = entries.map (Entry.columns .typeFirst) →
        byMember.filterMap TableLine.declaration? = entries.map (Entry.columns .memberFirst) →
        Entry.ofDump .typeFirst options.memberPrefix (TableLine.dump byType) = ⟨entries, []⟩ ∧
          Entry.ofDump .memberFirst options.memberPrefix (TableLine.dump byMember) =
            ⟨entries, []⟩ ∧
          MemberMap.ofDump .typeFirst options.memberPrefix (TableLine.dump byType) =
            MemberMap.ofDump .memberFirst options.memberPrefix (TableLine.dump byMember) ∧
          ∀ signatureDump sink,
            generate { options with order := .typeFirst } (TableLine.dump byType) signatureDump
                sink =
              generate { options with order := .memberFirst } (TableLine.dump byMember)
                signatureDump sink := by
  intro declarations
  refine ⟨Entry.value_ofDump_typeFirst_dump options.memberPrefix lines,
    Entry.value_ofDump_memberFirst_dump options.memberPrefix lines, ?_⟩
  intro entries byType byMember hstart htype hmember
  have hfirst := Entry.ofDump_dump_columns .typeFirst hstart htype
  have hsecond := Entry.ofDump_dump_columns .memberFirst hstart hmember
  have hsame := hfirst.trans hsecond.symm
  refine ⟨hfirst, hsecond, ?_, generate_congr_order hsame⟩
  rw [MemberMap.ofDump, hsame, MemberMap.ofDump]

/-- A table with two functions, dumped with the pointer types first. -/
def tableByType : List TableLine :=
  [.noise "// table: functions".toList (by decide)
      (Or.inl fun h => absurd (h.subset (show 'p' ∈ Declaration.keyword by decide)) (by decide)),
    .declared
      { margin := "    ".toList, left := "PNVENCOPEN".toList, gap := "   ".toList,
        right := "nvEncOpen".toList, trail := "\r".toList },
    .declared
      { margin := [], left := "core::pub,PNVENC".toList, gap := " ".toList,
        right := "nvEnc:last,".toList, trail := [] }]

/-- The same table, dumped with the members first. -/
def tableByMember : List TableLine :=
  [.declared
      { margin := [], left := "nvEncOpen".toList, gap := " ".toList,
        right := "PNVENCOPEN".toList, trail := [] },
    .noise "pub fields end here".toList (by decide) (Or.inr (by decide)),
    .declared
      { margin := [], left := "nvEnc:last,".toList, gap := "\t ".toList,
        right := "core::pub,PNVENC".toList, trail := " ".toList }]

/-- The two dumps of the table are read as the same two entries. -/
theorem table_orders_agree_sample :
    (∀ entry ∈ [Entry.mk "PNVENCOPEN" "nvEncOpen", ⟨"core::pub,PNVENC", "nvEnc:last,"⟩],
        "nvEnc".toList <+: entry.member.toList) ∧
      Entry.ofDump .typeFirst "nvEnc" (TableLine.dump tableByType) =
        ⟨[⟨"PNVENCOPEN", "nvEncOpen"⟩, ⟨"core::pub,PNVENC", "nvEnc:last,"⟩], []⟩ ∧
      Entry.ofDump .memberFirst "nvEnc" (TableLine.dump tableByMember) =
        ⟨[⟨"PNVENCOPEN", "nvEncOpen"⟩, ⟨"core::pub,PNVENC", "nvEnc:last,"⟩], []⟩ := by
  have hstart : ∀ entry ∈ [Entry.mk "PNVENCOPEN" "nvEncOpen",
      ⟨"core::pub,PNVENC", "nvEnc:last,"⟩], "nvEnc".toList <+: entry.member.toList := by decide
  obtain ⟨htype, hmember, -⟩ := (table_orders_agree Options.standard tableByType).2.2 _
    tableByType tableByMember hstart (by decide +kernel) (by decide +kernel)
  exact ⟨hstart, htype, hmember⟩

end CallTable
