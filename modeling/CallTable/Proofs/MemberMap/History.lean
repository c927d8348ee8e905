import CallTable.MemberMap.Change
import CallTable.Proofs.Emission
import CallTable.Proofs.MemberMap.LastEntry
import CallTable.Proofs.Table
import CallTable.Proofs.Text.ByteOrder

/-!
# The history of a table

However a table came about, it is the map of the entries written since it was last replaced as a
whole. One change keeps this, `value_change`, and so do all changes of a history, `value_changeAll`.
The main result, `table_keeps_last_writes`, reads it off for everything that a table is asked, and
for the final table of a run.
-/

namespace CallTable

namespace MemberMap

/-- The entries written since the last replacement, after one more change. -/
def Change.record (written : List Entry) : Change → List Entry
  | .write entry => written ++ [entry]
  | .refill entries => entries
  | .reread order memberPrefix dump => (Entry.ofDump order memberPrefix dump).value
  | .correct corrections => written ++ corrections

/-- The entries that changes have written since the last replacement, in order. -/
def written (changes : List Change) : List Entry :=
  changes.foldl Change.record []

/-- One change of the map of written entries makes the map of what is written after it. -/
theorem value_change (written : List Entry) (next : Change) :
    ((ofEntries written).change next).value.2 = ofEntries (next.record written) := by
  cases next with
  | write entry => exact (ofEntries_append written [entry]).symm
  | refill entries => rfl
  | reread order memberPrefix dump => rfl
  | correct corrections =>
      rw [Change.record, ofEntries_append]
      exact value_correctAll _ corrections

/-- After changes, a table is the map of what was written since it was last replaced. -/
theorem value_changeAll (changes : List Change) :
    ((∅ : MemberMap).changeAll changes).value = ofEntries (written changes) := by
  suffices h : ∀ earlier : List Entry, ((ofEntries earlier).changeAll changes).value =
      ofEntries (changes.foldl Change.record earlier) from h []
  induction changes with
  | nil => exact fun earlier => rfl
  | cons next changes ih =>
      intro earlier
      have hstep : ((ofEntries earlier).changeAll (next :: changes)).value =
          (((ofEntries earlier).change next).value.2.changeAll changes).value := rfl
      rw [hstep, value_change, ih, List.foldl_cons]

/-- Corrections written once more change nothing, since the last of them stand already. -/
theorem value_correctAll_correctAll (map : MemberMap) (corrections : List Entry) :
    ((map.correctAll corrections).value.correctAll corrections).value =
      (map.correctAll corrections).value := by
  refine Std.ExtTreeMap.ext_getElem? fun pointerType => ?_
  rw [value_correctAll, value_correctAll, getElem?_foldl_write_eq, getElem?_foldl_write_eq,
    ← Option.or_assoc, Option.or_self]

/-- A table lists each of its pointer types once, in the order of the bytes. -/
theorem toList_ascending (map : MemberMap) :
    (map.toList.map (·.1.toUTF8.data.toList)).Pairwise (· < ·) := by
  rw [List.pairwise_map]
  refine Std.ExtTreeMap.ordered_keys_toList.imp fun hbefore => Text.utf8_lt_of_lt ?_
  exact compareOfLessAndEq_eq_lt.1 hbefore

/-- A table lists the last entry for each pointer type, and nothing else. -/
theorem mem_toList_ofEntries {entries : List Entry} {pointerType member : String} :
    (pointerType, member) ∈ (ofEntries entries).toList ↔
      Entry.lastMember? entries pointerType = some member := by
  rw [Std.ExtTreeMap.mem_toList_iff_getElem?_eq_some, getElem?_ofEntries]

/-- Corrections stand against the entries of a table dump. -/
theorem getElem?_finalTable (options : Options) (dump pointerType : String) :
    (finalTable options dump).value[pointerType]? =
      (Entry.lastMember? options.corrections pointerType).or (Entry.lastMember?
        (Entry.ofDump options.order options.memberPrefix dump).value pointerType) := by
  rw [value_finalTable, getElem?_ofEntries, Entry.lastMember?_append]

end MemberMap

/-- After any changes of an empty table, one after the other, let the entries be those written since
the table was last replaced. The table answers for a pointer type with the last entry that names it,
which is also what is told to whoever writes one more entry; it is as large as the set of their
pointer types, and it lists each of them once, in the order of the bytes, with that last member.

In the final table of a run, therefore, the last correction that names a pointer type stands, and
else the last entry of the dump that names it. The same corrections once more change nothing, and
neither does another order of the entries, as long as the pointer types are distinct or those with
the same pointer type keep their order. -/
theorem table_keeps_last_writes (changes : List MemberMap.Change) (options : Options)
    (dump : String) :
    let map := ((∅ : MemberMap).changeAll changes).value
    let entries := MemberMap.written changes
    let read := fun dump => (Entry.ofDump options.order options.memberPrefix dump).value
    let final := fun dump => (finalTable options dump).value
    (∀ pointerType, map[pointerType]? = Entry.lastMember? entries pointerType) ∧
      (∀ entry, (map.change (.write entry)).value.1 = map[entry.pointerType]?) ∧
      map.size = (entries.map (·.pointerType)).dedup.length ∧
      (map.toList.map (·.1.toUTF8.data.toList)).Pairwise (· < ·) ∧
      (∀ pointerType member, (pointerType, member) ∈ map.toList ↔
        Entry.lastMember? entries pointerType = some member) ∧
      (∀ pointerType, (final dump)[pointerType]? =
        (Entry.lastMember? options.corrections pointerType).or
          (Entry.lastMember? (read dump) pointerType)) ∧
      ((final dump).correctAll options.corrections).value = final dump ∧
      (∀ other, (read other).Perm (read dump) → ((read dump).map (·.pointerType)).Nodup →
        final other = final dump) ∧
      ∀ other, (∀ pointerType, (read other).filter (·.pointerType = pointerType) =
        (read dump).filter (·.pointerType = pointerType)) → final other = final dump := by
  intro map entries read final
  have hmap : map = MemberMap.ofEntries entries := MemberMap.value_changeAll changes
  have hcongr : ∀ other, (∀ pointerType, Entry.lastMember? (read other) pointerType =
      Entry.lastMember? (read dump) pointerType) → final other = final dump := by
    intro other h
    have hfinal : ∀ dump, final dump = MemberMap.ofEntries (read dump ++ options.corrections) :=
      value_finalTable options
    rw [hfinal, hfinal]
    refine MemberMap.ofEntries_congr fun pointerType => ?_
    rw [Entry.lastMember?_append, Entry.lastMember?_append, h]
  refine ⟨?_, fun entry => rfl, ?_, MemberMap.toList_ascending map, ?_,
    MemberMap.getElem?_finalTable options dump, ?_, fun other hperm hdistinct => ?_,
    fun other hsame => ?_⟩
  · exact fun pointerType => hmap ▸ MemberMap.getElem?_ofEntries entries pointerType
  · rw [hmap, MemberMap.size_ofEntries]
  · exact fun pointerType member => hmap ▸ MemberMap.mem_toList_ofEntries
  · exact MemberMap.value_correctAll_correctAll _ options.corrections
  · exact hcongr other fun pointerType => Entry.lastMember?_eq_of_perm hperm hdistinct pointerType
  · exact hcongr other fun pointerType => congrArg (·.getLast?.map (·.member)) (hsame pointerType)

/-- A table that is filled, replaced, corrected and written again. Of the dumps with its entries,
two have them in another order, and in two more a pointer type has two members, in the same
order. -/
theorem sample_table_keeps_last_writes :
    let opener := Entry.mk "PNVENCOPEN" "nvEncOpen"
    let reopener := Entry.mk "PNVENCOPEN" "nvEncOpenEx"
    let closer := Entry.mk "PNVENCCLOSE" "nvEncClose"
    let dump := Entry.tableDump .typeFirst 4
    let changes : List MemberMap.Change :=
      [.write ⟨"PNVENCLOST", "nvEncLost"⟩, .reread .typeFirst "nvEnc" (dump [opener, closer]),
        .correct [reopener, opener, reopener], .write ⟨"PNVENCFLUSH", "nvEncFlush"⟩]
    let map := ((∅ : MemberMap).changeAll changes).value
    let final := fun entries => (finalTable .standard (dump entries)).value
    map["PNVENCOPEN"]? = some "nvEncOpenEx" ∧ map["PNVENCLOST"]? = none ∧ map.size = 3 ∧
      (map.change (.write closer)).value.1 = some "nvEncClose" ∧
      final [closer, opener] = final [opener, closer] ∧
      final [opener, reopener, closer] = final [opener, closer, reopener] := by
  intro opener reopener closer dump changes map final
  have hdeclarable : ∀ entry ∈ [opener, closer, reopener], entry.IsDeclarable "nvEnc" :=
    List.forall_mem_cons.2 ⟨⟨by decide, by decide, by decide⟩, List.forall_mem_cons.2
      ⟨⟨by decide, by decide, by decide⟩, List.forall_mem_singleton.2
        ⟨by decide, by decide, by decide⟩⟩⟩
  have hread : ∀ entries ⊆ [opener, closer, reopener],
      (Entry.ofDump Options.standard.order Options.standard.memberPrefix (dump entries)).value =
        entries := fun entries hentries =>
    Entry.value_ofDump_tableDump .typeFirst 4 fun entry hentry => hdeclarable _ (hentries hentry)
  have hwritten : MemberMap.written changes =
      [opener, closer, reopener, opener, reopener, ⟨"PNVENCFLUSH", "nvEncFlush"⟩] :=
    congrArg (· ++ [reopener, opener, reopener] ++ [⟨"PNVENCFLUSH", "nvEncFlush"⟩])
      (hread [opener, closer] (by decide))
  obtain ⟨hget, htold, hsize, -, -, -, -, hperm, -⟩ :=
    table_keeps_last_writes changes .standard (dump [opener, closer])
  obtain ⟨-, -, -, -, -, -, -, -, hsame⟩ :=
    table_keeps_last_writes changes .standard (dump [opener, closer, reopener])
  rw [hwritten] at hget hsize
  refine ⟨hget "PNVENCOPEN", hget "PNVENCLOST", hsize.trans (by decide), ?_, ?_, ?_⟩
  · exact (htold closer).trans (hget "PNVENCCLOSE")
  · refine hperm _ ?_ ?_
    · dsimp only
      rw [hread [closer, opener] (by decide), hread [opener, closer] (by decide)]
      exact .swap opener closer []
    · dsimp only
      rw [hread [opener, closer] (by decide)]
      decide
  · refine hsame _ fun pointerType => ?_
    dsimp only
    rw [hread [opener, reopener, closer] (by decide), hread [opener, closer, reopener] (by decide)]
    by_cases hkey : opener.pointerType = pointerType
    · subst hkey
      decide
    · have hrekey : ¬ reopener.pointerType = pointerType := hkey
      simp [List.filter_cons, hkey, hrekey]

end CallTable
