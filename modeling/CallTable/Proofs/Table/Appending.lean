import CallTable.Proofs.Emission
import CallTable.Proofs.Table
import CallTable.Proofs.Table.Cut

/-!
# Appending a declaration to a table

A table dump may end in anything, also in a declaration that was broken off. As long as its last
line has ended, a line with one more declaration can be appended: `ofDump_append_line` says that it
is read behind everything that was read before, and that nothing else changes. The main result,
`append_line_adds_entry`, follows the new entry into the final table, where only a correction can
stand against it.
-/

namespace CallTable

open Text

/-- The last line of the text has ended, or there is none. -/
def EndsLine (text : List Char) : Prop :=
  text = [] ∨ text.getLast? = some '\n'

instance (text : List Char) : Decidable (EndsLine text) :=
  inferInstanceAs (Decidable (_ ∨ _))

namespace EndsLine

/-- Unifying the ends of a text whose last line has ended does not depend on what follows it, and
leaves such a text. -/
theorem unifyLineEnds_append {text : List Char} (h : EndsLine text) :
    EndsLine (unifyLineEnds text) ∧
      ∀ rest, unifyLineEnds (text ++ rest) = unifyLineEnds text ++ unifyLineEnds rest := by
  rcases h with rfl | hlast
  · exact ⟨.inl rfl, fun rest => rfl⟩
  · obtain ⟨before, rfl⟩ := List.getLast?_eq_some_iff.1 hlast
    obtain ⟨front, hfront⟩ := exists_unifyLineEnds_feed before
    refine ⟨.inr ?_, fun rest => ?_⟩
    · rw [hfront, unifyLineEnds, List.getLast?_concat]
    · rw [List.append_assoc, List.singleton_append, hfront, hfront, unifyLineEnds,
        List.append_assoc, List.singleton_append]

/-- Behind the last match of a text whose last line has ended, that line still ends. -/
theorem of_match {gap rest : List Char} {found : DeclarationMatch}
    (h : EndsLine (gap ++ (found.text ++ rest))) : rest.getLast? = some '\n' := by
  obtain ⟨front, hfront⟩ := found.exists_text_eq_concat
  rcases h with hempty | hlast
  · simp [hfront] at hempty
  · cases rest with
    | nil => simp [hfront] at hlast
    | cons c rest => simpa [hfront] using hlast

end EndsLine

/-- Blanks behind a gap hold no declaration, since a declaration ends in a comma. -/
theorem LacksDeclarations.append_blanks {gap blanks : List Char} (h : LacksDeclarations gap)
    (hblanks : ∀ c ∈ blanks, isBlank c = true) : LacksDeclarations (gap ++ blanks) := by
  rintro found ⟨before, after, hfound⟩
  obtain ⟨front, hfront⟩ := found.exists_text_eq_concat
  rcases List.append_eq_append_iff.1 hfound with ⟨more, hgap, -⟩ | ⟨more, hmatch, hafter⟩
  · exact h found ⟨before, more, hgap.symm⟩
  · rcases List.eq_nil_or_concat more with rfl | ⟨start, last, rfl⟩
    · exact h found ⟨before, [], by rw [hmatch, List.append_nil, List.append_nil]⟩
    · rw [hfront, List.concat_eq_append, ← List.append_assoc, ← List.append_assoc] at hmatch
      obtain ⟨-, hlast⟩ := List.append_inj' hmatch rfl
      obtain rfl : ',' = last := by simpa using hlast
      exact absurd (hblanks ',' (by simp [hafter])) (by decide)

/-- A match that is appended behind blanks to a text whose last line has ended is one more match of
the text. -/
theorem IsCut.append {text : List Char} {found : List DeclarationMatch} (h : IsCut text found)
    (hends : EndsLine text) {blanks : List Char} (hblanks : ∀ c ∈ blanks, isBlank c = true)
    (added : DeclarationMatch) {rest : List Char} (hrest : LacksDeclarations rest)
    (hlongest : ',' ∉ rest.takeWhile isVisible) :
    IsCut (text ++ (blanks ++ (added.text ++ rest))) (found ++ [added]) := by
  induction h with
  | last lacks =>
      rw [← List.append_assoc]
      exact .next added (lacks.append_blanks hblanks) hlongest (.last hrest)
  | @next gap remaining first further lacks longest _ ih =>
      -- The line feed behind the match keeps the run of its second column apart.
      obtain ⟨front, rfl⟩ := List.getLast?_eq_some_iff.1 hends.of_match
      rw [takeWhile_append_cons_of_neg front [] (by decide)] at longest
      have hstays : ',' ∉ ((front ++ ['\n']) ++
          (blanks ++ (added.text ++ rest))).takeWhile isVisible := by
        rwa [List.append_assoc, List.singleton_append,
          takeWhile_append_cons_of_neg front _ (by decide)]
      simpa using IsCut.next first lacks hstays (ih (.inr List.getLast?_concat))

namespace Declaration

/-- The line of a declaration is a match of it. -/
theorem HasWords.exists_match {declaration : Declaration} (h : declaration.HasWords) :
    ∃ found : DeclarationMatch,
      found.text = declaration.line ∧ found.declaration = declaration := by
  have hblank : ∀ c ∈ [' '], isBlank c = true := List.forall_mem_singleton.2 rfl
  refine ⟨⟨_, [' '], _, h.left_isWord, by decide, hblank, h.right_isWord⟩, rfl, ?_⟩
  rw [DeclarationMatch.declaration, String.ofList_toList, String.ofList_toList]

/-- A dump with a line that declares two columns behind its last line is read as the dump and then
that declaration. -/
theorem ofDump_append_line {dump : String} (hdump : EndsLine dump.toList)
    {indentation : List Char} (hindentation : IsSpacing indentation) {declaration : Declaration}
    (h : declaration.HasWords) :
    ofDump (dump ++ String.ofList (indentation ++ declaration.line ++ ['\n'])) =
      ofDump dump ++ [declaration] := by
  obtain ⟨hends, happend⟩ := hdump.unifyLineEnds_append
  obtain ⟨added, htext, hadded⟩ := h.exists_match
  have hfeed : '\n' ∉ indentation ++ declaration.line := by
    have hleft : '\n' ∉ declaration.left.toList := h.left_isWord.not_mem rfl
    have hright : '\n' ∉ declaration.right.toList := h.right_isWord.not_mem rfl
    simp [line, keyword, hindentation.feed_not_mem, hleft, hright]
  have hlast : (indentation ++ declaration.line).getLast? = some '\r' →
      ['\n'].head? ≠ some '\n' := by
    obtain ⟨front, hfront⟩ := added.exists_text_eq_concat
    rw [← htext, hfront, ← List.append_assoc, List.getLast?_concat]
    exact fun h => absurd (Option.some.inj h) (by decide)
  have hline : unifyLineEnds (indentation ++ declaration.line ++ ['\n']) =
      indentation ++ (added.text ++ ['\n']) := by
    rw [unifyLineEnds_append hfeed hlast, unifyLineEnds_feed, List.append_assoc, htext]
    rfl
  have hblank : ∀ c ∈ ['\n'], isBlank c = true := List.forall_mem_singleton.2 (by decide)
  have hrest : LacksDeclarations ['\n'] := LacksDeclarations.nil.append_blanks hblank
  obtain ⟨found, hcut, -⟩ := exists_isCut (unifyLineEnds dump.toList)
  have hlonger := hcut.append hends hindentation.blank added hrest (by decide)
  rw [← hline, ← happend] at hlonger
  rw [ofDump_of_isCut hcut, ofDump, String.toList_append, String.toList_ofList,
    all_of_isCut hlonger, List.map_append, List.map_singleton, hadded]

end Declaration

namespace Entry

/-- The dump with one more line that declares the entry. -/
def appended (order : ColumnOrder) (entry : Entry) (indentation : List Char) (dump : String) :
    String :=
  dump ++ String.ofList (indentation ++ (entry.columns order).line ++ ['\n'])

/-- Of a dump with one more line, the entries of the dump are read and then what the line stands
for. -/
theorem value_ofDump_appended (order : ColumnOrder) (memberPrefix : String) {dump : String}
    (hdump : EndsLine dump.toList) {indentation : List Char}
    (hindentation : IsSpacing indentation) {entry : Entry}
    (hpointer : IsWord entry.pointerType.toList) (hmember : IsWord entry.member.toList) :
    (ofDump order memberPrefix (entry.appended order indentation dump)).value =
      (ofDump order memberPrefix dump).value ++
        (ofDeclaration? order memberPrefix (entry.columns order)).toList := by
  have hwords := hasWords_columns hpointer hmember order
  rw [value_ofDump, value_ofDump, appended,
    Declaration.ofDump_append_line hdump hindentation hwords, List.filterMap_append,
    List.filterMap_cons]
  cases ofDeclaration? order memberPrefix (entry.columns order) <;> rfl

end Entry

namespace MemberMap

/-- An entry binds its pointer type, unless a later one names it too, and leaves every other one as
the entries around it have it. -/
theorem getElem?_ofEntries_insert (before after : List Entry) (entry : Entry) :
    ((∀ later ∈ after, later.pointerType ≠ entry.pointerType) →
      (ofEntries (before ++ [entry] ++ after))[entry.pointerType]? = some entry.member) ∧
    ∀ pointerType, pointerType ≠ entry.pointerType →
      (ofEntries (before ++ [entry] ++ after))[pointerType]? =
        (ofEntries (before ++ after))[pointerType]? := by
  refine ⟨fun h => ?_, fun pointerType hne => ?_⟩
  · rw [getElem?_ofEntries, Entry.lastMember?_append, Entry.lastMember?_append,
      Entry.lastMember?_eq_none_iff.2 h, Option.none_or, Entry.lastMember?_singleton, if_pos rfl,
      Option.some_or]
  · rw [getElem?_ofEntries, getElem?_ofEntries, Entry.lastMember?_append, Entry.lastMember?_append,
      Entry.lastMember?_append, Entry.lastMember?_singleton, if_neg hne.symm, Option.none_or]

end MemberMap

/-- Behind a table dump whose last line has ended, whatever stands in it, let a line be appended that
declares an entry: blanks, the two columns in their order, and a line feed. With pointer types first
the dump is read as its entries and the new one. With members first this is so if the member carries
the common start of all members, and otherwise the dump is read as before. If the entry is added, the
final table binds its pointer type to its member, unless a correction names the pointer type, and
agrees with the table before on every other one. -/
theorem append_line_adds_entry (options : Options) {dump : String} (hdump : EndsLine dump.toList)
    {indentation : List Char} (hindentation : IsSpacing indentation) {entry : Entry}
    (hpointer : IsWord entry.pointerType.toList) (hmember : IsWord entry.member.toList) :
    let entries := fun order dump => (Entry.ofDump order options.memberPrefix dump).value
    let longer := fun order => entry.appended order indentation dump
    let IsMember := options.memberPrefix.toList <+: entry.member.toList
    entries .typeFirst (longer .typeFirst) = entries .typeFirst dump ++ [entry] ∧
      (IsMember → entries .memberFirst (longer .memberFirst) =
        entries .memberFirst dump ++ [entry]) ∧
      (¬ IsMember → entries .memberFirst (longer .memberFirst) = entries .memberFirst dump) ∧
      (options.order = .typeFirst ∨ IsMember →
        let before := (finalTable options dump).value
        let after := (finalTable options (longer options.order)).value
        ((∀ correction ∈ options.corrections, correction.pointerType ≠ entry.pointerType) →
          after[entry.pointerType]? = some entry.member) ∧
        ∀ pointerType, pointerType ≠ entry.pointerType →
          after[pointerType]? = before[pointerType]?) := by
  intro entries longer IsMember
  have hread : ∀ order, entries order (longer order) = entries order dump ++
      (Entry.ofDeclaration? order options.memberPrefix (entry.columns order)).toList :=
    fun order => Entry.value_ofDump_appended order _ hdump hindentation hpointer hmember
  have hadded : ∀ order, order = .typeFirst ∨ IsMember →
      entries order (longer order) = entries order dump ++ [entry] := by
    intro order h
    have hentry : Entry.ofDeclaration? order options.memberPrefix (entry.columns order) =
        some entry := by
      rcases h with rfl | h
      · rfl
      · exact Entry.ofDeclaration?_columns h order
    rw [hread, hentry, Option.toList_some]
  refine ⟨hadded .typeFirst (.inl rfl), fun h => hadded .memberFirst (.inr h), fun h => ?_, ?_⟩
  · have hskipped : Entry.ofDeclaration? .memberFirst options.memberPrefix
        (entry.columns .memberFirst) = none := if_neg (by rwa [List.isPrefixOf_iff_prefix])
    rw [hread, hskipped, Option.toList_none, List.append_nil]
  · intro h before after
    have hafter : after = MemberMap.ofEntries
        (entries options.order dump ++ [entry] ++ options.corrections) := by
      rw [← hadded options.order h]
      exact value_finalTable options (longer options.order)
    have hbefore : before = MemberMap.ofEntries
        (entries options.order dump ++ options.corrections) := value_finalTable options dump
    rw [hafter, hbefore]
    exact MemberMap.getElem?_ofEntries_insert _ _ entry

/-- A dump that ends in a declaration that was broken off, and the line appended to it. -/
theorem append_line_adds_entry_behind_broken :
    let dump := "pub PNVENCOPEN: nvEncOpen,\npub PNVENCCLOSE:\n"
    let entry := Entry.mk "PNVENCCLOSE" "nvEncClose"
    EndsLine dump.toList ∧ IsSpacing "\t ".toList ∧ IsWord entry.pointerType.toList ∧
      IsWord entry.member.toList ∧
      entry.appended .typeFirst "\t ".toList dump =
        "pub PNVENCOPEN: nvEncOpen,\npub PNVENCCLOSE:\n\t pub PNVENCCLOSE: nvEncClose,\n" ∧
      (Entry.ofDump .typeFirst "nvEnc" (entry.appended .typeFirst "\t ".toList dump)).value =
        [⟨"PNVENCOPEN", "nvEncOpen"⟩, entry] ∧
      (finalTable .standard (entry.appended .typeFirst "\t ".toList dump)).value["PNVENCCLOSE"]? =
        some "nvEncClose" := by
  intro dump entry
  have hdump : EndsLine dump.toList := by decide
  have hindentation : IsSpacing "\t ".toList := by decide
  have hpointer : IsWord entry.pointerType.toList := by decide
  have hmember : IsWord entry.member.toList := by decide
  obtain ⟨hread, -, -, htable⟩ :=
    append_line_adds_entry .standard hdump hindentation hpointer hmember
  have hbefore : (Entry.ofDump .typeFirst "nvEnc" dump).value = [⟨"PNVENCOPEN", "nvEncOpen"⟩] := by
    decide +kernel
  refine ⟨hdump, hindentation, hpointer, hmember, by decide +kernel, ?_,
    (htable (.inl rfl)).1 (by decide)⟩
  exact hread.trans (congrArg (· ++ [entry]) hbefore)

end CallTable
