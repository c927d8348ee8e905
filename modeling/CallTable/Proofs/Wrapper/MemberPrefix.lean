import CallTable.Proofs.Generation
import CallTable.Proofs.Log
import CallTable.Proofs.MemberMap.LastEntry

/-!
# Members with the common start

With members first, a table holds no member without the common start of all members, and a run cuts
that start off by its length in bytes. The two agree as long as the corrections keep to the start:
`member_first_keeps_start` says that then every member of the final table carries it, that the cut
leaves exactly what stands behind it, and that no member is reported as foreign.
-/

namespace CallTable

open Text

/-- With members first, the entries of a dump carry the common start of all members. -/
theorem Entry.starts_of_mem_ofDump {memberPrefix dump : String} {entry : Entry}
    (h : entry ∈ (ofDump .memberFirst memberPrefix dump).value) :
    memberPrefix.toList <+: entry.member.toList := by
  rw [value_ofDump, filterMap_memberFirst] at h
  obtain ⟨declaration, hdeclaration, rfl⟩ := List.mem_map.1 h
  exact List.isPrefixOf_iff_prefix.1 (List.mem_filter.1 hdeclaration).2

/-- With members first and such corrections, the final table holds only members with the common
start. -/
theorem starts_of_finalTable {options : Options} (horder : options.order = .memberFirst)
    (hcorrections : ∀ correction ∈ options.corrections,
      options.memberPrefix.toList <+: correction.member.toList) {dump pointerType member : String}
    (h : (finalTable options dump).value[pointerType]? = some member) :
    options.memberPrefix.toList <+: member.toList := by
  rw [value_finalTable, horder] at h
  rcases List.mem_append.1 (MemberMap.mem_of_getElem?_ofEntries h) with hentry | hcorrection
  · exact Entry.starts_of_mem_ofDump hentry
  · exact hcorrections _ hcorrection

/-- A member with the common start is cut behind it, at the end of a character. -/
theorem exists_rest_of_starts {memberPrefix member : String}
    (h : memberPrefix.toList <+: member.toList) :
    ∃ rest : String, member = memberPrefix ++ rest ∧
      afterBytes? memberPrefix.utf8ByteSize member.toList = some rest.toList := by
  obtain ⟨rest, hrest⟩ := h
  refine ⟨String.ofList rest, ?_, ?_⟩
  · rw [← String.toList_inj, String.toList_append, String.toList_ofList, hrest]
  · have hcut := afterBytes?_append memberPrefix.toList rest
    rwa [String.ofList_toList, hrest, ← String.toList_ofList (l := rest)] at hcut

/-- Let members come first, and let the members of all corrections carry the common start, which may
be any text. Then every member of the final table is the common start and a rest, and cutting off as
many bytes as the start has leaves that rest. No run reports a foreign member. A wrapper has such a
member, and its name is made of the rest. -/
theorem member_first_keeps_start (options : Options) (horder : options.order = .memberFirst)
    (hcorrections : ∀ correction ∈ options.corrections,
      options.memberPrefix.toList <+: correction.member.toList)
    (tableDump signatureDump : String) (sink : Sink) :
    let map := (finalTable options tableDump).value
    let run := generate options tableDump signatureDump sink
    (∀ pointerType member : String, map[pointerType]? = some member →
      options.memberPrefix.toList <+: member.toList ∧
        ∃ rest, member = options.memberPrefix ++ rest ∧
          afterBytes? options.memberPrefix.utf8ByteSize member.toList = some rest.toList) ∧
      (∀ pointerType member memberPrefix,
        .memberForeign pointerType member memberPrefix ∉ run.events) ∧
      ∀ signature wrapper, (Signature.resolve options map signature).run.value = .ok wrapper →
        ∃ rest, wrapper.member = options.memberPrefix ++ rest ∧
          wrapper.name = String.ofList (Identifier.snakeCase rest.toList) := by
  intro map run
  have hstarts : ∀ {pointerType member : String}, map[pointerType]? = some member →
      options.memberPrefix.toList <+: member.toList := starts_of_finalTable horder hcorrections
  refine ⟨fun pointerType member h => ⟨hstarts h, exists_rest_of_starts (hstarts h)⟩, ?_, ?_⟩
  · intro pointerType member memberPrefix h
    obtain ⟨hmember, hforeign⟩ := foreign_of_mem_generate h
    exact hforeign (hstarts hmember)
  · intro signature wrapper h
    rw [Signature.value_resolve_eq_ok_iff] at h
    obtain ⟨member, hmember, rfl⟩ := Option.map_eq_some_iff.1 h
    obtain ⟨rest, hrest, hcut⟩ := exists_rest_of_starts (hstarts hmember)
    refine ⟨rest, hrest, ?_⟩
    rw [Signature.wrapper, memberStem, hcut, Option.getD_some]

/-- A common start of characters with three and four bytes, a table with one function and one other
field, and the alias of the function. -/
theorem member_first_keeps_start_wide :
    let options : Options := { Options.standard with
      order := .memberFirst
      memberPrefix := "関数𝄞"
      corrections := [⟨"PFLUSH", "関数𝄞Flush"⟩] }
    let table := "pub 関数𝄞OpenSession: POPEN,\npub version: u32,\n"
    let dump := "pub type POPEN = Option<fn(\n    encoder: u8,\n    sessionKey: u32,\n)>;\n"
    let map := (finalTable options table).value
    let signature : Signature := ⟨"POPEN", [⟨"sessionKey", "u32"⟩], []⟩
    let wrapper : Wrapper := ⟨"open_session", "関数𝄞OpenSession", [⟨"session_key", "u32"⟩]⟩
    options.order = .memberFirst ∧
      (∀ correction ∈ options.corrections,
        options.memberPrefix.toList <+: correction.member.toList) ∧
      map.size = 2 ∧ (Signature.ofDump dump).value = [signature] ∧
      (signature.resolve options map).run.value = .ok wrapper ∧
      (∃ rest, wrapper.member = options.memberPrefix ++ rest ∧
        wrapper.name = String.ofList (Identifier.snakeCase rest.toList)) ∧
      ∀ pointerType member memberPrefix, .memberForeign pointerType member memberPrefix ∉
        (generate options table dump .unlimited).events := by
  intro options table dump map signature wrapper
  have hcorrections : ∀ correction ∈ options.corrections,
      options.memberPrefix.toList <+: correction.member.toList := by decide
  have hsize : map.size = 2 := by decide +kernel
  have hread : (Signature.ofDump dump).value = [signature] := by decide +kernel
  have hwrapper : (signature.resolve options map).run.value = .ok wrapper := by
    rw [Signature.value_resolve_eq_ok_iff]
    decide +kernel
  obtain ⟨-, hquiet, hnames⟩ :=
    member_first_keeps_start options rfl hcorrections table dump .unlimited
  exact ⟨rfl, hcorrections, hsize, hread, hwrapper, hnames signature wrapper hwrapper, hquiet⟩

end CallTable
