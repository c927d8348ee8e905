import CallTable.Proofs.Emission
import CallTable.Proofs.Identifier
import CallTable.Proofs.Signature.Listing
import CallTable.Proofs.Table
import CallTable.Proofs.TypeName

/-!
# From declared functions to wrappers

A library declares functions: each has a pointer type, a member of the function table, and
parameters. Its table dump holds the pairs of pointer types and members in any order, and its
signature dump the aliases in the layout of the SDK. `generate_declared` states what a run makes of
the two: one wrapper for each function, in the order of the aliases, with the names and types that
the declarations call for, and a report that nothing was dropped.
-/

namespace CallTable

open Text

/-- A parameter of a declared function, whose type fits on a line and holds no closing
parenthesis. -/
structure DeclaredParameter (known : List String) where
  name : Identifier.MixedName
  parts_ne_nil : name.parts ≠ []
  type : DeclaredType known
  type_visible : ∃ c ∈ type.text.head?, isVisible c = true
  feed_not_mem_type : '\n' ∉ type.text
  closer_not_mem_type : ')' ∉ type.text

/-- A function that is declared with its member. The name of the member is the common start of all
members and at least one token. -/
structure DeclaredFunction (options : Options) where
  pointerType : List Char
  pointerType_isWord : IsWord pointerType
  tokens : List (List Char)
  tokens_ne_nil : tokens ≠ []
  tokens_isToken : ∀ token ∈ tokens, Identifier.IsToken token
  parameters : List (DeclaredParameter options.known)

namespace DeclaredParameter

variable {known : List String}

/-- The line of the parameter in the layout of the SDK. -/
def line (parameter : DeclaredParameter known) : List Char :=
  sdkMargin ++ (parameter.name.text ++ ':' :: ' ' :: (parameter.type.text ++ [',']))

/-- The parameter as the dump declares it. -/
def declared (parameter : DeclaredParameter known) : Parameter :=
  ⟨String.ofList parameter.name.text, String.ofList parameter.type.text⟩

/-- The parameter as a wrapper declares it. -/
def adapted (space : String) (parameter : DeclaredParameter known) : Parameter :=
  ⟨String.ofList parameter.name.lowered, String.ofList (parameter.type.qualified space.toList)⟩

/-- The parameter as a part of a block. -/
def listed (parameter : DeclaredParameter known) : ListedParameter :=
  .sdk (parameter.name.isWord_text parameter.parts_ne_nil) parameter.name.closer_not_mem_text
    parameter.type_visible parameter.feed_not_mem_type

theorem line_listed (parameter : DeclaredParameter known) :
    parameter.listed.line = parameter.line :=
  parameter.listed.line_eq

end DeclaredParameter

/-- A wrapper declares a parameter with its name in lowercase and its type qualified. -/
theorem DeclaredParameter.adapt_declared {options : Options}
    (parameter : DeclaredParameter options.known) :
    parameter.declared.adapt options = parameter.adapted options.typeNamespace := by
  rw [Parameter.adapt, declared, String.toList_ofList,
    parameter.name.snakeCase_text parameter.parts_ne_nil, parameter.type.qualify_text]
  rfl

namespace DeclaredFunction

variable {options : Options}

/-- What the name of the member says after the common start. -/
def stem (function : DeclaredFunction options) : Identifier.MixedName where
  lead := []
  tokens := function.tokens
  lead_isLower := by simp
  lead_length := by decide
  tokens_isToken := function.tokens_isToken

/-- The entry of the function in the table. -/
def entry (function : DeclaredFunction options) : Entry :=
  ⟨String.ofList function.pointerType,
    options.memberPrefix ++ String.ofList function.stem.text⟩

/-- The signature of the function as the dump declares it. -/
def signature (function : DeclaredFunction options) : Signature :=
  ⟨String.ofList function.pointerType, function.parameters.map DeclaredParameter.declared, []⟩

/-- The wrapper that the declaration calls for. -/
def wrapper (function : DeclaredFunction options) : Wrapper :=
  ⟨String.ofList function.stem.lowered, function.entry.member,
    function.parameters.map (DeclaredParameter.adapted options.typeNamespace)⟩

/-- The alias of the function in the layout of the SDK. -/
def lines (function : DeclaredFunction options) : List (List Char) :=
  ["pub type ".toList ++ function.pointerType ++ " = ::std::option::Option<".toList,
    "    unsafe extern \"C\" fn(".toList,
    "        encoder: *mut ::std::os::raw::c_void,".toList] ++
    function.parameters.map DeclaredParameter.line ++
    ["    ) -> NVENCSTATUS,".toList, ">;".toList]

/-- The signature dump of declared functions. -/
def signatureDump (functions : List (DeclaredFunction options)) : String :=
  String.ofList (ofLines (functions.flatMap lines))

end DeclaredFunction

/-! ## Reading the dumps -/

namespace DeclaredFunction

variable {options : Options}

/-- The alias of a declared function is a well-formed part of a dump that declares its
signature. -/
theorem exists_items (function : DeclaredFunction options) :
    ∃ items : List Item, items.flatMap Item.lines = function.lines ∧
      items.filterMap Item.signature? = [function.signature] := by
  let block := ListedBlock.sdk function.pointerType_isWord
    (function.parameters.map DeclaredParameter.listed)
  have hcloser : ∀ listed ∈ block.listing, ')' ∉ listed.type := by
    intro listed hlisted
    obtain ⟨parameter, -, rfl⟩ := List.mem_map.1 hlisted
    exact parameter.closer_not_mem_type
  obtain ⟨candidate, hlines, hsignature⟩ := block.exists_candidate hcloser
  have hlast : IsPlain ">;".toList :=
    .of_not_mem (c := 'p') ⟨by decide, by decide⟩ (by decide) (by decide)
  refine ⟨[.candidate candidate, .noise ">;".toList hlast], ?_, ?_⟩
  · show candidate.lines ++ [">;".toList] = function.lines
    rw [hlines, ListedBlock.lines_sdk, List.map_map, List.append_assoc]
    simp only [Function.comp_def, DeclaredParameter.line_listed]
    rfl
  · show [candidate.signature] = [function.signature]
    rw [hsignature]
    show [Signature.mk _ ((function.parameters.map _).map _) _] = _
    rw [List.map_map]
    rfl

/-- The signature dump of declared functions is read as their signatures. -/
theorem value_ofDump_signatureDump (functions : List (DeclaredFunction options)) :
    (Signature.ofDump (signatureDump functions)).value = functions.map signature := by
  obtain ⟨items, hlines, hsignatures⟩ : ∃ items : List Item,
      items.flatMap Item.lines = functions.flatMap lines ∧
        items.filterMap Item.signature? = functions.map signature := by
    induction functions with
    | nil => exact ⟨[], rfl, rfl⟩
    | cons function functions ih =>
        obtain ⟨first, hfirst, hown⟩ := function.exists_items
        obtain ⟨items, hlines, hsignatures⟩ := ih
        refine ⟨first ++ items, ?_, ?_⟩
        · rw [List.flatMap_append, hfirst, hlines, List.flatMap_cons]
        · rw [List.filterMap_append, hown, hsignatures, List.map_cons, List.singleton_append]
  rw [signatureDump, ← hlines, ← hsignatures]
  exact value_ofDump_dump items

/-- The entry of a declared function can stand in a table. -/
theorem isDeclarable_entry (hcommon : ∀ c ∈ options.memberPrefix.toList, isVisible c = true)
    (function : DeclaredFunction options) :
    function.entry.IsDeclarable options.memberPrefix := by
  have hparts : function.stem.parts ≠ [] := function.tokens_ne_nil
  obtain ⟨hne, hstem⟩ := function.stem.isWord_text hparts
  refine ⟨?_, ⟨?_, ?_⟩, ?_⟩
  · simpa [entry] using function.pointerType_isWord
  · simp [entry, hne]
  · intro c hc
    have hsplit : c ∈ options.memberPrefix.toList ∨ c ∈ function.stem.text := by
      simpa [entry] using hc
    exact hsplit.elim (hcommon c) (hstem c)
  · simp [entry]

end DeclaredFunction

/-- The final table of a dump that is written as a table is the map of its entries and the
corrections after them. -/
theorem value_finalTable_tableDump {options : Options} (indent : Nat) {table : List Entry}
    (h : ∀ entry ∈ table, entry.IsDeclarable options.memberPrefix) :
    (finalTable options (Entry.tableDump options.order indent table)).value =
      MemberMap.ofEntries (table ++ options.corrections) := by
  rw [value_finalTable, Entry.value_ofDump_tableDump options.order indent h]

/-- The final table of a dump that holds the entries of declared functions. -/
theorem DeclaredFunction.value_finalTable_tableDump {options : Options}
    (hcommon : ∀ c ∈ options.memberPrefix.toList, isVisible c = true)
    {functions : List (DeclaredFunction options)} {table : List Entry}
    (htable : table.Perm (functions.map entry)) (indent : Nat) :
    (finalTable options (Entry.tableDump options.order indent table)).value =
      MemberMap.ofEntries (table ++ options.corrections) := by
  refine CallTable.value_finalTable_tableDump indent fun entry hentry => ?_
  obtain ⟨function, -, rfl⟩ := List.mem_map.1 (htable.mem_iff.1 hentry)
  exact function.isDeclarable_entry hcommon

/-- The table of declared functions has a member for each of their signatures. -/
theorem pointerType_mem_finalTable {options : Options}
    (hcommon : ∀ c ∈ options.memberPrefix.toList, isVisible c = true)
    (functions : List (DeclaredFunction options)) :
    let tableDump := Entry.tableDump options.order 0 (functions.map DeclaredFunction.entry)
    let signatureDump := DeclaredFunction.signatureDump functions
    ∀ signature ∈ (Signature.ofDump signatureDump).value,
      signature.pointerType ∈ (finalTable options tableDump).value := by
  intro tableDump signatureDump signature hsignature
  rw [DeclaredFunction.value_ofDump_signatureDump] at hsignature
  obtain ⟨function, hfunction, rfl⟩ := List.mem_map.1 hsignature
  rw [DeclaredFunction.value_finalTable_tableDump hcommon (.refl _)]
  have hentry : function.entry ∈ functions.map DeclaredFunction.entry ++ options.corrections :=
    List.mem_append_left _ (List.mem_map_of_mem hfunction)
  exact MemberMap.mem_foldl_write.2 (Or.inl (List.mem_map.2 ⟨function.entry, hentry, rfl⟩))

/-! ## Making the wrappers -/

/-- What a member says after the common start is found by cutting the common start off. -/
theorem memberStem_append (memberPrefix : String) (stem : List Char) :
    memberStem memberPrefix (memberPrefix ++ String.ofList stem) = stem := by
  have hcut := afterBytes?_append memberPrefix.toList stem
  rw [String.ofList_toList] at hcut
  rw [memberStem, String.toList_append, String.toList_ofList, hcut, Option.getD_some]

/-- A declared function whose member the map knows gets the wrapper that it calls for. -/
theorem DeclaredFunction.boundWrapper?_signature {options : Options} {map : MemberMap}
    {function : DeclaredFunction options}
    (h : map[function.entry.pointerType]? = some function.entry.member) :
    function.signature.boundWrapper? options map = some function.wrapper := by
  have hparts : function.stem.parts ≠ [] := function.tokens_ne_nil
  have hstem : memberStem options.memberPrefix function.entry.member = function.stem.text :=
    memberStem_append options.memberPrefix function.stem.text
  have hparameters : function.signature.parameters.map (·.adapt options) =
      function.parameters.map (DeclaredParameter.adapted options.typeNamespace) := by
    rw [signature, List.map_map]
    exact List.map_congr_left fun parameter _ => parameter.adapt_declared
  have hpointer : function.signature.pointerType = function.entry.pointerType := rfl
  rw [Signature.boundWrapper?, hpointer, h, Option.map_some, Signature.wrapper, hstem,
    function.stem.snakeCase_text hparts, hparameters]
  rfl

/-- If the pointer types are distinct, the table and its corrections bind each to the member of its
function, in whatever order the table holds them. -/
theorem getElem?_table {options : Options} {functions : List (DeclaredFunction options)}
    {table : List Entry} (hdistinct : (functions.map (·.pointerType)).Nodup)
    (htable : table.Perm (functions.map DeclaredFunction.entry))
    (hcorrections : ∀ correction ∈ options.corrections, ∀ function ∈ functions,
      correction.pointerType = function.entry.pointerType →
        correction.member = function.entry.member)
    {function : DeclaredFunction options} (hfunction : function ∈ functions) :
    (MemberMap.ofEntries (table ++ options.corrections))[function.entry.pointerType]? =
      some function.entry.member := by
  have hentry : function.entry ∈ table := htable.mem_iff.2 (List.mem_map_of_mem hfunction)
  refine MemberMap.getElem?_foldl_write ?_
    (Or.inl ⟨function.entry, List.mem_append_left _ hentry, rfl⟩)
  intro entry hmem hsame
  rcases List.mem_append.1 hmem with hmem | hmem
  · -- Distinct pointer types make this the entry of the same function.
    obtain ⟨other, hother, rfl⟩ := List.mem_map.1 (htable.mem_iff.1 hmem)
    have hpointer : other.pointerType = function.pointerType := String.ofList_injective hsame
    rw [List.inj_on_of_nodup_map hdistinct hother hfunction hpointer]
  · exact hcorrections entry hmem function hfunction hsame

/-- A map that knows all members gives all declared wrappers, in order. -/
theorem boundWrappers_signatures {options : Options} {map : MemberMap}
    {functions : List (DeclaredFunction options)}
    (h : ∀ function ∈ functions, map[function.entry.pointerType]? = some function.entry.member) :
    boundWrappers options map (functions.map DeclaredFunction.signature) =
      functions.map DeclaredFunction.wrapper := by
  rw [boundWrappers, List.filterMap_map, ← List.filterMap_eq_map]
  exact List.filterMap_congr fun function hfunction =>
    DeclaredFunction.boundWrapper?_signature (h function hfunction)

/-- If the final table knows the members of the functions that a signature dump declares, a run
writes their wrappers, in the order of the dump, as far as the sink takes them. A function that is
declared twice gets two of them. -/
theorem value_generate_signatureDump {options : Options} {tableDump : String}
    {functions : List (DeclaredFunction options)} (sink : Sink)
    (h : ∀ function ∈ functions, (finalTable options tableDump).value[function.entry.pointerType]? =
      some function.entry.member) :
    let text := renderAll (functions.map DeclaredFunction.wrapper)
    (generate options tableDump (DeclaredFunction.signatureDump functions) sink).value =
      (if sink.fits text then
          .ok ⟨functions.length, (finalTable options tableDump).value.size, []⟩
        else .error (.refused sink.refusal),
        sink.write text) := by
  intro text
  have hsignatures := DeclaredFunction.value_ofDump_signatureDump functions
  have hmem : ∀ signature ∈ (Signature.ofDump (DeclaredFunction.signatureDump functions)).value,
      signature.pointerType ∈ (finalTable options tableDump).value := by
    rw [hsignatures]
    intro signature hsignature
    obtain ⟨function, hfunction, rfl⟩ := List.mem_map.1 hsignature
    exact Std.ExtTreeMap.mem_iff_isSome_getElem?.2 (Option.isSome_of_eq_some (h function hfunction))
  have hdropped : droppedLines (functions.map DeclaredFunction.signature) = [] := by
    simp [droppedLines, DeclaredFunction.signature]
  rw [value_generate_of_forall_mem sink hmem, hsignatures, boundWrappers_signatures h, hdropped,
    List.length_map]

/-! ## The main result -/

/-- Everything fits into a sink without a limit. -/
theorem Sink.fits_unlimited (text : String) : unlimited.fits text = true :=
  rfl

/-- A sink without a limit holds the text that was written into it. -/
theorem Sink.written_unlimited (text : String) : (unlimited.write text).written = text.toUTF8 := by
  have hwhole := written_write_of_fits (fits_unlimited text)
  rwa [unlimited, ByteArray.empty_append] at hwhole

/-- From a table dump that holds the entries of declared functions with distinct pointer types, in
any order and with the columns in the order of the options, and from their signature dump, a run
writes exactly the wrappers that the declarations call for, in the order of the signature dump and
line by line as they are laid out. It reports as many wrappers as there are functions, as many
entries as there are pointer types in the table and its corrections, and no dropped line. A
correction may name a declared function only with its own member. -/
theorem generate_declared (options : Options)
    (hcommon : ∀ c ∈ options.memberPrefix.toList, isVisible c = true)
    (functions : List (DeclaredFunction options))
    (hdistinct : (functions.map (·.pointerType)).Nodup)
    (hcorrections : ∀ correction ∈ options.corrections, ∀ function ∈ functions,
      correction.pointerType = function.entry.pointerType →
        correction.member = function.entry.member)
    (table : List Entry) (htable : table.Perm (functions.map DeclaredFunction.entry))
    (indent : Nat) :
    let run := (generate options (Entry.tableDump options.order indent table)
      (DeclaredFunction.signatureDump functions) .unlimited).value
    let pointerTypes := functions.map (·.entry.pointerType) ++
      options.corrections.map (·.pointerType)
    let lines := functions.flatMap (·.wrapper.layout)
    run.1 = .ok ⟨functions.length, pointerTypes.dedup.length, []⟩ ∧
      run.2.written = (String.join (lines.map (· ++ "\n"))).toUTF8 := by
  intro run pointerTypes lines
  have hmap := DeclaredFunction.value_finalTable_tableDump hcommon htable indent
  have hlookup : ∀ function ∈ functions,
      (finalTable options (Entry.tableDump options.order indent table)).value[
        function.entry.pointerType]? = some function.entry.member := by
    rw [hmap]
    exact fun function hfunction => getElem?_table hdistinct htable hcorrections hfunction
  have hsize : (MemberMap.ofEntries (table ++ options.corrections)).size =
      pointerTypes.dedup.length := by
    have hperm := (htable.map (·.pointerType)).append_right
      (options.corrections.map (·.pointerType))
    rw [MemberMap.size_ofEntries, List.map_append, hperm.dedup.length_eq, List.map_map]
    rfl
  have hlines : (functions.map DeclaredFunction.wrapper).flatMap Wrapper.layout = lines := by
    rw [List.flatMap_map]
  have hrun : run = _ := value_generate_signatureDump .unlimited hlookup
  rw [hmap, hsize, if_pos (Sink.fits_unlimited _), renderAll, hlines] at hrun
  rw [hrun]
  exact ⟨rfl, Sink.written_unlimited _⟩

/-- Two functions of the library: the type of one parameter is elementary, that of the other is
not. -/
def sampleFunctions : List (DeclaredFunction Options.standard) :=
  [{  pointerType := "PNVENCGETENCODEGUIDCOUNT".toList
      pointerType_isWord := by decide
      tokens := ["Get".toList, "Encode".toList, "GUID".toList, "Count".toList]
      tokens_ne_nil := by decide
      tokens_isToken := by decide
      parameters :=
        [{  name :=
              { lead := "encode".toList
                tokens := ["GUID".toList, "Count".toList]
                lead_isLower := List.all_eq_true.1 (by decide)
                lead_length := by decide
                tokens_isToken := by decide }
            parts_ne_nil := by simp [Identifier.MixedName.parts]
            type := .elementary "*mut u32".toList (by decide +kernel)
            type_visible := ⟨'*', by decide, by decide⟩
            feed_not_mem_type := by decide
            closer_not_mem_type := by decide }] },
    { pointerType := "PNVENCDESTROYBUFFER".toList
      pointerType_isWord := by decide
      tokens := ["Destroy".toList, "Buffer".toList]
      tokens_ne_nil := by decide
      tokens_isToken := by decide
      parameters :=
        [{  name :=
              { lead := "buffer".toList
                tokens := []
                lead_isLower := List.all_eq_true.1 (by decide)
                lead_length := by decide
                tokens_isToken := by simp }
            parts_ne_nil := by simp [Identifier.MixedName.parts]
            type := .library ["*mut".toList] "NV_ENC_BUFFER".toList (by decide) (by decide)
              (by decide +kernel)
            type_visible := ⟨'*', by decide, by decide⟩
            feed_not_mem_type := by decide
            closer_not_mem_type := by decide }] }]

/-- With the standard options, the table may hold the two functions the other way round, and the two
standard corrections add their entries. -/
theorem generate_sample_functions :
    let run := (generate Options.standard
      (Entry.tableDump .typeFirst 0 (sampleFunctions.map DeclaredFunction.entry).reverse)
      (DeclaredFunction.signatureDump sampleFunctions) .unlimited).value
    run.1 = .ok ⟨2, 4, []⟩ ∧
      run.2.written = (String.join
        ["#[inline(always)]\n",
          "pub(crate) unsafe fn get_encode_guid_count(\n",
          "    &self,\n",
          "    encode_guid_count: *mut u32,\n",
          ") -> Result<()> \x7b\n",
          "    let status = (self.functions.nvEncGetEncodeGUIDCount.unwrap_unchecked())(\n",
          "        self.encoder_ptr.as_ptr(),\n",
          "        encode_guid_count,\n",
          "    );\n",
          "    match NvEncError::from_nvenc_status(status) \x7b\n",
          "        None => Ok(()),\n",
          "        Some(err) => Err(err),\n",
          "    \x7d\n",
          "\x7d\n",
          "#[inline(always)]\n",
          "pub(crate) unsafe fn destroy_buffer(\n",
          "    &self,\n",
          "    buffer: *mut crate::sys::NV_ENC_BUFFER,\n",
          ") -> Result<()> \x7b\n",
          "    let status = (self.functions.nvEncDestroyBuffer.unwrap_unchecked())(\n",
          "        self.encoder_ptr.as_ptr(),\n",
          "        buffer,\n",
          "    );\n",
          "    match NvEncError::from_nvenc_status(status) \x7b\n",
          "        None => Ok(()),\n",
          "        Some(err) => Err(err),\n",
          "    \x7d\n",
          "\x7d\n"]).toUTF8 := by
  obtain ⟨hreport, hwritten⟩ := generate_declared Options.standard
    (List.all_eq_true.1 (by decide)) sampleFunctions (by decide +kernel) (by decide +kernel)
    (sampleFunctions.map DeclaredFunction.entry).reverse (List.reverse_perm _) 0
  have hentries : (sampleFunctions.map (·.entry.pointerType) ++
      Options.standard.corrections.map (·.pointerType)).dedup.length = 4 := by decide +kernel
  rw [hentries] at hreport
  refine ⟨hreport, hwritten.trans (congrArg (fun lines => (String.join lines).toUTF8) ?_)⟩
  decide +kernel

end CallTable
