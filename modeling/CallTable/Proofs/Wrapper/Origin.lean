import CallTable.Proofs.Generation

/-!
# What a wrapper is made of

Each wrapper that a run writes is made of one signature of the signature dump. The main result,
`one_wrapper_per_signature`, says of every run that ended well that it writes one wrapper for each
signature, in order, through the member that the final table binds its pointer type to. So a pointer
type gets as many wrappers as there are aliases that declare it: one, unless the dump declares it
more than once. A run does not look for that, as `alias_declared_twice` shows.
-/

namespace CallTable

open Text

/-- The wrappers that a run makes, each with the signature that it is made of. -/
def wrapped (options : Options) (map : MemberMap) (signatures : List Signature) :
    List (Signature × Wrapper) :=
  signatures.filterMap fun signature =>
    (signature.boundWrapper? options map).map fun wrapper => (signature, wrapper)

variable {options : Options} {map : MemberMap} {signatures : List Signature}

theorem mem_wrapped_iff {pair : Signature × Wrapper} :
    pair ∈ wrapped options map signatures ↔
      pair.1 ∈ signatures ∧ pair.1.boundWrapper? options map = some pair.2 := by
  rw [wrapped, List.mem_filterMap]
  constructor
  · rintro ⟨signature, hsignature, hpair⟩
    obtain ⟨wrapper, hwrapper, rfl⟩ := Option.map_eq_some_iff.1 hpair
    exact ⟨hsignature, hwrapper⟩
  · rintro ⟨hsignature, hwrapper⟩
    exact ⟨pair.1, hsignature, by rw [hwrapper, Option.map_some]⟩

/-- The wrappers are those of the signatures that have a member. -/
theorem map_snd_wrapped (options : Options) (map : MemberMap) (signatures : List Signature) :
    (wrapped options map signatures).map (·.2) = boundWrappers options map signatures := by
  rw [wrapped, boundWrappers, List.map_filterMap]
  refine List.filterMap_congr fun signature _ => ?_
  rw [Option.map_map]
  exact Option.map_id'

/-- If the table has a member for every signature, each of them has a wrapper. -/
theorem map_fst_wrapped (options : Options)
    (h : ∀ signature ∈ signatures, signature.pointerType ∈ map) :
    (wrapped options map signatures).map (·.1) = signatures := by
  rw [wrapped, List.map_filterMap]
  refine (List.filterMap_congr fun signature hsignature => ?_).trans List.filterMap_some
  obtain ⟨wrapper, hwrapper⟩ := Signature.exists_bound_wrapper options (h signature hsignature)
  rw [hwrapper]
  rfl

/-- A wrapper calls the member that the table binds the pointer type of its signature to, and is
that signature's wrapper for it. -/
theorem bound_of_mem_wrapped {pair : Signature × Wrapper}
    (h : pair ∈ wrapped options map signatures) :
    map[pair.1.pointerType]? = some pair.2.member ∧
      pair.2 = pair.1.wrapper options pair.2.member := by
  obtain ⟨-, hbound⟩ := mem_wrapped_iff.1 h
  obtain ⟨member, hmember, hwrapper⟩ := Option.map_eq_some_iff.1 hbound
  rw [← hwrapper]
  exact ⟨hmember, rfl⟩

/-- If the table knows the members of declared functions, their signatures have the wrappers that
the declarations call for. -/
theorem wrapped_signatures {functions : List (DeclaredFunction options)}
    (h : ∀ function ∈ functions, map[function.entry.pointerType]? = some function.entry.member) :
    wrapped options map (functions.map DeclaredFunction.signature) =
      functions.map fun function => (function.signature, function.wrapper) := by
  rw [wrapped, List.filterMap_map, ← List.filterMap_eq_map]
  refine List.filterMap_congr fun function hfunction => ?_
  rw [Function.comp_apply, DeclaredFunction.boundWrapper?_signature (h function hfunction)]
  rfl

/-! ## A run on two functions -/

/-- The table dump of the two functions. -/
def sampleTable : String :=
  Entry.tableDump Options.standard.order 0 (sampleFunctions.map DeclaredFunction.entry)

/-- The signature dump of the two functions. -/
def sampleDump : String :=
  DeclaredFunction.signatureDump sampleFunctions

theorem getElem?_sampleTable : ∀ function ∈ sampleFunctions,
    (finalTable .standard sampleTable).value[function.entry.pointerType]? =
      some function.entry.member := by
  intro function hfunction
  have hcommon : ∀ c ∈ Options.standard.memberPrefix.toList, isVisible c = true :=
    List.all_eq_true.1 (by decide)
  rw [sampleTable, DeclaredFunction.value_finalTable_tableDump hcommon (.refl _)]
  exact getElem?_table (by decide +kernel) (.refl _) (by decide +kernel) hfunction

/-- The run on the two dumps ends well. -/
theorem generate_sampleDump :
    (generate .standard sampleTable sampleDump .unlimited).value.1 =
      .ok ⟨2, (finalTable .standard sampleTable).value.size, []⟩ := by
  rw [sampleDump, value_generate_signatureDump .unlimited getElem?_sampleTable,
    if_pos (Sink.fits_unlimited _)]
  rfl

/-- The run makes one wrapper of each of the two signatures. -/
theorem wrapped_sampleDump :
    wrapped .standard (finalTable .standard sampleTable).value
        (Signature.ofDump sampleDump).value =
      sampleFunctions.map fun function => (function.signature, function.wrapper) := by
  rw [sampleDump, DeclaredFunction.value_ofDump_signatureDump,
    wrapped_signatures getElem?_sampleTable]

/-! ## The main result -/

/-- A run that ended well wrote one wrapper for each signature of the dump, in order. Each of them
calls the member that the final table binds the pointer type of its signature to, and is that
signature's wrapper for it. So a pointer type gets as many wrappers as there are signatures that
name it, and every pointer type of the dump gets exactly one if and only if none is declared more
than once. -/
theorem one_wrapper_per_signature {tableDump signatureDump : String} {sink : Sink}
    {report : Report}
    (hended : (generate options tableDump signatureDump sink).value.1 = .ok report) :
    let map := (finalTable options tableDump).value
    let signatures := (Signature.ofDump signatureDump).value
    let pointerTypes := signatures.map (·.pointerType)
    let pairs := wrapped options map signatures
    let count := fun pointerType => pairs.countP (·.1.pointerType = pointerType)
    (generate options tableDump signatureDump sink).value.2.written =
        sink.written ++ (renderAll (pairs.map (·.2))).toUTF8 ∧
      pairs.map (·.1) = signatures ∧
      (∀ pair ∈ pairs, pair.1.pointerType ∈ map ∧
        map[pair.1.pointerType]? = some pair.2.member ∧
        pair.2 = pair.1.wrapper options pair.2.member) ∧
      (∀ pointerType, count pointerType = pointerTypes.count pointerType) ∧
      ((∀ pointerType ∈ pointerTypes, count pointerType = 1) ↔ pointerTypes.Nodup) := by
  intro map signatures pointerTypes pairs count
  obtain ⟨hmem, hwritten, -⟩ := bound_of_generate_ok hended
  have hfirst : pairs.map (·.1) = signatures := map_fst_wrapped options hmem
  have hcount : ∀ pointerType, count pointerType = pointerTypes.count pointerType := by
    intro pointerType
    have hpairs : pairs.map (·.1.pointerType) = pointerTypes := by
      have hboth := congrArg (List.map Signature.pointerType) hfirst
      rwa [List.map_map] at hboth
    rw [← hpairs, List.count, List.countP_map]
    rfl
  refine ⟨?_, hfirst, ?_, hcount, ?_⟩
  · rw [map_snd_wrapped]
    exact hwritten
  · intro pair hpair
    exact ⟨hmem pair.1 (mem_wrapped_iff.1 hpair).1, bound_of_mem_wrapped hpair⟩
  · simp only [hcount]
    exact List.nodup_iff_count_eq_one.symm

/-- A run on two functions with a pointer type each writes one wrapper for each pointer type. -/
theorem one_wrapper_per_sample_signature :
    let pairs := wrapped .standard (finalTable .standard sampleTable).value
      (Signature.ofDump sampleDump).value
    (generate .standard sampleTable sampleDump .unlimited).value.1 =
        .ok ⟨2, (finalTable .standard sampleTable).value.size, []⟩ ∧
      ∀ function ∈ sampleFunctions,
        pairs.countP (·.1.pointerType = function.entry.pointerType) = 1 := by
  intro pairs
  have hsignatures : (Signature.ofDump sampleDump).value = _ :=
    DeclaredFunction.value_ofDump_signatureDump sampleFunctions
  have hdistinct : ((Signature.ofDump sampleDump).value.map (·.pointerType)).Nodup := by
    rw [hsignatures]
    decide +kernel
  refine ⟨generate_sampleDump, fun function hfunction => ?_⟩
  have hsignature : function.signature ∈ (Signature.ofDump sampleDump).value := by
    rw [hsignatures]
    exact List.mem_map_of_mem hfunction
  obtain ⟨-, -, -, -, honce⟩ := one_wrapper_per_signature generate_sampleDump
  exact honce.2 hdistinct _ (List.mem_map.2 ⟨function.signature, hsignature, rfl⟩)

/-- Two signature dumps, one after the other, are the dump of the functions of both. -/
theorem DeclaredFunction.signatureDump_append (first second : List (DeclaredFunction options)) :
    signatureDump (first ++ second) = signatureDump first ++ signatureDump second := by
  rw [signatureDump, List.flatMap_append, ofLines_append, String.ofList_append]
  rfl

/-- A table with one function. -/
def destroyTable : String :=
  "pub PNVENCDESTROYENCODER: nvEncDestroyEncoder,\n"

/-- A signature dump that declares the function. -/
def destroyDump : String :=
  "pub type PNVENCDESTROYENCODER = ::std::option::Option<\n" ++
    "    unsafe extern \"C\" fn(\n" ++
    "        encoder: *mut ::std::os::raw::c_void,\n" ++
    "    ) -> NVENCSTATUS,\n" ++
    ">;\n"

/-- The function that both declare. -/
def destroyEncoder : DeclaredFunction .standard where
  pointerType := "PNVENCDESTROYENCODER".toList
  pointerType_isWord := by decide
  tokens := ["Destroy".toList, "Encoder".toList]
  tokens_ne_nil := by decide
  tokens_isToken := by decide
  parameters := []

/-- The dump twice over declares the function twice. -/
theorem destroyDump_append_self :
    destroyDump ++ destroyDump =
      DeclaredFunction.signatureDump [destroyEncoder, destroyEncoder] := by
  have hdump : destroyDump = DeclaredFunction.signatureDump [destroyEncoder] := by decide +kernel
  rw [hdump, ← DeclaredFunction.signatureDump_append]
  rfl

/-- The table binds the function to its member. -/
theorem getElem?_destroyTable : ∀ function ∈ [destroyEncoder, destroyEncoder],
    (finalTable .standard destroyTable).value[function.entry.pointerType]? =
      some function.entry.member := by
  have hentry : (finalTable .standard destroyTable).value[destroyEncoder.entry.pointerType]? =
      some destroyEncoder.entry.member := by decide +kernel
  simpa using hentry

/-- A run that reads an alias twice ends well and writes its wrapper twice. -/
theorem alias_declared_twice :
    let wrapper : Wrapper := ⟨"destroy_encoder", "nvEncDestroyEncoder", []⟩
    let run := (generate .standard destroyTable (destroyDump ++ destroyDump) .unlimited).value
    let pairs := wrapped .standard (finalTable .standard destroyTable).value
      (Signature.ofDump (destroyDump ++ destroyDump)).value
    run.1 = .ok ⟨2, 3, []⟩ ∧
      run.2.written = (renderAll [wrapper, wrapper]).toUTF8 ∧
      pairs.countP (·.1.pointerType = "PNVENCDESTROYENCODER") = 2 := by
  intro wrapper run pairs
  have hsize : (finalTable .standard destroyTable).value.size = 3 := by decide +kernel
  have hrun : run = _ := congrArg (fun dump => (generate .standard destroyTable dump _).value)
    destroyDump_append_self
  have hpairs : pairs = [destroyEncoder, destroyEncoder].map
      fun function => (function.signature, function.wrapper) := by
    show wrapped _ _ _ = _
    rw [destroyDump_append_self, DeclaredFunction.value_ofDump_signatureDump,
      wrapped_signatures getElem?_destroyTable]
  rw [value_generate_signatureDump .unlimited getElem?_destroyTable, hsize,
    if_pos (Sink.fits_unlimited _)] at hrun
  rw [hrun, hpairs]
  exact ⟨rfl, Sink.written_unlimited _, rfl⟩

end CallTable
