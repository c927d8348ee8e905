import CallTable.Proofs.Generation
import CallTable.Proofs.Wrapper.Lined
import CallTable.Proofs.Wrapper.Reading

/-!
# The output tells the wrappers

A run writes wrappers as text, and the text says which wrappers they were. None of their names and
types holds a line feed, so cutting the output into lines gives back the lines that were written,
and these can be read back. The main result, `CompletedRun.output_determines_wrappers`, says so of
every run that ended well, whatever its dumps and options are: two such runs have the same output
exactly if they made the same wrappers.
-/

namespace CallTable

open Text

/-- The lines of an output, without the line feeds between them. -/
def outputLines? (output : ByteArray) : Option (List String) :=
  (String.fromUTF8? output).map fun text => (Text.lines text.toList).map String.ofList

/-- Reads the wrappers of an output line by line. -/
def Wrapper.ofOutput? (output : ByteArray) : Option (List Wrapper) :=
  outputLines? output >>= readAll?

/-! ## The lines of a wrapper -/

namespace Wrapper

/-- The declarations stand behind the third line. -/
theorem take_drop_lines (wrapper : Wrapper) :
    (wrapper.lines.drop 3).take wrapper.parameters.length =
      wrapper.parameters.map declaration := by
  have hlines : wrapper.lines = wrapper.opening ++ (wrapper.parameters.map declaration ++
      (wrapper.call ++ wrapper.parameters.map argument ++ closing)) := by
    simp [lines]
  have hopening : wrapper.opening.length = 3 := rfl
  rw [hlines, List.drop_left' hopening, List.take_left' (List.length_map _)]

/-- Behind the call, the arguments and the end of the method are left. -/
theorem drop_lines (wrapper : Wrapper) :
    wrapper.lines.drop (6 + wrapper.parameters.length) =
      wrapper.parameters.map argument ++ closing := by
  have hlength : (wrapper.opening ++ wrapper.parameters.map declaration ++ wrapper.call).length =
      6 + wrapper.parameters.length := by
    simp [opening, call]
    omega
  rw [lines, List.append_assoc, List.drop_left' hlength]

end Wrapper

/-! ## Cutting an output into lines -/

namespace Wrapper

/-- A wrapper without line feeds in its names and types takes exactly its lines. -/
theorem IsLined.feed_not_mem_lines {wrapper : Wrapper} (h : wrapper.IsLined) :
    ∀ line ∈ wrapper.lines, '\n' ∉ line.toList := by
  have hdeclaration : ∀ parameter ∈ wrapper.parameters,
      '\n' ∉ (declaration parameter).toList := by
    intro parameter hparameter
    have hlined := h.parameters parameter hparameter
    simp [declaration, hlined.name, hlined.type]
  have hargument : ∀ parameter ∈ wrapper.parameters, '\n' ∉ (argument parameter).toList := by
    intro parameter hparameter
    simp [argument, (h.parameters parameter hparameter).name]
  have hopening : ∀ line ∈ wrapper.opening, '\n' ∉ line.toList := by
    simp [opening, h.name]
  have hcall : ∀ line ∈ wrapper.call, '\n' ∉ line.toList := by
    simp [call, h.member]
  have hclosing : ∀ line ∈ closing, '\n' ∉ line.toList := by
    decide
  simp only [lines, List.forall_mem_append, List.forall_mem_map]
  exact ⟨⟨⟨⟨hopening, hdeclaration⟩, hcall⟩, hargument⟩, hclosing⟩

end Wrapper

/-- Ended lines in a row are the text of the lines. -/
theorem toList_join_lines (lines : List String) :
    (String.join (lines.map (· ++ "\n"))).toList = ofLines (lines.map String.toList) := by
  induction lines with
  | nil => rfl
  | cons line lines ih =>
      rw [List.map_cons, String.join_cons, String.toList_append, ih, List.map_cons, ofLines_cons]
      simp

/-- The text of wrappers is the text of their lines. -/
theorem toList_renderAll (wrappers : List Wrapper) :
    (renderAll wrappers).toList = ofLines ((wrappers.flatMap Wrapper.lines).map String.toList) := by
  rw [renderAll, toList_join_lines, ← funext Wrapper.lines_eq_layout]

/-- The output of wrappers without line feeds in their names and types is cut into their lines. -/
theorem outputLines?_renderAll {wrappers : List Wrapper}
    (h : ∀ wrapper ∈ wrappers, wrapper.IsLined) :
    outputLines? (renderAll wrappers).toUTF8 = some (wrappers.flatMap Wrapper.lines ++ [""]) := by
  have hlines : ∀ line ∈ (wrappers.flatMap Wrapper.lines).map String.toList, '\n' ∉ line := by
    rw [List.forall_mem_map]
    intro line hline
    obtain ⟨wrapper, hwrapper, hline⟩ := List.mem_flatMap.1 hline
    exact (h wrapper hwrapper).feed_not_mem_lines line hline
  have hcut := lines_ofLines_append hlines []
  rw [List.append_nil, ← toList_renderAll] at hcut
  have hback : String.ofList ∘ String.toList = id := funext fun line => String.ofList_toList
  rw [outputLines?, fromUTF8?_toUTF8, Option.map_some, hcut, List.map_append, List.map_map, hback,
    List.map_id]
  rfl

/-! ## Runs -/

/-- A run that ended well: what it was told, the two dumps, how much the empty sink takes and why it
would refuse more, and the report that the run ended with. -/
structure CompletedRun where
  options : Options
  tableDump : String
  signatureDump : String
  room : Option Nat
  refusal : String
  report : Report
  options_isLined : options.IsLined
  ended : (generate options tableDump signatureDump ⟨.empty, room, refusal⟩).value.1 = .ok report

namespace CompletedRun

/-- The bytes that the run wrote. -/
def output (run : CompletedRun) : ByteArray :=
  (generate run.options run.tableDump run.signatureDump
    ⟨.empty, run.room, run.refusal⟩).value.2.written

/-- The signatures that the run read. -/
def signatures (run : CompletedRun) : List Signature :=
  (Signature.ofDump run.signatureDump).value

/-- What the run resolved its signatures to. -/
def resolved (run : CompletedRun) : Except GenerationError (List Wrapper) :=
  (resolveAll run.options (finalTable run.options run.tableDump).value run.signatures).run.value

/-- The run resolved all signatures, and it wrote the text of the wrappers. -/
theorem exists_wrappers (run : CompletedRun) :
    ∃ wrappers, run.resolved = .ok wrappers ∧ run.output = (renderAll wrappers).toUTF8 := by
  obtain ⟨hmem, hwritten, -⟩ := bound_of_generate_ok run.ended
  refine ⟨_, value_resolve_all_of_forall_mem hmem, ?_⟩
  rwa [ByteArray.empty_append] at hwritten

/-- The parameters of the wrappers are those of the signatures, respelled and qualified. -/
theorem map_parameters_of_resolved {run : CompletedRun} {wrappers : List Wrapper}
    (h : run.resolved = .ok wrappers) :
    wrappers.map (·.parameters) =
      run.signatures.map fun signature => signature.parameters.map (·.adapt run.options) := by
  have hbound := map_bound_wrapper_of_resolve_all h
  clear h
  generalize run.signatures = signatures at hbound ⊢
  induction signatures generalizing wrappers with
  | nil => rw [List.map_eq_nil_iff.1 hbound.symm, List.map_nil, List.map_nil]
  | cons signature signatures ih =>
      obtain ⟨wrapper, others, rfl, hwrapper, hothers⟩ := List.map_eq_cons_iff.1 hbound.symm
      obtain ⟨member, -, rfl⟩ := Option.map_eq_some_iff.1 hwrapper.symm
      rw [List.map_cons, List.map_cons, ih hothers.symm]
      rfl

/-- The lines of the output are those of the wrappers. -/
theorem outputLines?_output {run : CompletedRun} {wrappers : List Wrapper}
    (h : run.resolved = .ok wrappers) :
    outputLines? run.output = some (wrappers.flatMap Wrapper.lines ++ [""]) := by
  obtain ⟨written, hwritten, houtput⟩ := run.exists_wrappers
  obtain rfl : written = wrappers := Except.ok.inj (hwritten.symm.trans h)
  rw [houtput, outputLines?_renderAll (isLined_of_resolved run.options_isLined h)]

/-- Reading the output gives the wrappers back. -/
theorem ofOutput?_output {run : CompletedRun} {wrappers : List Wrapper}
    (h : run.resolved = .ok wrappers) : Wrapper.ofOutput? run.output = some wrappers := by
  rw [Wrapper.ofOutput?, outputLines?_output h]
  exact Wrapper.readAll?_eq_some_iff.2 rfl

/-- Two runs have the same output exactly if they made the same wrappers. -/
theorem output_eq_iff (other run : CompletedRun) :
    other.output = run.output ↔ other.resolved = run.resolved := by
  obtain ⟨otherWrappers, hother, hotherOutput⟩ := other.exists_wrappers
  obtain ⟨wrappers, hrun, houtput⟩ := run.exists_wrappers
  constructor
  · intro h
    have hread := ofOutput?_output hother
    rw [h, ofOutput?_output hrun] at hread
    rw [hother, hrun, Option.some.inj hread]
  · intro h
    rw [hother, hrun] at h
    rw [hotherOutput, houtput, Except.ok.inj h]

end CompletedRun

/-- The output of a run that ended well tells the wrappers that the run made of its signatures.
Reading the output line by line gives the wrappers back. Its lines are those of the wrappers, one
after the other: each takes twelve lines and two for each parameter, with the declarations behind
the third line and behind the call one argument for each of them, in the same order and under the
same name. So any other run that ended well has the same output exactly if it made the same
wrappers. -/
theorem CompletedRun.output_determines_wrappers (run : CompletedRun) :
    ∃ wrappers, run.resolved = .ok wrappers ∧
      Wrapper.ofOutput? run.output = some wrappers ∧
      outputLines? run.output = some (wrappers.flatMap Wrapper.lines ++ [""]) ∧
      (∀ wrapper ∈ wrappers,
        let count := wrapper.parameters.length
        wrapper.lines.length = 12 + 2 * count ∧
          (wrapper.lines.drop 3).take count = wrapper.parameters.map Wrapper.declaration ∧
          wrapper.lines.drop (6 + count) =
            wrapper.parameters.map Wrapper.argument ++ Wrapper.closing) ∧
      (wrappers.map (·.parameters) =
        run.signatures.map fun signature => signature.parameters.map (·.adapt run.options)) ∧
      ∀ other : CompletedRun, other.output = run.output ↔ other.resolved = run.resolved := by
  obtain ⟨wrappers, hresolved, -⟩ := run.exists_wrappers
  exact ⟨wrappers, hresolved, ofOutput?_output hresolved, outputLines?_output hresolved,
    fun wrapper _ => ⟨wrapper.length_lines, wrapper.take_drop_lines, wrapper.drop_lines⟩,
    map_parameters_of_resolved hresolved, fun other => other.output_eq_iff run⟩

/-- A run whose table has a member for every signature ends well, if its sink has no limit. -/
def CompletedRun.ofMembers (options : Options) (options_isLined : options.IsLined)
    (tableDump signatureDump : String)
    (bound : ∀ signature ∈ (Signature.ofDump signatureDump).value,
      signature.pointerType ∈ (finalTable options tableDump).value) : CompletedRun where
  options := options
  tableDump := tableDump
  signatureDump := signatureDump
  room := none
  refusal := ""
  report :=
    let signatures := (Signature.ofDump signatureDump).value
    ⟨signatures.length, (finalTable options tableDump).value.size, droppedLines signatures⟩
  options_isLined := options_isLined
  ended := by
    rw [value_generate_of_forall_mem _ bound, length_bound_wrappers bound]
    rfl

/-- The run on the dumps of two functions. -/
def sampleRun : CompletedRun :=
  .ofMembers .standard ⟨by decide, by decide⟩ _ _
    (pointerType_mem_finalTable (List.all_eq_true.1 (by decide)) sampleFunctions)

/-- The output of the run on two functions is read back as two wrappers with a parameter each. -/
theorem sampleRun_output :
    ∃ wrappers, sampleRun.resolved = .ok wrappers ∧
      Wrapper.ofOutput? sampleRun.output = some wrappers ∧
      wrappers.map (·.parameters) =
        [[⟨"encode_guid_count", "*mut u32"⟩], [⟨"buffer", "*mut crate::sys::NV_ENC_BUFFER"⟩]] := by
  obtain ⟨wrappers, hresolved, hread, -, -, hparameters, -⟩ := sampleRun.output_determines_wrappers
  have hsignatures : sampleRun.signatures = sampleFunctions.map DeclaredFunction.signature :=
    DeclaredFunction.value_ofDump_signatureDump sampleFunctions
  refine ⟨wrappers, hresolved, hread, ?_⟩
  rw [hparameters, hsignatures]
  decide +kernel

end CallTable
