import CallTable.Generation

/-!
# What a run leaves in a sink

A run binds every signature before it writes anything, and then writes the wrappers piece by piece.
Where the room of a sink ends therefore does not depend on the pieces: the sink holds the first
bytes of the wrappers as `Wrapper.layout` spells them out, all of them if they fit. The main result,
`generate_all_or_prefix`, says this of whole runs, for every limit on the sink: a run that cannot
bind a signature writes nothing and names the first one, a run whose text fits reports what it did,
and any other run is refused after exactly as many bytes as the sink takes.
-/

namespace CallTable

/-- The wrapper of a signature, if the table has a member for its pointer type. -/
def Signature.boundWrapper? (options : Options) (map : MemberMap) (signature : Signature) :
    Option Wrapper :=
  map[signature.pointerType]?.map (signature.wrapper options)

/-- The wrappers of all signatures that have a member, in order. -/
def boundWrappers (options : Options) (map : MemberMap) (signatures : List Signature) :
    List Wrapper :=
  signatures.filterMap (·.boundWrapper? options map)

/-- A wrapper as it is laid out in the output, line by line. -/
def Wrapper.layout (wrapper : Wrapper) : List String :=
  ["#[inline(always)]",
    "pub(crate) unsafe fn " ++ wrapper.name ++ "(",
    "    &self,"] ++
  wrapper.parameters.map (fun parameter =>
    "    " ++ parameter.name ++ ": " ++ parameter.type ++ ",") ++
  [") -> Result<()> \x7b",
    "    let status = (self.functions." ++ wrapper.member ++ ".unwrap_unchecked())(",
    "        self.encoder_ptr.as_ptr(),"] ++
  wrapper.parameters.map (fun parameter => "        " ++ parameter.name ++ ",") ++
  ["    );",
    "    match NvEncError::from_nvenc_status(status) \x7b",
    "        None => Ok(()),",
    "        Some(err) => Err(err),",
    "    \x7d",
    "\x7d"]

/-- The texts of wrappers, one after the other. -/
def renderAll (wrappers : List Wrapper) : String :=
  String.join ((wrappers.flatMap Wrapper.layout).map (· ++ "\n"))

theorem Wrapper.lines_eq_layout (wrapper : Wrapper) : wrapper.lines = wrapper.layout :=
  rfl

theorem renderAll_nil : renderAll [] = "" :=
  rfl

/-- The text of the first wrapper stands before those of the others. -/
theorem renderAll_cons (wrapper : Wrapper) (wrappers : List Wrapper) :
    renderAll (wrapper :: wrappers) = wrapper.render ++ renderAll wrappers := by
  rw [renderAll, List.flatMap_cons, List.map_append, String.join_append, ← renderAll,
    Wrapper.render, wrapper.lines_eq_layout]

/-! ## Binding -/

variable {options : Options} {map : MemberMap}

/-- Binding a signature gives its wrapper, or names its pointer type. -/
theorem Signature.value_resolve (signature : Signature) :
    (signature.resolve options map).run.value =
      match signature.boundWrapper? options map with
      | some wrapper => .ok wrapper
      | none => .error (.unresolved signature.pointerType) := by
  unfold resolve boundWrapper?
  cases map[signature.pointerType]? with
  | none => rfl
  | some member =>
      simp only [Option.map_some]
      split <;> rfl

/-- Binding a signature gives a wrapper exactly if that is its bound wrapper. -/
theorem Signature.value_resolve_eq_ok_iff {signature : Signature} {wrapper : Wrapper} :
    (signature.resolve options map).run.value = .ok wrapper ↔
      signature.boundWrapper? options map = some wrapper := by
  rw [value_resolve]
  cases signature.boundWrapper? options map <;> simp

/-- The first signature decides about a failure before the others do. -/
theorem value_resolve_all_cons (signature : Signature) (signatures : List Signature) :
    (resolveAll options map (signature :: signatures)).run.value =
      match signature.boundWrapper? options map with
      | some wrapper => (resolveAll options map signatures).run.value.map (wrapper :: ·)
      | none => .error (.unresolved signature.pointerType) := by
  simp only [resolveAll, List.mapM_cons, ExceptT.run_bind, Logged.value_bind,
    Signature.value_resolve]
  cases signature.boundWrapper? options map with
  | none => rfl
  | some wrapper =>
      simp only [Logged.value_bind]
      cases (signatures.mapM (Signature.resolve options map)).run.value <;> rfl

/-- A pointer type of the table has a wrapper for every signature that names it. -/
theorem Signature.exists_bound_wrapper (options : Options) {signature : Signature}
    (h : signature.pointerType ∈ map) :
    ∃ wrapper, signature.boundWrapper? options map = some wrapper := by
  refine ⟨signature.wrapper options map[signature.pointerType], ?_⟩
  rw [boundWrapper?, Std.ExtTreeMap.getElem?_eq_some_getElem h, Option.map_some]

/-- If the table has a member for every signature, all of them are bound. -/
theorem value_resolve_all_of_forall_mem {signatures : List Signature}
    (h : ∀ signature ∈ signatures, signature.pointerType ∈ map) :
    (resolveAll options map signatures).run.value =
      .ok (boundWrappers options map signatures) := by
  induction signatures with
  | nil => rfl
  | cons signature signatures ih =>
      obtain ⟨wrapper, hwrapper⟩ :=
        Signature.exists_bound_wrapper options (h signature List.mem_cons_self)
      have hothers := ih fun other hother => h other (List.mem_cons_of_mem _ hother)
      rw [value_resolve_all_cons, hwrapper, hothers, boundWrappers, boundWrappers,
        List.filterMap_cons_some hwrapper]
      rfl

/-- The first signature without a member stops a run, whatever follows it. -/
theorem value_resolve_all_of_not_mem (options : Options) {before : List Signature}
    {first : Signature} (after : List Signature)
    (hbefore : ∀ signature ∈ before, signature.pointerType ∈ map)
    (hfirst : first.pointerType ∉ map) :
    (resolveAll options map (before ++ first :: after)).run.value =
      .error (.unresolved first.pointerType) := by
  induction before with
  | nil =>
      have hnone : first.boundWrapper? options map = none := by
        rw [Signature.boundWrapper?, Std.ExtTreeMap.getElem?_eq_none hfirst, Option.map_none]
      rw [List.nil_append, value_resolve_all_cons, hnone]
  | cons signature before ih =>
      obtain ⟨wrapper, hwrapper⟩ :=
        Signature.exists_bound_wrapper options (hbefore signature List.mem_cons_self)
      have hothers := ih fun other hother => hbefore other (List.mem_cons_of_mem _ hother)
      rw [List.cons_append, value_resolve_all_cons, hwrapper, hothers]
      rfl

/-- If all signatures are bound, then the wrappers are what each of them is bound to. -/
theorem map_bound_wrapper_of_resolve_all {signatures : List Signature} {wrappers : List Wrapper}
    (h : (resolveAll options map signatures).run.value = .ok wrappers) :
    signatures.map (·.boundWrapper? options map) = wrappers.map some := by
  induction signatures generalizing wrappers with
  | nil =>
      obtain rfl : [] = wrappers := Except.ok.inj h
      rfl
  | cons signature signatures ih =>
      rw [value_resolve_all_cons] at h
      cases hbound : signature.boundWrapper? options map with
      | none =>
          rw [hbound] at h
          cases h
      | some wrapper =>
          rw [hbound] at h
          cases hothers : (resolveAll options map signatures).run.value with
          | error failure =>
              rw [hothers] at h
              cases h
          | ok others =>
              rw [hothers] at h
              obtain rfl : wrapper :: others = wrappers := Except.ok.inj h
              rw [List.map_cons, List.map_cons, hbound, ih hothers]

/-- If all signatures are bound, then the table has a member for each of them. -/
theorem forall_mem_of_resolve_all {signatures : List Signature} {wrappers : List Wrapper}
    (h : (resolveAll options map signatures).run.value = .ok wrappers) :
    ∀ signature ∈ signatures, signature.pointerType ∈ map := by
  intro signature hsignature
  have hbound : signature.boundWrapper? options map ∈ wrappers.map some := by
    rw [← map_bound_wrapper_of_resolve_all h]
    exact List.mem_map_of_mem hsignature
  obtain ⟨wrapper, -, hwrapper⟩ := List.mem_map.1 hbound
  obtain ⟨member, hmember, -⟩ := Option.map_eq_some_iff.1 hwrapper.symm
  exact Std.ExtTreeMap.mem_iff_isSome_getElem?.2 (Option.isSome_of_eq_some hmember)

/-- As many wrappers are bound as there are signatures. -/
theorem length_bound_wrappers {signatures : List Signature}
    (h : ∀ signature ∈ signatures, signature.pointerType ∈ map) :
    (boundWrappers options map signatures).length = signatures.length := by
  induction signatures with
  | nil => rfl
  | cons signature signatures ih =>
      obtain ⟨wrapper, hwrapper⟩ :=
        Signature.exists_bound_wrapper options (h signature List.mem_cons_self)
      have hothers := ih fun other hother => h other (List.mem_cons_of_mem _ hother)
      rw [boundWrappers, List.filterMap_cons_some hwrapper, List.length_cons, List.length_cons]
      exact congrArg (· + 1) hothers

/-! ## Writing -/

/-- Wrappers written piece by piece leave what their whole text leaves, and the sink refuses a piece
exactly if it has no room for that text. -/
theorem value_write_wrappers (sink : Sink) (wrappers : List Wrapper) :
    (writeWrappers sink wrappers).value =
      (if sink.fits (renderAll wrappers) then .ok () else .error (.refused sink.refusal),
        sink.write (renderAll wrappers)) := by
  induction wrappers generalizing sink with
  | nil =>
      rw [renderAll_nil, Sink.fits_empty, Sink.write_empty]
      rfl
  | cons wrapper wrappers ih =>
      rw [renderAll_cons, Sink.fits_append, ← Sink.write_write]
      simp only [writeWrappers, Sink.writeAll_eq, Wrapper.join_pieces, Logged.value_bind]
      cases hfits : sink.fits wrapper.render with
      | true =>
          rw [if_pos rfl, ih, Bool.true_and, Sink.refusal_write]
      | false =>
          -- The sink was cut in this wrapper, and the run stops where the others would be lost.
          rw [if_neg Bool.false_ne_true, Bool.false_and, if_neg Bool.false_ne_true,
            Sink.write_write_of_not_fits hfits]
          rfl

/-! ## Runs -/

/-- The final table is the map of what the table dump holds and the corrections after it. -/
theorem value_finalTable (options : Options) (dump : String) :
    (finalTable options dump).value =
      MemberMap.ofEntries ((Entry.ofDump options.order options.memberPrefix dump).value ++
        options.corrections) := by
  have hfinal : (finalTable options dump).value =
      ((MemberMap.ofEntries (Entry.ofDump options.order options.memberPrefix dump).value).correctAll
        options.corrections).value := rfl
  rw [hfinal, MemberMap.value_correctAll, MemberMap.ofEntries_append]

/-- Writing starts only after every signature is bound, and it writes all bound wrappers. -/
theorem value_resolve_and_write (signatures : List Signature) (sink : Sink) :
    (resolveAndWrite options map signatures sink).value =
      match (resolveAll options map signatures).run.value with
      | .error failure => (.error failure, sink)
      | .ok wrappers =>
        (if sink.fits (renderAll wrappers) then .ok wrappers else .error (.refused sink.refusal),
          sink.write (renderAll wrappers)) := by
  simp only [resolveAndWrite, Logged.value_bind]
  cases (resolveAll options map signatures).run.value with
  | error failure => rfl
  | ok wrappers =>
      simp only [Logged.value_bind, Logged.value_pure, value_write_wrappers]
      split <;> rfl

/-- The outcome of a run is that of its last step on the two dumps as they were read. -/
theorem value_generate (options : Options) (tableDump signatureDump : String) (sink : Sink) :
    let map := (finalTable options tableDump).value
    let signatures := (Signature.ofDump signatureDump).value
    let written := (resolveAndWrite options map signatures sink).value
    (generate options tableDump signatureDump sink).value =
      (written.1.map fun wrappers => ⟨wrappers.length, map.size, droppedLines signatures⟩,
        written.2) := by
  simp only [generate, Logged.value_bind]
  split <;> rfl

/-- A run whose table knows every signature writes their wrappers as far as the sink takes them. It
ends well if the sink takes all of them. -/
theorem value_generate_of_forall_mem {options : Options} {tableDump signatureDump : String}
    (sink : Sink)
    (h : ∀ signature ∈ (Signature.ofDump signatureDump).value,
      signature.pointerType ∈ (finalTable options tableDump).value) :
    let map := (finalTable options tableDump).value
    let signatures := (Signature.ofDump signatureDump).value
    let wrappers := boundWrappers options map signatures
    (generate options tableDump signatureDump sink).value =
      (if sink.fits (renderAll wrappers) then
          .ok ⟨wrappers.length, map.size, droppedLines signatures⟩
        else .error (.refused sink.refusal),
        sink.write (renderAll wrappers)) := by
  intro map signatures wrappers
  rw [value_generate, value_resolve_and_write, value_resolve_all_of_forall_mem h]
  dsimp only
  split <;> rfl

/-- A run that ended well bound every signature, wrote the wrappers behind what the sink held, and
reports them. -/
theorem bound_of_generate_ok {options : Options} {tableDump signatureDump : String} {sink : Sink}
    {report : Report} (h : (generate options tableDump signatureDump sink).value.1 = .ok report) :
    let map := (finalTable options tableDump).value
    let signatures := (Signature.ofDump signatureDump).value
    let wrappers := boundWrappers options map signatures
    (∀ signature ∈ signatures, signature.pointerType ∈ map) ∧
      (generate options tableDump signatureDump sink).value.2.written =
        sink.written ++ (renderAll wrappers).toUTF8 ∧
      report = ⟨wrappers.length, map.size, droppedLines signatures⟩ := by
  intro map signatures wrappers
  have hmem : ∀ signature ∈ signatures, signature.pointerType ∈ map := by
    rw [value_generate, value_resolve_and_write] at h
    cases hresolved : (resolveAll options map signatures).run.value with
    | error failure =>
        rw [hresolved] at h
        cases h
    | ok resolved => exact forall_mem_of_resolve_all hresolved
  rw [value_generate_of_forall_mem sink hmem] at h ⊢
  by_cases hfits : sink.fits (renderAll wrappers) = true
  · rw [if_pos hfits] at h
    exact ⟨hmem, Sink.written_write_of_fits hfits, (Except.ok.inj h).symm⟩
  · -- If the text did not fit, the run was refused.
    rw [if_neg hfits] at h
    cases h

/-! ## The main result -/

/-- A sink with a limit holds the first bytes of what was written into it. -/
theorem Sink.written_limited (room : Nat) (refusal text : String) :
    ((limited room refusal).write text).written = text.toUTF8.extract 0 room := by
  simp [limited, write]

/-- A text fits into an empty sink exactly if its bytes are within the limit. -/
theorem Sink.fits_limited_iff {room : Nat} {refusal text : String} :
    (limited room refusal).fits text = true ↔ text.utf8ByteSize ≤ room := by
  simp [limited, fits]

/-- For every limit on the bytes of a sink: if the table lacks the pointer type of some signature,
a run names the first such signature and leaves the sink untouched. Otherwise, let the text be the
bound wrappers one after the other. If it fits, the run ends well, the sink holds exactly the text,
and the report counts the wrappers and the entries of the table and lists every line that a
signature drops under the pointer type of that signature, in order. If it does not fit, the run is
refused and the sink holds exactly the bytes of the text up to its limit. -/
theorem generate_all_or_prefix (options : Options) (tableDump signatureDump : String)
    (room : Nat) (refusal : String) :
    let map := (finalTable options tableDump).value
    let signatures := (Signature.ofDump signatureDump).value
    let text := renderAll (boundWrappers options map signatures)
    let dropped := signatures.flatMap fun signature =>
      signature.dropped.map fun line => DroppedLine.mk signature.pointerType line
    let run := (generate options tableDump signatureDump (.limited room refusal)).value
    (∀ before first after, signatures = before ++ first :: after →
      (∀ signature ∈ before, signature.pointerType ∈ map) → first.pointerType ∉ map →
      run = (.error (.unresolved first.pointerType), .limited room refusal)) ∧
    ((∀ signature ∈ signatures, signature.pointerType ∈ map) →
      (text.utf8ByteSize ≤ room →
        run.1 = .ok ⟨signatures.length, map.size, dropped⟩ ∧
        run.2.written = text.toUTF8) ∧
      (room < text.utf8ByteSize →
        run.1 = .error (.refused refusal) ∧
        run.2.written = text.toUTF8.extract 0 room)) := by
  intro map signatures text dropped run
  refine ⟨?_, ?_⟩
  · intro before first after hsplit hbefore hfirst
    have hfailure := value_resolve_all_of_not_mem options after hbefore hfirst
    rw [← hsplit] at hfailure
    have hrun : run = _ := value_generate options tableDump signatureDump (.limited room refusal)
    rw [hrun, value_resolve_and_write, hfailure]
    rfl
  · intro hmem
    have hrun : run = _ := value_generate_of_forall_mem (.limited room refusal) hmem
    refine ⟨?_, ?_⟩
    · intro hsize
      have hfits : (Sink.limited room refusal).fits text = true := Sink.fits_limited_iff.2 hsize
      have hwhole := Sink.written_write_of_fits hfits
      rw [Sink.limited, ByteArray.empty_append] at hwhole
      rw [hrun, ← length_bound_wrappers hmem, if_pos hfits]
      exact ⟨rfl, hwhole⟩
    · intro hsize
      have hfits : ¬ (Sink.limited room refusal).fits text = true :=
        fun hfits => absurd (Sink.fits_limited_iff.1 hfits) (Nat.not_le.2 hsize)
      rw [hrun, if_neg hfits]
      exact ⟨rfl, Sink.written_limited room refusal text⟩

end CallTable
