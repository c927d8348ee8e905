import CallTable.Proofs.Generation

/-!
# Repairing a run that cannot bind a pointer type

A run stops at the first signature whose pointer type the table lacks, and advises a correction for
it. A correction is written over the table, so the pointer type is bound from then on, whatever
member it was given, and nothing else changes: one pointer type less is unbound,
`length_unboundTypes_correct`. This is the measure of the loop `repairs`, in which the advice is
followed until no pointer type is left, and the main result, `repairs_end`, is about both.
-/

namespace CallTable

/-- The options with more corrections behind those that they have. -/
def Options.correct (options : Options) (added : List Entry) : Options :=
  { options with corrections := options.corrections ++ added }

theorem Options.correct_nil (options : Options) : options.correct [] = options := by
  rw [correct, List.append_nil]

theorem Options.correct_correct (options : Options) (first second : List Entry) :
    (options.correct first).correct second = options.correct (first ++ second) := by
  rw [correct, correct, correct, List.append_assoc]

/-- The pointer type for which a run found no member, if it failed for that reason. -/
def unboundType? (options : Options) (tableDump signatureDump : String) (sink : Sink) :
    Option String :=
  match (generate options tableDump signatureDump sink).value.1 with
  | .error (.unresolved pointerType) => some pointerType
  | _ => none

/-- The pointer types of the signatures in a dump, in order. -/
def signatureTypes (signatureDump : String) : List String :=
  (Signature.ofDump signatureDump).value.map (·.pointerType)

/-- The pointer types for which the final table has no member, each of them once. -/
def unboundTypes (options : Options) (tableDump signatureDump : String) : List String :=
  (signatureTypes signatureDump).dedup.filter (· ∉ (finalTable options tableDump).value)

variable {options : Options} {tableDump signatureDump : String} {sink : Sink}

/-! ## What a run fails with -/

/-- A run fails with the first pointer type that the final table lacks, whatever its sink takes. -/
theorem unboundType?_eq_find? (options : Options) (tableDump signatureDump : String)
    (sink : Sink) :
    unboundType? options tableDump signatureDump sink =
      (signatureTypes signatureDump).find? (· ∉ (finalTable options tableDump).value) := by
  rw [signatureTypes, List.find?_map]
  cases hfirst : (Signature.ofDump signatureDump).value.find? ((fun pointerType => decide
      (pointerType ∉ (finalTable options tableDump).value)) ∘ (·.pointerType)) with
  | none =>
      have hmem : ∀ signature ∈ (Signature.ofDump signatureDump).value,
          signature.pointerType ∈ (finalTable options tableDump).value := by
        simpa using hfirst
      rw [unboundType?, value_generate_of_forall_mem sink hmem]
      dsimp only
      cases sink.fits _ <;> rfl
  | some first =>
      obtain ⟨hnot, before, after, hsplit, hbefore⟩ := List.find?_eq_some_iff_append.1 hfirst
      have hfailure := value_resolve_all_of_not_mem options after (by simpa using hbefore)
        (by simpa using hnot)
      rw [unboundType?, value_generate, value_resolve_and_write, hsplit, hfailure]
      rfl

/-- The final table lacks the pointer type that a run fails with. -/
theorem not_mem_of_unboundType? {pointerType : String}
    (h : unboundType? options tableDump signatureDump sink = some pointerType) :
    pointerType ∉ (finalTable options tableDump).value := by
  rw [unboundType?_eq_find?] at h
  have hunbound := List.find?_some h
  exact of_decide_eq_true hunbound

/-- The pointer type that a run fails with is one of those that are unbound. -/
theorem mem_unboundTypes_of_unboundType? {pointerType : String}
    (h : unboundType? options tableDump signatureDump sink = some pointerType) :
    pointerType ∈ unboundTypes options tableDump signatureDump := by
  have hunbound := not_mem_of_unboundType? h
  rw [unboundType?_eq_find?] at h
  exact List.mem_filter.2
    ⟨List.mem_dedup.2 (List.mem_of_find?_eq_some h), decide_eq_true hunbound⟩

/-- If a run finds a member for all signatures, no pointer type is unbound. -/
theorem unboundTypes_of_unboundType?_eq_none
    (h : unboundType? options tableDump signatureDump sink = none) :
    unboundTypes options tableDump signatureDump = [] := by
  rw [unboundType?_eq_find?, List.find?_eq_none] at h
  exact List.filter_eq_nil_iff.2 fun pointerType hmem => h pointerType (List.mem_dedup.1 hmem)

/-! ## What a correction changes -/

/-- Corrections behind the others are written over the final table. -/
theorem value_finalTable_correct (options : Options) (tableDump : String) (added : List Entry) :
    (finalTable (options.correct added) tableDump).value =
      added.foldl MemberMap.write (finalTable options tableDump).value := by
  rw [value_finalTable, value_finalTable, Options.correct, ← List.append_assoc,
    MemberMap.ofEntries_append]

/-- A correction binds its pointer type and leaves every other one as it was. -/
theorem getElem?_finalTable_correct (options : Options) (tableDump : String) (correction : Entry)
    (pointerType : String) :
    (finalTable (options.correct [correction]) tableDump).value[pointerType]? =
      if correction.pointerType = pointerType then some correction.member
      else (finalTable options tableDump).value[pointerType]? := by
  rw [value_finalTable_correct]
  exact MemberMap.getElem?_write _ correction pointerType

/-- After a correction its pointer type is bound, and those that were. -/
theorem mem_finalTable_correct {correction : Entry} {pointerType : String} :
    pointerType ∈ (finalTable (options.correct [correction]) tableDump).value ↔
      pointerType = correction.pointerType ∨
        pointerType ∈ (finalTable options tableDump).value := by
  rw [Std.ExtTreeMap.mem_iff_isSome_getElem?, getElem?_finalTable_correct,
    Std.ExtTreeMap.mem_iff_isSome_getElem?, @eq_comm _ pointerType]
  split
  · next h => simp [h]
  · next h => simp [h]

/-- A correction takes its pointer type off those that are unbound. -/
theorem unboundTypes_correct (options : Options) (tableDump signatureDump : String)
    (correction : Entry) :
    unboundTypes (options.correct [correction]) tableDump signatureDump =
      (unboundTypes options tableDump signatureDump).erase correction.pointerType := by
  have hnodup : (unboundTypes options tableDump signatureDump).Nodup :=
    (List.nodup_dedup _).filter _
  rw [hnodup.erase_eq_filter, unboundTypes, unboundTypes, List.filter_filter]
  refine List.filter_congr fun pointerType _ => ?_
  rw [Bool.eq_iff_iff]
  simp [mem_finalTable_correct]

/-- A correction for the pointer type that a run fails with leaves one unbound type less. -/
theorem length_unboundTypes_correct {pointerType : String} (member : String)
    (h : unboundType? options tableDump signatureDump sink = some pointerType) :
    (unboundTypes (options.correct [⟨pointerType, member⟩]) tableDump signatureDump).length + 1 =
      (unboundTypes options tableDump signatureDump).length := by
  have hmem := mem_unboundTypes_of_unboundType? h
  rw [unboundTypes_correct, List.length_erase_of_mem hmem]
  exact Nat.sub_add_cancel (List.length_pos_of_mem hmem)

/-- After a correction for the pointer type that a run fails with, a run can only fail with one that
stands later. -/
theorem idxOf_lt_of_unboundType?_correct {pointerType later : String} {member : String}
    (h : unboundType? options tableDump signatureDump sink = some pointerType)
    (hlater : unboundType? (options.correct [⟨pointerType, member⟩]) tableDump signatureDump sink =
      some later) :
    later ≠ pointerType ∧ later ∈ signatureTypes signatureDump ∧
      (signatureTypes signatureDump).idxOf pointerType <
        (signatureTypes signatureDump).idxOf later := by
  have hpointerUnbound := not_mem_of_unboundType? h
  have hunbound := not_mem_of_unboundType? hlater
  rw [mem_finalTable_correct, not_or] at hunbound
  obtain ⟨hne, hlaterUnbound⟩ := hunbound
  rw [unboundType?_eq_find?] at h hlater
  have hmem := List.mem_of_find?_eq_some hlater
  refine ⟨hne, hmem, ?_⟩
  -- Everything before the pointer type was bound already, so the later one stands behind it.
  obtain ⟨-, before, after, hsplit, hbefore⟩ := List.find?_eq_some_iff_append.1 h
  have hbound : ∀ earlier ∈ before, earlier ∈ (finalTable options tableDump).value := by
    simpa using hbefore
  have hpointer : pointerType ∉ before := fun hin => hpointerUnbound (hbound _ hin)
  have hlater : later ∉ before := fun hin => hlaterUnbound (hbound _ hin)
  rw [hsplit, List.idxOf_append_of_notMem hpointer, List.idxOf_append_of_notMem hlater,
    List.idxOf_cons_self, List.idxOf_cons_ne _ (Ne.symm hne)]
  exact Nat.add_lt_add_left (Nat.succ_pos _) _

/-- A correction for an unbound pointer type changes no wrapper. -/
theorem value_resolve_correct {signature : Signature} {wrapper : Wrapper} {correction : Entry}
    (hunbound : correction.pointerType ∉ (finalTable options tableDump).value)
    (h : (signature.resolve options (finalTable options tableDump).value).run.value =
      .ok wrapper) :
    let repaired := options.correct [correction]
    (signature.resolve repaired (finalTable repaired tableDump).value).run.value =
      .ok wrapper := by
  intro repaired
  rw [Signature.value_resolve_eq_ok_iff, Signature.boundWrapper?] at h ⊢
  have hother : correction.pointerType ≠ signature.pointerType := by
    intro heq
    rw [← heq, Std.ExtTreeMap.getElem?_eq_none hunbound] at h
    cases h
  rw [getElem?_finalTable_correct, if_neg hother]
  exact h

/-! ## The loop -/

/-- The corrections that are made when the advice of one run after the other is followed, until a
run does not ask for one more. The member is chosen freely each time, also in view of everything
that was chosen before. The loop ends because each correction takes a pointer type off those that
are unbound. -/
def repairs (choose : Options → String → String) (tableDump signatureDump : String) (sink : Sink)
    (options : Options) : List Entry :=
  match _hrun : unboundType? options tableDump signatureDump sink with
  | none => []
  | some pointerType =>
    let correction : Entry := ⟨pointerType, choose options pointerType⟩
    correction :: repairs choose tableDump signatureDump sink (options.correct [correction])
termination_by (unboundTypes options tableDump signatureDump).length
decreasing_by
  exact Nat.lt_of_succ_le (Nat.le_of_eq (length_unboundTypes_correct _ _hrun))

section

variable (choose : Options → String → String) (tableDump signatureDump : String) (sink : Sink)
  (options : Options)

/-- After the loop a run finds a member for all signatures. -/
theorem unboundType?_repairs :
    unboundType? (options.correct (repairs choose tableDump signatureDump sink options)) tableDump
      signatureDump sink = none := by
  fun_induction repairs choose tableDump signatureDump sink options with
  | case1 options hrun => rwa [Options.correct_nil]
  | case2 options pointerType hrun correction ih => rwa [Options.correct_correct] at ih

/-- The loop makes one correction for each unbound pointer type. -/
theorem length_repairs :
    (repairs choose tableDump signatureDump sink options).length =
      (unboundTypes options tableDump signatureDump).length := by
  fun_induction repairs choose tableDump signatureDump sink options with
  | case1 options hrun =>
      rw [unboundTypes_of_unboundType?_eq_none hrun]
      rfl
  | case2 options pointerType hrun correction ih =>
      rw [List.length_cons, ih, length_unboundTypes_correct _ hrun]

/-- The loop changes no wrapper. -/
theorem value_resolve_repairs {signature : Signature} {wrapper : Wrapper}
    (h : (signature.resolve options (finalTable options tableDump).value).run.value =
      .ok wrapper) :
    let repaired := options.correct (repairs choose tableDump signatureDump sink options)
    (signature.resolve repaired (finalTable repaired tableDump).value).run.value =
      .ok wrapper := by
  fun_induction repairs choose tableDump signatureDump sink options with
  | case1 options hrun => rwa [Options.correct_nil]
  | case2 options pointerType hrun correction ih =>
      have hstep := ih (value_resolve_correct (not_mem_of_unboundType? hrun) h)
      rwa [Options.correct_correct] at hstep

end

/-! ## The main result -/

/-- Let a run fail because it finds no member for a pointer type. With a correction for that pointer
type, whatever its member is, no run fails with it again; if a run still finds no member for some
pointer type, then that one first stands behind the other in the signature dump; and a signature
that had a wrapper keeps it. So the advice can be followed until a run finds a member for all
signatures, with any choice of members: this takes one correction for each unbound pointer type, so
no more than there are pointer types in the signature dump, and a signature that had a wrapper
before the first correction has the same wrapper after the last. -/
theorem repairs_end (choose : Options → String → String) (tableDump signatureDump : String)
    (sink : Sink) (options : Options) :
    let unbound? := fun options => unboundType? options tableDump signatureDump sink
    let HasWrapper := fun (options : Options) (signature : Signature) (wrapper : Wrapper) =>
      (signature.resolve options (finalTable options tableDump).value).run.value = .ok wrapper
    let types := signatureTypes signatureDump
    (∀ pointerType member, unbound? options = some pointerType →
      let repaired := options.correct [⟨pointerType, member⟩]
      unbound? repaired ≠ some pointerType ∧
        (∀ later, unbound? repaired = some later →
          later ∈ types ∧ types.idxOf pointerType < types.idxOf later) ∧
        ∀ signature wrapper, HasWrapper options signature wrapper →
          HasWrapper repaired signature wrapper) ∧
      let added := repairs choose tableDump signatureDump sink options
      let repaired := options.correct added
      unbound? repaired = none ∧
        added.length = (unboundTypes options tableDump signatureDump).length ∧
        added.length ≤ types.dedup.length ∧
        ∀ signature wrapper, HasWrapper options signature wrapper →
          HasWrapper repaired signature wrapper := by
  intro unbound? HasWrapper types
  refine ⟨fun pointerType member hrun => ⟨?_, ?_, ?_⟩,
    unboundType?_repairs choose tableDump signatureDump sink options,
    length_repairs choose tableDump signatureDump sink options, ?_,
    fun signature wrapper => value_resolve_repairs choose tableDump signatureDump sink options⟩
  · exact fun hagain => (idxOf_lt_of_unboundType?_correct hrun hagain).1 rfl
  · exact fun later hlater => (idxOf_lt_of_unboundType?_correct hrun hlater).2
  · exact fun signature wrapper => value_resolve_correct (not_mem_of_unboundType? hrun)
  · rw [length_repairs]
    exact List.length_filter_le _ _

/-- The two sample functions, each declared twice, beside an empty table. The first correction is
for the first function, although its member does not start like others, and the second for the
other. -/
theorem repairs_end_sample_functions :
    let dump := DeclaredFunction.signatureDump (sampleFunctions ++ sampleFunctions)
    let unbound? := fun options => unboundType? options "" dump .unlimited
    let repaired := Options.standard.correct [⟨"PNVENCGETENCODEGUIDCOUNT", "count"⟩]
    let types := signatureTypes dump
    unbound? .standard = some "PNVENCGETENCODEGUIDCOUNT" ∧
      unbound? repaired = some "PNVENCDESTROYBUFFER" ∧
      types.idxOf "PNVENCGETENCODEGUIDCOUNT" < types.idxOf "PNVENCDESTROYBUFFER" ∧
      ∀ choose, (repairs choose "" dump .unlimited .standard).length ≤ 2 := by
  intro dump unbound? repaired types
  have htypes : types = (sampleFunctions ++ sampleFunctions).map (·.entry.pointerType) := by
    show List.map _ (Signature.ofDump dump).value = _
    rw [DeclaredFunction.value_ofDump_signatureDump, List.map_map]
    rfl
  have hrun : ∀ options, unbound? options = types.find? (· ∉ (finalTable options "").value) :=
    fun options => unboundType?_eq_find? options "" dump .unlimited
  have hfirst : unbound? .standard = some "PNVENCGETENCODEGUIDCOUNT" := by
    rw [hrun, htypes]
    decide +kernel
  have hsecond : unbound? repaired = some "PNVENCDESTROYBUFFER" := by
    rw [hrun, htypes]
    decide +kernel
  have hdistinct : types.dedup.length = 2 := by
    rw [htypes]
    decide +kernel
  have hfails := (repairs_end (fun _ _ => "") "" dump .unlimited .standard).1
  obtain ⟨-, hlater, -⟩ := hfails "PNVENCGETENCODEGUIDCOUNT" "count" hfirst
  refine ⟨hfirst, hsecond, (hlater "PNVENCDESTROYBUFFER" hsecond).2, fun choose => ?_⟩
  rw [← hdistinct]
  exact (repairs_end choose "" dump .unlimited .standard).2.2.2.1

end CallTable
