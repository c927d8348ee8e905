import CallTable.Proofs.Emission
import CallTable.Proofs.Log
import CallTable.Proofs.Signature.LinePosition

/-!
# Every line is kept or reported

The lines of a parameter list are sorted: each one is split into a parameter or dropped, and none is
both. A dropped line is reported in the log at once, so the log of a run tells the dropped lines of
its report. `signature_sorts_lines` states both, with the rule by which a line is split.
-/

namespace CallTable

open Text

/-- Lines sorted into parameters and dropped lines. Each line goes to one of the two, and both keep
the order of the lines. -/
inductive Sorted : List (List Char) → List Parameter → List String → Prop where
  | nil : Sorted [] [] []
  | kept {line : List Char} {lines : List (List Char)} {parameter : Parameter}
      {parameters : List Parameter} {dropped : List String} (isSplit : SplitAt line parameter) :
      Sorted lines parameters dropped → Sorted (line :: lines) (parameter :: parameters) dropped
  | dropped {line : List Char} {lines : List (List Char)} {parameters : List Parameter}
      {dropped : List String} (isWhole : ∀ parameter, ¬ SplitAt line parameter) :
      Sorted lines parameters dropped →
      Sorted (line :: lines) parameters (String.ofList line :: dropped)

/-- Reading lines sorts them. -/
theorem sorted_filter (lines : List (List Char)) :
    Sorted lines (lines.filterMap Parameter.ofLine?)
      ((lines.filter (Parameter.ofLine? · |>.isNone)).map String.ofList) := by
  induction lines with
  | nil => exact .nil
  | cons line lines ih =>
    cases hread : Parameter.ofLine? line with
    | some parameter =>
      rw [List.filterMap_cons_some hread, List.filter_cons_of_neg (by simp [hread])]
      exact .kept (Parameter.ofLine?_iff_splitAt.1 hread) ih
    | none =>
      rw [List.filterMap_cons_none hread, List.filter_cons_of_pos (by simp [hread]), List.map_cons]
      refine .dropped (fun parameter hsplit => ?_) ih
      rw [Parameter.ofLine?_iff_splitAt.2 hsplit] at hread
      cases hread

/-! ## Dropped lines in the log -/

/-- The dropped line that an event reports. -/
def Event.droppedLine? : Event → Option DroppedLine
  | .lineDropped pointerType line => some ⟨pointerType, line⟩
  | _ => none

/-- The dropped lines that the log of a computation reports, in order. -/
def Logged.dropped {α : Type} (computation : Logged α) : List DroppedLine :=
  computation.events.filterMap Event.droppedLine?

namespace Logged

variable {α β : Type}

@[simp] theorem dropped_bind (computation : Logged α) (next : α → Logged β) :
    (computation >>= next).dropped = computation.dropped ++ (next computation.value).dropped :=
  List.filterMap_append

@[simp] theorem dropped_map (f : α → β) (computation : Logged α) :
    (f <$> computation).dropped = computation.dropped :=
  congrArg (List.filterMap Event.droppedLine?) (List.append_nil computation.events)

@[simp] theorem dropped_report (event : Event) :
    (report event).dropped = event.droppedLine?.toList := by
  rw [dropped, events_report, List.filterMap_cons]
  cases event.droppedLine? <;> rfl

end Logged

/-- Details are not about dropped lines. -/
theorem Logged.ReportsOnly.dropped_eq_nil {α : Type} {computation : Logged α}
    (h : computation.ReportsOnly Event.IsDetail) : computation.dropped = [] := by
  refine List.filterMap_eq_nil_iff.2 fun event hevent => ?_
  have hdetail := h event hevent
  cases event with
  | lineDropped pointerType line => cases hdetail
  | _ => rfl

/-- Binding signatures reports no dropped line. -/
theorem dropped_resolveAll (options : Options) (map : MemberMap) (signatures : List Signature) :
    (resolveAll options map signatures).run.dropped = [] := by
  refine List.filterMap_eq_nil_iff.2 fun event hevent => ?_
  obtain ⟨_, _, -, -, rfl⟩ := foreign_resolveAll options map signatures event hevent
  rfl

/-- Binding signatures and writing their wrappers reports no dropped line. -/
theorem dropped_resolveAndWrite (options : Options) (map : MemberMap)
    (signatures : List Signature) (sink : Sink) :
    (resolveAndWrite options map signatures sink).dropped = [] := by
  rw [resolveAndWrite, Logged.dropped_bind, dropped_resolveAll, List.nil_append]
  split
  · rfl
  · rw [Logged.dropped_bind, (details_writeWrappers _ _).dropped_eq_nil]
    rfl

/-- Each signature reports the lines that it leaves out. -/
theorem dropped_ofDump (dump : String) :
    (Signature.ofDump dump).dropped = droppedLines (Signature.ofDump dump).value := by
  have hevents : ∀ signature : Signature, signature.events.filterMap Event.droppedLine? =
      signature.dropped.map (⟨signature.pointerType, ·⟩) := by
    intro signature
    rw [Signature.events, List.filterMap_map, ← List.filterMap_eq_map]
    rfl
  rw [Logged.dropped, Signature.ofDump, List.filterMap_flatMap, droppedLines]
  exact congrArg (List.flatMap · _) (funext hevents)

/-- The log of a run reports the lines that its signatures leave out, whether or not the run ends
well. -/
theorem dropped_generate (options : Options) (tableDump signatureDump : String) (sink : Sink) :
    (generate options tableDump signatureDump sink).dropped =
      droppedLines (Signature.ofDump signatureDump).value := by
  rw [generate, Logged.dropped_bind, (details_finalTable _ _).dropped_eq_nil, List.nil_append,
    Logged.dropped_bind, dropped_ofDump, Logged.dropped_bind, Logged.dropped_report]
  dsimp only
  split <;> simp [dropped_resolveAndWrite, Event.droppedLine?]

/-- A run that ends well lists in its report the lines that its signatures leave out. -/
theorem dropped_of_value_generate {options : Options} {tableDump signatureDump : String}
    {sink : Sink} {report : Report}
    (h : (generate options tableDump signatureDump sink).value.1 = .ok report) :
    report.dropped = droppedLines (Signature.ofDump signatureDump).value := by
  rw [value_generate] at h
  cases hwritten : (resolveAndWrite options (finalTable options tableDump).value
      (Signature.ofDump signatureDump).value sink).value.1 with
  | error failure =>
    rw [hwritten] at h
    cases h
  | ok wrappers =>
    rw [hwritten] at h
    obtain rfl := Except.ok.inj h
    rfl

/-! ## The main result -/

/-- The lines of a parameter list are those that are not blank, without the blanks around them. They
are sorted into the parameters and the dropped lines of the signature, which reports each dropped
line with its pointer type in a warning, in order. A line is split exactly if it has a run of at
least two visible characters that ends in a colon and stands before a blank, and if its last comma
stands at least two characters behind the end of the first such run. The dropped lines that the log
of a run tells are those of its report. -/
theorem signature_sorts_lines (pointerType : String) (body : List Char) :
    let block : AliasBlock := ⟨pointerType.toList, body⟩
    let signature := block.signature
    signature.pointerType = pointerType ∧
    Sorted (((Text.lines body).map trim).filter (· ≠ [])) signature.parameters signature.dropped ∧
    signature.events = signature.dropped.map (.lineDropped pointerType ·) ∧
    (∀ event ∈ signature.events, event.level = .warn) ∧
    (∀ line, (∃ parameter, SplitAt line parameter) ↔
      ∃ start stop last, FirstLabelAt line start stop ∧ LastCommaAt line last ∧ stop + 2 ≤ last) ∧
    (∀ line first second, SplitAt line first → SplitAt line second → first = second) ∧
    ∀ (options : Options) (tableDump signatureDump : String) (sink : Sink) (report : Report),
      (generate options tableDump signatureDump sink).value.1 = .ok report →
        (generate options tableDump signatureDump sink).dropped = report.dropped := by
  intro block signature
  have hname : signature.pointerType = pointerType := String.ofList_toList
  refine ⟨hname, sorted_filter _, ?_, ?_, ?_, ?_, ?_⟩
  · rw [Signature.events, hname]
  · intro event hevent
    obtain ⟨line, -, rfl⟩ := List.mem_map.1 hevent
    rfl
  · intro line
    simp only [← Parameter.ofLine?_iff_splitAt, ← Option.isSome_iff_exists]
    exact Parameter.isSome_ofLine?_iff
  · intro line first second hfirst hsecond
    rw [← Parameter.ofLine?_iff_splitAt] at hfirst hsecond
    exact Option.some.inj (hfirst.symm.trans hsecond)
  · intro options tableDump signatureDump sink report hended
    rw [dropped_generate, dropped_of_value_generate hended]

end CallTable
