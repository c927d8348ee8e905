import CallTable.Generation

/-!
# What a run reports

Reading and correcting a table and writing wrappers reports details, which help only when a run is
looked into. A run warns of the lines that its signatures leave out, of a dump without signatures,
and of foreign members, which the final table holds although they lack the common start of all
members; `reports_generate` says that there are no other warnings.
-/

namespace CallTable

namespace Logged

variable {α β : Type}

/-- All events that a computation reports are allowed. -/
def ReportsOnly (computation : Logged α) (allowed : Event → Prop) : Prop :=
  ∀ event ∈ computation.events, allowed event

namespace ReportsOnly

variable {computation : Logged α} {allowed further : Event → Prop}

theorem pure (value : α) : (Pure.pure value : Logged α).ReportsOnly allowed := by
  intro event hevent
  cases hevent

theorem bind {next : α → Logged β} (h : computation.ReportsOnly allowed)
    (hnext : (next computation.value).ReportsOnly allowed) :
    (computation >>= next).ReportsOnly allowed := by
  intro event hevent
  rcases List.mem_append.1 hevent with hevent | hevent
  · exact h event hevent
  · exact hnext event hevent

theorem report {event : Event} (h : allowed event) :
    (Logged.report event).ReportsOnly allowed := by
  intro other hother
  rwa [List.mem_singleton.1 hother]

theorem imp (h : computation.ReportsOnly allowed)
    (hallowed : ∀ event, allowed event → further event) : computation.ReportsOnly further :=
  fun event hevent => hallowed event (h event hevent)

end ReportsOnly

end Logged

/-! ## Details -/

/-- The event helps only when a run is looked into. -/
def Event.IsDetail (event : Event) : Prop :=
  event.level = .debug

theorem MemberMap.details_correctAll (map : MemberMap) (corrections : List Entry) :
    (map.correctAll corrections).ReportsOnly Event.IsDetail := by
  induction corrections generalizing map with
  | nil => exact .pure map
  | cons correction corrections ih =>
      have hfirst : (map.correct correction).ReportsOnly Event.IsDetail := by
        intro event hevent
        rw [correct, correctionEvents] at hevent
        split at hevent
        · obtain rfl := List.mem_singleton.1 hevent
          rfl
        · split at hevent
          · cases hevent
          · obtain rfl := List.mem_singleton.1 hevent
            rfl
      exact hfirst.bind (ih _)

theorem details_finalTable (options : Options) (dump : String) :
    (finalTable options dump).ReportsOnly Event.IsDetail := by
  have hentries : (Entry.ofDump options.order options.memberPrefix dump).ReportsOnly
      Event.IsDetail := by
    intro event hevent
    obtain ⟨declaration, -, rfl⟩ := List.mem_map.1 hevent
    rfl
  have hread : (MemberMap.ofDump options.order options.memberPrefix dump).ReportsOnly
      Event.IsDetail := hentries.bind (.bind (.report rfl) (.pure _))
  exact hread.bind (MemberMap.details_correctAll _ options.corrections)

theorem details_writeWrappers (sink : Sink) (wrappers : List Wrapper) :
    (writeWrappers sink wrappers).ReportsOnly Event.IsDetail := by
  induction wrappers generalizing sink with
  | nil => exact .pure _
  | cons wrapper wrappers ih =>
      refine .bind (.report rfl) ?_
      dsimp only
      split
      · exact ih _
      · exact .pure _

/-! ## Warnings -/

/-- The event reports a member of the map that lacks the common start of all members. -/
def Event.IsForeign (options : Options) (map : MemberMap) (event : Event) : Prop :=
  ∃ pointerType member, map[pointerType]? = some member ∧
    ¬ options.memberPrefix.toList <+: member.toList ∧
    event = .memberForeign pointerType member options.memberPrefix

/-- Binding a signature reports nothing, or that its member is foreign. -/
theorem Signature.foreign_resolve (options : Options) (map : MemberMap) (signature : Signature) :
    (signature.resolve options map).run.ReportsOnly (Event.IsForeign options map) := by
  intro event hevent
  rw [resolve] at hevent
  cases hmember : map[signature.pointerType]? with
  | none =>
      rw [hmember] at hevent
      cases hevent
  | some member =>
      rw [hmember] at hevent
      dsimp only at hevent
      split at hevent
      · next hforeign =>
          refine ⟨signature.pointerType, member, hmember, fun hstart => ?_,
            List.mem_singleton.1 hevent⟩
          rw [List.isPrefixOf_iff_prefix.2 hstart] at hforeign
          cases hforeign
      · cases hevent

theorem foreign_resolveAll (options : Options) (map : MemberMap) (signatures : List Signature) :
    (resolveAll options map signatures).run.ReportsOnly (Event.IsForeign options map) := by
  induction signatures with
  | nil => exact .pure _
  | cons signature signatures ih =>
      rw [resolveAll, List.mapM_cons, ExceptT.run_bind]
      refine (signature.foreign_resolve options map).bind ?_
      cases (signature.resolve options map).run.value with
      | error failure => exact .pure _
      | ok wrapper =>
          dsimp only
          rw [ExceptT.run_bind]
          refine ih.bind ?_
          cases (resolveAll options map signatures).run.value <;> exact .pure _

/-- What a run may report about its table and its signatures. -/
inductive Event.IsAbout (options : Options) (map : MemberMap) (signatures : List Signature) :
    Event → Prop where
  | detail {event : Event} : event.IsDetail → IsAbout options map signatures event
  | dropped {signature : Signature} {event : Event} :
      signature ∈ signatures → event ∈ signature.events → IsAbout options map signatures event
  | noCandidates : signatures = [] → IsAbout options map signatures .noCandidates
  | foreign {event : Event} : event.IsForeign options map → IsAbout options map signatures event

theorem reports_resolveAndWrite (options : Options) (map : MemberMap) (signatures : List Signature)
    (sink : Sink) : (resolveAndWrite options map signatures sink).ReportsOnly
      (Event.IsAbout options map signatures) := by
  refine ((foreign_resolveAll options map signatures).imp fun _ => .foreign).bind ?_
  cases (resolveAll options map signatures).run.value with
  | error failure => exact .pure _
  | ok wrappers => exact ((details_writeWrappers sink wrappers).imp fun _ => .detail).bind (.pure _)

/-- A run warns of nothing but the lines that its signatures leave out, that there are none, and
foreign members of the final table. -/
theorem reports_generate (options : Options) (tableDump signatureDump : String) (sink : Sink) :
    (generate options tableDump signatureDump sink).ReportsOnly
      (Event.IsAbout options (finalTable options tableDump).value
        (Signature.ofDump signatureDump).value) := by
  refine ((details_finalTable options tableDump).imp fun _ => .detail).bind ?_
  refine Logged.ReportsOnly.bind (fun event hevent => ?_) ?_
  · obtain ⟨signature, hsignature, hevent⟩ := List.mem_flatMap.1 hevent
    exact .dropped hsignature hevent
  · refine .bind (.report (.detail rfl)) ?_
    dsimp only
    split
    · next hempty =>
        refine .bind (.report (.noCandidates (List.isEmpty_iff.1 hempty))) ?_
        exact (reports_resolveAndWrite _ _ _ sink).bind (.pure _)
    · exact (reports_resolveAndWrite _ _ _ sink).bind (.pure _)

/-- A member that a run reports as foreign is a member of the final table that lacks the common
start of all members. -/
theorem foreign_of_mem_generate {options : Options} {tableDump signatureDump : String} {sink : Sink}
    {pointerType member memberPrefix : String}
    (h : .memberForeign pointerType member memberPrefix ∈
      (generate options tableDump signatureDump sink).events) :
    (finalTable options tableDump).value[pointerType]? = some member ∧
      ¬ options.memberPrefix.toList <+: member.toList := by
  cases reports_generate options tableDump signatureDump sink _ h with
  | detail hdetail => cases hdetail
  | dropped _ hdropped =>
      obtain ⟨line, -, hline⟩ := List.mem_map.1 hdropped
      cases hline
  | foreign hforeign =>
      obtain ⟨_, _, hmember, hstart, heq⟩ := hforeign
      cases heq
      exact ⟨hmember, hstart⟩

end CallTable
