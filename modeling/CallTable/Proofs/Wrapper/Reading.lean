import CallTable.Wrapper
import Mathlib.Data.List.Basic

/-!
# Reading wrappers back

The text of wrappers can be read back line by line. The header of a wrapper ends its name, the line
with the result type ends the declarations, and from there on the number of the arguments is known,
so wherever one wrapper ends the next one begins. `Wrapper.read?_eq_some_iff` says that the lines of
a wrapper are all that is read as one, whatever its names and types are, and
`Wrapper.readAll?_eq_some_iff` says the same of wrappers one after the other.
-/

namespace CallTable

open Text

/-- What stands in a line between a start and an end. -/
def between? (start finish line : String) : Option String := do
  let rest ← line.toList.dropPrefix? start.toList
  let text ← rest.dropSuffix? finish.toList
  some (String.ofList text)

/-- What stands between a start and an end makes a line with them. -/
theorem between?_eq_some_iff {start finish line text : String} :
    between? start finish line = some text ↔ line = start ++ text ++ finish := by
  simp only [between?, Option.bind_eq_bind, Option.bind_eq_some_iff, List.dropPrefix?_eq_some_iff,
    List.dropSuffix?_eq_some_iff, beq_iff_eq, Option.some.injEq]
  constructor
  · rintro ⟨rest, ⟨_, hline, rfl⟩, middle, ⟨_, rfl, rfl⟩, rfl⟩
    simp [← String.toList_inj, hline]
  · rintro rfl
    exact ⟨text.toList ++ finish.toList, ⟨start.toList, by simp, rfl⟩, text.toList,
      ⟨finish.toList, rfl, rfl⟩, String.ofList_toList⟩

/-! ## Parameters -/

namespace Parameter

/-- Reads a parameter from the line that declares it and the line that passes it on. The second one
tells where the name ends in the first. -/
def read? (declaration argument : String) : Option Parameter := do
  let name ← between? "        " "," argument
  let type ← between? ("    " ++ name ++ ": ") "," declaration
  some ⟨name, type⟩

/-- Reads parameters from the lines that declare them and as many lines that pass them on. -/
def readAll? : List String → List String → Option (List Parameter)
  | [], [] => some []
  | declaration :: declarations, argument :: arguments => do
    let parameter ← read? declaration argument
    let parameters ← readAll? declarations arguments
    some (parameter :: parameters)
  | _, _ => none

/-- The two lines of a parameter are all that is read as the parameter. -/
theorem read?_eq_some_iff {declaration argument : String} {parameter : Parameter} :
    read? declaration argument = some parameter ↔
      declaration = Wrapper.declaration parameter ∧ argument = Wrapper.argument parameter := by
  obtain ⟨name, type⟩ := parameter
  simp only [read?, Option.bind_eq_bind, Option.bind_eq_some_iff, between?_eq_some_iff,
    Option.some.injEq, mk.injEq, Wrapper.declaration, Wrapper.argument]
  constructor
  · rintro ⟨_, hargument, _, hdeclaration, rfl, rfl⟩
    exact ⟨hdeclaration, hargument⟩
  · rintro ⟨hdeclaration, hargument⟩
    exact ⟨name, hargument, type, hdeclaration, rfl, rfl⟩

/-- The lines of parameters are all that is read as the parameters. -/
theorem readAll?_eq_some_iff {declarations arguments : List String} {parameters : List Parameter} :
    readAll? declarations arguments = some parameters ↔
      declarations = parameters.map Wrapper.declaration ∧
        arguments = parameters.map Wrapper.argument := by
  induction declarations, arguments using readAll?.induct generalizing parameters with
  | case1 => simp [readAll?, eq_comm]
  | case2 declaration declarations argument arguments ih =>
      simp only [readAll?, Option.bind_eq_bind, Option.bind_eq_some_iff, read?_eq_some_iff, ih,
        Option.some.injEq]
      constructor
      · rintro ⟨parameter, ⟨rfl, rfl⟩, further, ⟨rfl, rfl⟩, rfl⟩
        exact ⟨rfl, rfl⟩
      · rintro ⟨hdeclarations, harguments⟩
        cases parameters with
        | nil => cases hdeclarations
        | cons parameter parameters =>
            obtain ⟨hdeclaration, hdeclarations⟩ := List.cons.inj hdeclarations
            obtain ⟨hargument, harguments⟩ := List.cons.inj harguments
            exact ⟨parameter, ⟨hdeclaration, hargument⟩, parameters, ⟨hdeclarations, harguments⟩,
              rfl⟩
  | case3 declarations arguments hnil hcons =>
      -- One list is longer than the other, which the lines of parameters never are.
      rw [readAll?]
      · simp only [reduceCtorEq, false_iff, not_and]
        rintro rfl rfl
        cases parameters with
        | nil => exact hnil rfl rfl
        | cons parameter parameters => exact hcons _ _ _ _ rfl rfl
      · exact hnil
      · exact hcons

end Parameter

/-! ## The parts of a wrapper -/

/-- Three lines, of which the second one holds a text. -/
structure Frame where
  above : String
  start : String
  finish : String
  below : String

namespace Frame

/-- The lines with a text. -/
def lines (frame : Frame) (text : String) : List String :=
  [frame.above, frame.start ++ text ++ frame.finish, frame.below]

/-- Reads the text at the head of lines. -/
def read? (frame : Frame) : List String → Option (String × List String)
  | above :: line :: below :: rest =>
    if above = frame.above ∧ below = frame.below then
      (between? frame.start frame.finish line).map (·, rest)
    else none
  | _ => none

/-- The lines with a text are all from which the text is read. -/
theorem read?_eq_some_iff {frame : Frame} {lines rest : List String} {text : String} :
    frame.read? lines = some (text, rest) ↔ lines = frame.lines text ++ rest := by
  unfold read?
  split
  · next above line below further =>
    simp only [Option.ite_none_right_eq_some, Option.map_eq_some_iff, between?_eq_some_iff,
      Prod.mk.injEq, Frame.lines, List.cons_append, List.nil_append, List.cons.injEq]
    constructor
    · rintro ⟨⟨rfl, rfl⟩, _, rfl, rfl, rfl⟩
      exact ⟨rfl, rfl, rfl, rfl⟩
    · rintro ⟨rfl, rfl, rfl, rfl⟩
      exact ⟨⟨rfl, rfl⟩, text, rfl, rfl, rfl⟩
  · next hshort =>
    simp only [reduceCtorEq, false_iff]
    exact fun h => hshort _ _ _ _ h

end Frame

namespace Wrapper

/-- The lines around the name of a wrapper. -/
def openingFrame : Frame where
  above := "#[inline(always)]"
  start := "pub(crate) unsafe fn "
  finish := "("
  below := "    &self,"

/-- The lines around the member that a wrapper calls. -/
def callFrame : Frame where
  above := ") -> Result<()> \x7b"
  start := "    let status = (self.functions."
  finish := ".unwrap_unchecked())("
  below := "        self.encoder_ptr.as_ptr(),"

theorem opening_eq (wrapper : Wrapper) : wrapper.opening = openingFrame.lines wrapper.name :=
  rfl

theorem call_eq (wrapper : Wrapper) : wrapper.call = callFrame.lines wrapper.member :=
  rfl

/-- A declaration is not the line that ends the declarations. -/
theorem declaration_ne_above (parameter : Parameter) :
    declaration parameter ≠ callFrame.above := by
  intro h
  have hchars := congrArg String.toList h
  simp [declaration, callFrame] at hchars

/-! ## Wrappers -/

/-- Reads a wrapper at the head of lines. The declarations reach up to the line with the result
type, and there are as many arguments. -/
def read? (lines : List String) : Option (Wrapper × List String) := do
  let (name, rest) ← openingFrame.read? lines
  let declarations := rest.takeWhile (· ≠ callFrame.above)
  let (member, rest) ← callFrame.read? (rest.dropWhile (· ≠ callFrame.above))
  let parameters ← Parameter.readAll? declarations (rest.take declarations.length)
  let rest ← (rest.drop declarations.length).dropPrefix? closing
  some (⟨name, member, parameters⟩, rest)

/-- The lines of a wrapper are all that is read as the wrapper, whatever follows them. -/
theorem read?_eq_some_iff {lines rest : List String} {wrapper : Wrapper} :
    read? lines = some (wrapper, rest) ↔ lines = wrapper.lines ++ rest := by
  simp only [read?, Option.bind_eq_bind, Option.bind_eq_some_iff, Prod.exists,
    Frame.read?_eq_some_iff, Parameter.readAll?_eq_some_iff, List.dropPrefix?_eq_some_iff,
    beq_iff_eq, Option.some.injEq, Prod.mk.injEq]
  constructor
  · rintro ⟨name, afterOpening, rfl, member, afterCall, hcall, parameters,
      ⟨hdeclarations, harguments⟩, rest, ⟨_, hclosing, rfl⟩, rfl, rfl⟩
    have hafterCall : afterCall = parameters.map argument ++ (closing ++ rest) := by
      rw [← harguments, ← hclosing, List.take_append_drop]
    have hafterOpening : afterOpening = parameters.map declaration ++
        (callFrame.lines member ++ afterCall) := by
      rw [← hdeclarations, ← hcall, List.takeWhile_append_dropWhile]
    rw [hafterOpening, hafterCall, Wrapper.lines, opening_eq, call_eq]
    simp only [List.append_assoc]
  · rintro rfl
    obtain ⟨name, member, parameters⟩ := wrapper
    -- The declarations are the longest run without the line that ends them.
    have hrun : ∀ line ∈ parameters.map declaration, decide (line ≠ callFrame.above) = true := by
      intro line hline
      obtain ⟨parameter, -, rfl⟩ := List.mem_map.1 hline
      exact decide_eq_true (declaration_ne_above parameter)
    have hstop : (callFrame.lines member ++
        (parameters.map argument ++ (closing ++ rest))).head?.any
          (fun line => decide (line ≠ callFrame.above)) = false := by
      simp [Frame.lines]
    refine ⟨name, parameters.map declaration ++ (callFrame.lines member ++
      (parameters.map argument ++ (closing ++ rest))), ?_, member,
        parameters.map argument ++ (closing ++ rest), ?_, parameters, ⟨?_, ?_⟩, rest,
          ⟨closing, ?_, rfl⟩, rfl, rfl⟩
    · rw [Wrapper.lines, opening_eq, call_eq]
      simp only [List.append_assoc]
    · exact dropWhile_append_of_stop hrun hstop
    · exact takeWhile_append_of_stop hrun hstop
    · rw [takeWhile_append_of_stop hrun hstop]
      simp
    · rw [takeWhile_append_of_stop hrun hstop]
      simp

/-- Reading a wrapper leaves fewer lines. -/
theorem length_lt_of_read? {lines rest : List String} {wrapper : Wrapper}
    (h : read? lines = some (wrapper, rest)) : rest.length < lines.length := by
  rw [read?_eq_some_iff.1 h, List.length_append, length_lines]
  omega

/-- Reads wrappers up to the end of the text, behind its last line feed. -/
def readAll? (lines : List String) : Option (List Wrapper) :=
  if lines = [""] then some []
  else
    match h : read? lines with
    | none => none
    | some (wrapper, rest) =>
      have := length_lt_of_read? h
      (readAll? rest).map (wrapper :: ·)
termination_by lines.length

/-- Where no wrapper is read before the end, nothing is. -/
theorem readAll?_of_none {lines : List String} (hmore : lines ≠ [""]) (h : read? lines = none) :
    readAll? lines = none := by
  rw [readAll?, if_neg hmore]
  split
  · rfl
  · next hread => rw [h] at hread; cases hread

/-- Where a wrapper is read, the others are read from the lines after it. -/
theorem readAll?_of_some {lines rest : List String} {wrapper : Wrapper}
    (h : read? lines = some (wrapper, rest)) :
    readAll? lines = (readAll? rest).map (wrapper :: ·) := by
  have hmore : lines ≠ [""] := by
    rintro rfl
    have hlength := congrArg List.length (read?_eq_some_iff.1 h)
    rw [List.length_append, length_lines, List.length_singleton] at hlength
    omega
  rw [readAll?, if_neg hmore]
  split
  · next hread => rw [h] at hread; cases hread
  · next hread => rw [h] at hread; obtain ⟨rfl, rfl⟩ := hread; rfl

/-- The lines of wrappers and the end are all that is read as the wrappers. -/
theorem readAll?_eq_some_iff {lines : List String} {wrappers : List Wrapper} :
    readAll? lines = some wrappers ↔ lines = wrappers.flatMap Wrapper.lines ++ [""] := by
  constructor
  · intro h
    induction lines using readAll?.induct generalizing wrappers with
    | case1 =>
        rw [readAll?, if_pos rfl] at h
        obtain rfl := Option.some.inj h
        rfl
    | case2 lines hmore hread =>
        rw [readAll?_of_none hmore hread] at h
        cases h
    | case3 lines hmore wrapper rest hread hlength ih =>
        rw [readAll?_of_some hread] at h
        obtain ⟨others, hothers, rfl⟩ := Option.map_eq_some_iff.1 h
        rw [read?_eq_some_iff.1 hread, ih hothers, List.flatMap_cons, List.append_assoc]
  · rintro rfl
    induction wrappers with
    | nil => rw [List.flatMap_nil, List.nil_append, readAll?, if_pos rfl]
    | cons wrapper wrappers ih =>
        have hread : read? ((wrapper :: wrappers).flatMap Wrapper.lines ++ [""]) =
            some (wrapper, wrappers.flatMap Wrapper.lines ++ [""]) :=
          read?_eq_some_iff.2 (by rw [List.flatMap_cons, List.append_assoc])
        rw [readAll?_of_some hread, ih]
        rfl

end Wrapper

end CallTable
