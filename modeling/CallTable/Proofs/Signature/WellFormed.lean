import CallTable.Proofs.Signature.LinePosition
import CallTable.Proofs.Signature.Match
import CallTable.Proofs.Text.Search

/-!
# Signatures of any text

Nothing is assumed here of the text. Whatever it holds, the signatures that are read of it are
well-formed: names are words, types lie on one line, no part holds a closing parenthesis, and a
dropped line is trimmed and would be dropped again. `ofDump_isWellFormed` states this, and that each
signature is made of parts of the stretch where it was found. The stretches follow one another
without overlap.
-/

namespace CallTable

open Text

/-- The texts of a parameter as a list of any text can hold them. -/
structure Parameter.IsWellFormed (parameter : Parameter) : Prop where
  name_isWord : IsWord parameter.name.toList
  closer_not_mem_name : ')' ∉ parameter.name.toList
  type_ne_empty : parameter.type ≠ ""
  feed_not_mem_type : '\n' ∉ parameter.type.toList
  closer_not_mem_type : ')' ∉ parameter.type.toList

/-- A line that is dropped of a list, and would be if it stood alone, whatever the name of its
alias. -/
structure IsDroppedLine (line : String) : Prop where
  ne_empty : line ≠ ""
  trim_eq : trim line.toList = line.toList
  feed_not_mem : '\n' ∉ line.toList
  closer_not_mem : ')' ∉ line.toList
  dropped_alone : ∀ name,
    AliasBlock.signature ⟨name, line.toList⟩ = ⟨String.ofList name, [], [line]⟩

/-- A signature whose parts are well-formed. -/
structure Signature.IsWellFormed (signature : Signature) : Prop where
  pointerType_isWord : IsWord signature.pointerType.toList
  parameters : ∀ parameter ∈ signature.parameters, parameter.IsWellFormed
  dropped : ∀ line ∈ signature.dropped, IsDroppedLine line

/-- The parts of a signature stand in a text. -/
structure Signature.StandsIn (signature : Signature) (text : List Char) : Prop where
  pointerType : signature.pointerType.toList <:+: text
  name : ∀ parameter ∈ signature.parameters, parameter.name.toList <:+: text
  type : ∀ parameter ∈ signature.parameters, parameter.type.toList <:+: text
  dropped : ∀ line ∈ signature.dropped, line.toList <:+: text

/-! ## What a block declares -/

/-- A parameter that is read of a line without line feeds and closing parentheses is well-formed. -/
theorem Parameter.isWellFormed_of_ofLine? {line : List Char} {parameter : Parameter}
    (hfeed : '\n' ∉ line) (hcloser : ')' ∉ line) (h : ofLine? line = some parameter) :
    parameter.IsWellFormed := by
  obtain ⟨hname, htype⟩ := subset_of_ofLine? h
  obtain ⟨parts, -, rfl⟩ := ofLine?_eq_some_iff.1 h
  refine ⟨?_, fun hc => hcloser (hname hc), ?_, fun hc => hfeed (htype hc),
    fun hc => hcloser (htype hc)⟩
  · rw [ParameterLine.parameter, String.toList_ofList]
    exact parts.name_isWord
  · exact mt String.ofList_eq_empty_iff.1 parts.type_isType.ne_nil

namespace AliasBlock

variable {block : AliasBlock}

/-- A line that declares no parameter is dropped alone as well. -/
theorem signature_of_mem_lines {line : List Char} (h : line ∈ block.lines)
    (hnone : Parameter.ofLine? line = none) (name : List Char) :
    signature ⟨name, line⟩ = ⟨String.ofList name, [], [String.ofList line]⟩ := by
  rw [signature, lines_of_mem_lines h]
  simp [hnone]

/-- A line that declares no parameter is dropped as a well-formed one. -/
theorem isDroppedLine_of_mem_lines {line : List Char} (hline : line ∈ block.lines)
    (hcloser : ')' ∉ line) (hnone : Parameter.ofLine? line = none) :
    IsDroppedLine (String.ofList line) := by
  refine ⟨mt String.ofList_eq_empty_iff.1 (mem_lines_iff.1 hline).2, ?_, ?_, ?_, ?_⟩
  all_goals rw [String.toList_ofList]
  · exact trim_of_mem_lines hline
  · exact feed_not_mem_of_mem_lines hline
  · exact hcloser
  · exact signature_of_mem_lines hline hnone

/-- A block with a name and without closing parentheses declares a well-formed signature. -/
theorem isWellFormed_signature (hname : IsWord block.name) (hcloser : ')' ∉ block.body) :
    block.signature.IsWellFormed := by
  refine ⟨?_, fun parameter hparameter => ?_, fun dropped hdropped => ?_⟩
  · rw [signature, String.toList_ofList]
    exact hname
  · obtain ⟨line, hline, hread⟩ := exists_line_of_mem_parameters hparameter
    exact Parameter.isWellFormed_of_ofLine? (feed_not_mem_of_mem_lines hline)
      (not_mem_of_mem_lines hcloser hline) hread
  · obtain ⟨line, hline, hnone, rfl⟩ := exists_line_of_mem_dropped hdropped
    exact isDroppedLine_of_mem_lines hline (not_mem_of_mem_lines hcloser hline) hnone

/-- What a block declares stands where its name and its list stand. -/
theorem standsIn_signature {text : List Char} (hname : block.name <:+: text)
    (hbody : block.body <:+: text) : block.signature.StandsIn text := by
  have hlines : ∀ line ∈ block.lines, line <:+: text :=
    fun line hline => (infix_of_mem_lines hline).trans hbody
  refine ⟨?_, fun parameter hparameter => ?_, fun parameter hparameter => ?_,
    fun dropped hdropped => ?_⟩
  · rw [signature, String.toList_ofList]
    exact hname
  · obtain ⟨line, hline, hread⟩ := exists_line_of_mem_parameters hparameter
    exact (Parameter.infix_of_ofLine? hread).1.trans (hlines line hline)
  · obtain ⟨line, hline, hread⟩ := exists_line_of_mem_parameters hparameter
    exact (Parameter.infix_of_ofLine? hread).2.trans (hlines line hline)
  · obtain ⟨line, hline, -, rfl⟩ := exists_line_of_mem_dropped hdropped
    rw [String.toList_ofList]
    exact hlines line hline

end AliasBlock

/-! ## Where a block is found -/

/-- The characters between two positions are those that the text has more from the first one on. -/
theorem Text.slice_eq_of_drop_eq {text part : List Char} {i j : Nat}
    (h : text.drop i = part ++ text.drop j) (hj : j ≤ text.length) : slice text i j = part := by
  have hlength := congrArg List.length h
  rw [List.length_append, List.length_drop, List.length_drop] at hlength
  rw [slice, h, List.take_left' (show part.length = j - i by omega)]

namespace AliasMatch

theorem isWellFormed_signature (found : AliasMatch) : found.block.signature.IsWellFormed :=
  AliasBlock.isWellFormed_signature found.name_isWord found.closer_not_mem_body

theorem standsIn_text (found : AliasMatch) : found.block.signature.StandsIn found.text := by
  refine AliasBlock.standsIn_signature ⟨AliasBlock.keyword, ?_, ?_⟩ ?_
  · exact AliasBlock.equals ++ found.between ++ AliasBlock.opener ++
      '\n' :: (found.receiver ++ ',' :: found.body)
  · simp [block, text, stretch]
  · refine ⟨found.stretch ++ AliasBlock.opener ++ '\n' :: (found.receiver ++ [',']), [], ?_⟩
    simp [block, text]

end AliasMatch

namespace AliasBlock

/-- What a reading leaves is the end of its text. -/
theorem suffix_of_read? {text rest : List Char} {block : AliasBlock}
    (h : form.read? text = some (block, rest)) : rest <:+ text := by
  obtain ⟨found, -, rfl⟩ := exists_match_of_read? h
  exact List.suffix_append found.text rest

/-- The text at a place is a match of what is found there. -/
theorem exists_match_of_place {text : List Char} {origin : Nat} {places : List (Place AliasBlock)}
    (h : form.Places text origin places) {place : Place AliasBlock} (hplace : place ∈ places) :
    ∃ found : AliasMatch, found.block = place.found ∧
      slice text place.start place.stop = found.text := by
  obtain ⟨found, hblock, htext⟩ := exists_match_of_read? (h.read place hplace)
  exact ⟨found, hblock, slice_eq_of_drop_eq htext (h.stop_le place hplace)⟩

end AliasBlock

/-- The signatures of any dump are well-formed. They are found at the places of the search, of which
the dump has only one list: stretches of the dump with unified line ends that follow one another
without overlap. Each signature is made of parts of its stretch. -/
theorem ofDump_isWellFormed (dump : String) :
    let text := unifyLineEnds dump.toList
    let signatures := (Signature.ofDump dump).value
    (∀ signature ∈ signatures, signature.IsWellFormed) ∧
      ∃ places : List (Place AliasBlock),
        AliasBlock.form.Places text 0 places ∧
        (∀ others, AliasBlock.form.Places text 0 others → others = places) ∧
        signatures = places.map (·.found.signature) ∧
        places.Pairwise (fun first second => first.stop ≤ second.start) ∧
        ∀ place ∈ places, place.start < place.stop ∧ place.stop ≤ text.length ∧
          place.found.signature.StandsIn (slice text place.start place.stop) := by
  intro text signatures
  obtain ⟨places, hplaces, hall⟩ :=
    AliasBlock.form.exists_places AliasBlock.suffix_of_read? text
  have hsignatures : signatures = places.map (·.found.signature) := by
    rw [← Function.comp_def AliasBlock.signature, ← List.map_map, ← hall]
    rfl
  refine ⟨fun signature hsignature => ?_, places, hplaces, fun others => hplaces.unique,
    hsignatures, hplaces.ordered, fun place hplace => ?_⟩
  · rw [hsignatures] at hsignature
    obtain ⟨place, hplace, rfl⟩ := List.mem_map.1 hsignature
    obtain ⟨found, hblock, -⟩ := AliasBlock.exists_match_of_place hplaces hplace
    rw [← hblock]
    exact found.isWellFormed_signature
  · obtain ⟨found, hblock, hslice⟩ := AliasBlock.exists_match_of_place hplaces hplace
    refine ⟨hplaces.start_lt_stop hplace, hplaces.stop_le place hplace, ?_⟩
    rw [hslice, ← hblock]
    exact found.standsIn_text

/-- An alias with a carriage return in its list and a line that declares nothing, and an alias whose
list is never closed and holds a type of one blank. -/
def untidyDump : String :=
  "pub type POPEN = Option<fn(\n\tencoder: *mut c_void,\n" ++
    "  x: \r *mut u8 ,y\n  opaque,\n) -> S>;\n" ++
    "pub type PCLOSE = fn(\n  encoder: *mut c_void,z:\t ,"

/-- Both aliases are found, one behind the other, and their signatures are well-formed. -/
theorem untidy_signatures :
    let signatures : List Signature :=
      [⟨"POPEN", [⟨"x", "*mut u8 "⟩], ["opaque,"]⟩, ⟨"PCLOSE", [⟨"z", " "⟩], []⟩]
    (Signature.ofDump untidyDump).value = signatures ∧
      (∀ signature ∈ signatures, signature.IsWellFormed) ∧
      ∃ first second : Place AliasBlock,
        AliasBlock.form.Places (unifyLineEnds untidyDump.toList) 0 [first, second] ∧
        first.stop ≤ second.start := by
  intro signatures
  have hvalue : (Signature.ofDump untidyDump).value = signatures := by decide +kernel
  obtain ⟨hwell, places, hplaces, -, hsignatures, hordered, -⟩ := ofDump_isWellFormed untidyDump
  rw [hvalue] at hwell hsignatures
  have hlength : places.length = 2 := by
    simpa [signatures] using (congrArg List.length hsignatures).symm
  refine ⟨hvalue, hwell, places[0], places[1], ?_,
    List.pairwise_iff_getElem.1 hordered 0 1 _ _ Nat.zero_lt_one⟩
  rw [← List.eq_getElem_of_length_eq_two places hlength]
  exact hplaces

end CallTable
