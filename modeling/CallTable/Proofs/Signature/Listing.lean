import CallTable.Proofs.Signature.Dump

/-!
# Blocks that list parameters

A block of the SDK lists its parameters one to a line, each with its name, its type and a comma. If
no type holds a closing parenthesis, such a block is a part of a well-formed dump that declares
exactly the listed parameters, as `ListedBlock.exists_candidate` states.
-/

namespace CallTable

open Text

/-- A parameter as it stands in a block, on a line of its own. The type may be any text of one line
that starts with a visible character. -/
structure ListedParameter where
  margin : List Char
  name : List Char
  type : List Char
  margin_blank : ∀ c ∈ margin, isBlank c = true
  feed_not_mem_margin : '\n' ∉ margin
  name_isWord : IsWord name
  closer_not_mem_name : ')' ∉ name
  type_visible : ∃ c ∈ type.head?, isVisible c = true
  feed_not_mem_type : '\n' ∉ type

namespace ListedParameter

/-- The parts of the line. -/
def parts (listed : ListedParameter) : ParameterLine :=
  .plain listed.margin_blank listed.name_isWord listed.type_visible

/-- The line of the parameter. -/
def line (listed : ListedParameter) : List Char :=
  listed.parts.text

/-- The parameter that is declared. -/
def parameter (listed : ListedParameter) : Parameter :=
  ⟨String.ofList listed.name, String.ofList listed.type⟩

theorem line_eq (listed : ListedParameter) :
    listed.line = listed.margin ++
      (listed.name ++ ':' :: ' ' :: (listed.type ++ [','])) := by
  simp [line, parts, ParameterLine.plain, ParameterLine.text]

theorem isLine_line (listed : ListedParameter) : IsLine listed.line := by
  have hname : '\n' ∉ listed.name := listed.name_isWord.not_mem rfl
  constructor
  · simp [line_eq, listed.feed_not_mem_margin, hname, listed.feed_not_mem_type]
  · simp [line_eq, List.getLast?_append, List.getLast?_cons]

/-- Only the type can bring a closing parenthesis into the line. -/
theorem closer_mem_line_iff (listed : ListedParameter) :
    ')' ∈ listed.line ↔ ')' ∈ listed.type := by
  have hmargin : ')' ∉ listed.margin := not_mem_of_blank listed.margin_blank rfl
  simp [line_eq, hmargin, listed.closer_not_mem_name]

end ListedParameter

/-- A block whose parameter list holds parameters only. -/
structure ListedBlock where
  head : AliasHead
  receiver : Receiver
  listing : List ListedParameter
  margin : List Char
  closing : List Char
  margin_blank : ∀ c ∈ margin, isBlank c = true
  closing_isPlain : IsPlain (margin ++ ')' :: closing)

namespace ListedBlock

/-- The lines of the block. -/
def lines (block : ListedBlock) : List (List Char) :=
  block.head.lines ++ block.receiver.line :: block.listing.map ListedParameter.line ++
    [block.margin ++ ')' :: block.closing]

theorem isLine_of_mem_lines (block : ListedBlock) : ∀ line ∈ block.lines, IsLine line := by
  intro line hline
  simp only [lines, List.mem_append, List.mem_cons, List.mem_map, List.not_mem_nil,
    or_false] at hline
  obtain (hhead | rfl | ⟨listed, -, rfl⟩) | rfl := hline
  · exact block.head.isLine_of_mem_lines line hhead
  · exact block.receiver.isLine
  · exact listed.isLine_line
  · exact block.closing_isPlain.toIsLine

end ListedBlock

/-- Listed parameters without closing parentheses are lines of a parameter list. -/
theorem exists_body {listing : List ListedParameter}
    (h : ∀ listed ∈ listing, ')' ∉ listed.type) :
    ∃ body : List BodyLine, body.map BodyLine.text = listing.map ListedParameter.line ∧
      body.filterMap BodyLine.parameter? = listing.map ListedParameter.parameter ∧
      body.filterMap BodyLine.dropped? = [] := by
  induction listing with
  | nil => exact ⟨[], rfl, rfl, rfl⟩
  | cons listed listing ih =>
      obtain ⟨htype, h⟩ := List.forall_mem_cons.1 h
      obtain ⟨body, htext, hparameters, hdropped⟩ := ih h
      have hcloser : ')' ∉ listed.parts.text := fun hmem =>
        htype (listed.closer_mem_line_iff.1 hmem)
      have hline : IsLine listed.parts.text := listed.isLine_line
      refine ⟨.declared listed.parts hline hcloser :: body, ?_, ?_, ?_⟩
      · rw [List.map_cons, htext]
        rfl
      · show listed.parts.parameter :: body.filterMap BodyLine.parameter? = _
        rw [hparameters]
        rfl
      · exact hdropped

/-- A block in which no type holds a closing parenthesis calls for a wrapper with all its
parameters. -/
theorem ListedBlock.exists_candidate {block : ListedBlock}
    (h : ∀ listed ∈ block.listing, ')' ∉ listed.type) :
    ∃ candidate : Candidate, candidate.lines = block.lines ∧
      candidate.signature = ⟨String.ofList block.head.name,
        block.listing.map ListedParameter.parameter, []⟩ := by
  obtain ⟨body, htext, hparameters, hdropped⟩ := exists_body h
  refine ⟨⟨block.head, block.receiver, body, block.margin, block.closing, block.margin_blank,
    block.closing_isPlain⟩, ?_, ?_⟩
  · rw [Candidate.lines, htext]
    rfl
  · rw [Candidate.signature, hparameters, hdropped]

/-! ## The layout of the SDK -/

/-- What stands before the lines of a parameter list. -/
def sdkMargin : List Char :=
  "        ".toList

theorem isBlank_of_mem_sdkMargin : ∀ c ∈ sdkMargin, isBlank c = true :=
  List.all_eq_true.1 (by decide)

theorem feed_not_mem_sdkMargin : '\n' ∉ sdkMargin := by
  decide

/-- A parameter in the layout of the SDK. -/
def ListedParameter.sdk {name type : List Char} (hname : IsWord name) (hcloser : ')' ∉ name)
    (htype : ∃ c ∈ type.head?, isVisible c = true) (hfeed : '\n' ∉ type) : ListedParameter where
  margin := sdkMargin
  name := name
  type := type
  margin_blank := isBlank_of_mem_sdkMargin
  feed_not_mem_margin := feed_not_mem_sdkMargin
  name_isWord := hname
  closer_not_mem_name := hcloser
  type_visible := htype
  feed_not_mem_type := hfeed

namespace ListedBlock

/-- The block of an alias in the layout of the SDK. -/
def sdk {name : List Char} (hname : IsWord name) (listing : List ListedParameter) :
    ListedBlock where
  head :=
    ⟨name, hname,
      .nextLine "::std::option::Option<".toList "    unsafe extern \"C\" fn(".toList (by decide)
        (.of_not_mem (c := ' ') ⟨by decide, by decide⟩ (by decide) (by decide)) (by decide)
        (.of_not_mem (c := 'p') ⟨by decide, by decide⟩ (by decide) (by decide)) (by decide)⟩
  receiver :=
    ⟨sdkMargin, ": *mut ::std::os::raw::c_void".toList, by decide, by decide,
      feed_not_mem_sdkMargin, by decide⟩
  listing := listing
  margin := "    ".toList
  closing := " -> NVENCSTATUS,".toList
  margin_blank := List.all_eq_true.1 (by decide)
  closing_isPlain := .of_not_mem (c := 'p') ⟨by decide, by decide⟩ (by decide) (by decide)

theorem lines_sdk {name : List Char} (hname : IsWord name) (listing : List ListedParameter) :
    (sdk hname listing).lines =
      ["pub type ".toList ++ name ++ " = ::std::option::Option<".toList,
        "    unsafe extern \"C\" fn(".toList,
        "        encoder: *mut ::std::os::raw::c_void,".toList] ++
        listing.map ListedParameter.line ++ ["    ) -> NVENCSTATUS,".toList] := by
  have hfirst : " = ::std::option::Option<".toList =
      AliasBlock.equals ++ "::std::option::Option<".toList := by decide
  have hreceiver : "        encoder: *mut ::std::os::raw::c_void,".toList =
      sdkMargin ++ AliasBlock.marker ++ ": *mut ::std::os::raw::c_void".toList ++ [','] := by
    decide
  have hclosing : "    ) -> NVENCSTATUS,".toList =
      "    ".toList ++ ')' :: " -> NVENCSTATUS,".toList := by decide
  rw [hfirst, hreceiver, hclosing, ← List.append_assoc]
  rfl

end ListedBlock

end CallTable
