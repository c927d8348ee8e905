import CallTable.Proofs.Signature.Listing

/-!
# Parameters that are lost

A parameter list is read up to the next closing parenthesis, whether or not that is its own. A block
therefore yields all its parameters exactly if no type holds a closing parenthesis, which
`ofDump_accounts_iff` states. In a block with such a type the list is cut there: what stands behind
the cut is neither kept nor reported, as `callback_parameter_lost` shows of one callback.
-/

namespace CallTable

open Text

/-- Every listed parameter either is among those that were read, in order and with its own name and
type, or is reported as a dropped line. -/
inductive Accounted (dropped : List String) : List ListedParameter → List Parameter → Prop where
  | done (parameters : List Parameter) : Accounted dropped [] parameters
  | kept {listed : ListedParameter} {listing : List ListedParameter}
      {parameters : List Parameter} : Accounted dropped listing parameters →
      Accounted dropped (listed :: listing) (listed.parameter :: parameters)
  | reported {listed : ListedParameter} {listing : List ListedParameter}
      {parameters : List Parameter} : String.ofList (trim listed.line) ∈ dropped →
      Accounted dropped listing parameters →
      Accounted dropped (listed :: listing) parameters
  | passed {listing : List ListedParameter} {parameters : List Parameter}
      (parameter : Parameter) : Accounted dropped listing parameters →
      Accounted dropped listing (parameter :: parameters)

namespace Accounted

variable {dropped : List String} {listing : List ListedParameter} {parameters : List Parameter}

/-- A listed parameter that is accounted for is kept or reported. -/
theorem mem_or_mem (h : Accounted dropped listing parameters) {listed : ListedParameter}
    (hmem : listed ∈ listing) :
    listed.parameter ∈ parameters ∨ String.ofList (trim listed.line) ∈ dropped := by
  induction h with
  | done => simp at hmem
  | kept _ ih =>
      rcases List.mem_cons.1 hmem with rfl | hmem
      · exact Or.inl List.mem_cons_self
      · exact (ih hmem).imp_left (List.mem_cons_of_mem _)
  | reported hreport _ ih =>
      rcases List.mem_cons.1 hmem with rfl | hmem
      · exact Or.inr hreport
      · exact ih hmem
  | passed parameter _ ih => exact (ih hmem).imp_left (List.mem_cons_of_mem _)

/-- Listed parameters are accounted for where all of them are kept. -/
theorem of_map (dropped : List String) (listing : List ListedParameter) :
    Accounted dropped listing (listing.map ListedParameter.parameter) := by
  induction listing with
  | nil => exact .done []
  | cons listed listing ih => exact .kept ih

end Accounted

namespace ListedBlock

/-- The text between the receiver and the closing line. -/
def list (block : ListedBlock) : List Char :=
  ofLines (block.listing.map ListedParameter.line) ++ block.margin

/-- What the search finds where the block stands. -/
def found (block : ListedBlock) : AliasBlock :=
  ⟨block.head.name, '\n' :: block.list.takeWhile (· ≠ ')')⟩

/-- The text of a block is its head, its receiver, its list and the rest of the closing line. -/
theorem ofLines_lines (block : ListedBlock) (rest : List Char) :
    ofLines block.lines ++ rest = ofLines block.head.lines ++ (block.receiver.line ++
      '\n' :: (block.list ++ ')' :: (block.closing ++ '\n' :: rest))) := by
  simp [lines, list, ofLines]

/-- The search finds a block where one stands. -/
theorem read?_ofLines_lines (block : ListedBlock) (rest : List Char) :
    ∃ left, AliasBlock.form.read? (ofLines block.lines ++ rest) = some (block.found, left) := by
  have hread := AliasBlock.read?_receiver block.head block.receiver
    (block.list ++ ')' :: (block.closing ++ '\n' :: rest))
  rw [takeWhile_append_cons_of_neg _ _ (by decide)] at hread
  exact ⟨_, by rw [ofLines_lines]; exact hread⟩

/-- If no type holds a closing parenthesis, all parameters are kept and none is dropped. -/
theorem signature_found {block : ListedBlock} (h : ∀ listed ∈ block.listing, ')' ∉ listed.type) :
    block.found.signature = ⟨String.ofList block.head.name,
      block.listing.map ListedParameter.parameter, []⟩ := by
  obtain ⟨candidate, hlines, hsignature⟩ := block.exists_candidate h
  obtain ⟨left, hread⟩ := block.read?_ofLines_lines []
  have hall := all_item_append (.candidate candidate) []
  rw [Item.lines, hlines, AliasBlock.form.all_of_some hread] at hall
  have hfound : block.found = candidate.block := (List.cons.inj hall).1
  rw [hfound, candidate.signature_block, hsignature]

end ListedBlock

/-! ## Lists that are cut -/

namespace AliasBlock

/-- What a block without a certain character declares does not hold the character either. -/
theorem not_mem_type {block : AliasBlock} {c : Char} (h : c ∉ block.body) {parameter : Parameter}
    (hmem : parameter ∈ block.signature.parameters) : c ∉ parameter.type.toList := by
  obtain ⟨line, hline, hread⟩ := exists_line_of_mem_parameters hmem
  exact fun hc => not_mem_of_mem_lines h hline ((Parameter.subset_of_ofLine? hread).2 hc)

theorem not_mem_dropped {block : AliasBlock} {c : Char} (h : c ∉ block.body) {dropped : String}
    (hmem : dropped ∈ block.signature.dropped) : c ∉ dropped.toList := by
  obtain ⟨line, hline, -, rfl⟩ := exists_line_of_mem_dropped hmem
  rw [String.toList_ofList]
  exact not_mem_of_mem_lines h hline

end AliasBlock

/-- A listed parameter that is accounted for has no closing parenthesis in its type. -/
theorem ListedBlock.closer_not_mem_of_accounted {block : ListedBlock}
    (h : Accounted block.found.signature.dropped block.listing
      block.found.signature.parameters) :
    ∀ listed ∈ block.listing, ')' ∉ listed.type := by
  intro listed hmem hcloser
  -- The list ends at its first closing parenthesis, so nothing that is read of it holds one.
  have hbody : ')' ∉ block.found.body := by
    intro hc
    rcases List.mem_cons.1 hc with hc | hc
    · cases hc
    · exact not_mem_takeWhile_ne _ block.list hc
  rcases h.mem_or_mem hmem with hkept | hreported
  · refine AliasBlock.not_mem_type hbody hkept ?_
    simpa [ListedParameter.parameter] using hcloser
  · refine AliasBlock.not_mem_dropped hbody hreported ?_
    rw [String.toList_ofList]
    show ')' ∈ trim listed.parts.text
    rw [← ParameterLine.text_trim]
    have htype : ')' ∈ listed.parts.trim.type := hcloser
    simp [ParameterLine.text, htype]

/-- Between well-formed items and any other text, a block is read as the search finds it. -/
theorem ListedBlock.exists_value_ofDump (before : List Item) (block : ListedBlock)
    (after : List Char) :
    ∃ others, (Signature.ofDump (String.ofList
      (ofLines (before.flatMap Item.lines) ++ (ofLines block.lines ++ after)))).value =
        before.filterMap Item.signature? ++ block.found.signature :: others := by
  obtain ⟨left, hread⟩ := block.read?_ofLines_lines (unifyLineEnds after)
  refine ⟨(AliasBlock.form.all left).map AliasBlock.signature, ?_⟩
  rw [Signature.value_ofDump, AliasBlock.ofDump, String.toList_ofList,
    unifyLineEnds_ofLines_append (isLine_of_mem_items before),
    unifyLineEnds_ofLines_append block.isLine_of_mem_lines, all_items_append,
    AliasBlock.form.all_of_some hread, List.map_append, signature_block?, List.map_cons]

/-- Of a block between well-formed items and any other text, all parameters are accounted for
exactly if no type holds a closing parenthesis. In that case they are all kept. -/
theorem ofDump_accounts_iff (before : List Item) (block : ListedBlock) (after : List Char) :
    ∃ signature others,
      (Signature.ofDump (String.ofList
        (ofLines (before.flatMap Item.lines) ++ (ofLines block.lines ++ after)))).value =
          before.filterMap Item.signature? ++ signature :: others ∧
      signature.pointerType = String.ofList block.head.name ∧
      (Accounted signature.dropped block.listing signature.parameters ↔
        ∀ listed ∈ block.listing, ')' ∉ listed.type) ∧
      ((∀ listed ∈ block.listing, ')' ∉ listed.type) →
        signature.parameters = block.listing.map ListedParameter.parameter ∧
          signature.dropped = []) := by
  obtain ⟨others, hvalue⟩ := block.exists_value_ofDump before after
  refine ⟨block.found.signature, others, hvalue, rfl,
    ⟨block.closer_not_mem_of_accounted, fun h => ?_⟩, fun h => ?_⟩
  · rw [block.signature_found h]
    exact Accounted.of_map [] block.listing
  · rw [block.signature_found h]
    exact ⟨rfl, rfl⟩

/-- A block in the layout of the SDK with a callback among its parameters. -/
def callbackBlock : ListedBlock :=
  .sdk (show IsWord "PNVENCREGISTERCALLBACK".toList by decide)
    [.sdk (show IsWord "cb".toList by decide) (by decide)
        (show ∃ c ∈ "Option<fn(a: u32, b: u32)>".toList.head?, isVisible c = true from
          ⟨'O', by decide, by decide⟩) (by decide),
      .sdk (show IsWord "x".toList by decide) (by decide)
        (show ∃ c ∈ "u32".toList.head?, isVisible c = true from ⟨'u', by decide, by decide⟩)
        (by decide)]

/-- The type of the callback is cut at its parenthesis, and the parameter after it is neither kept
nor reported. -/
theorem callback_parameter_lost :
    ∃ signature others,
      (Signature.ofDump (String.ofList (ofLines callbackBlock.lines ++ ">;\n".toList))).value =
        signature :: others ∧
      signature = ⟨"PNVENCREGISTERCALLBACK", [⟨"cb", "Option<fn(a: u32"⟩], []⟩ ∧
      ¬ Accounted signature.dropped callbackBlock.listing signature.parameters := by
  obtain ⟨others, hvalue⟩ := callbackBlock.exists_value_ofDump [] ">;\n".toList
  have hsignature : callbackBlock.found.signature =
      ⟨"PNVENCREGISTERCALLBACK", [⟨"cb", "Option<fn(a: u32"⟩], []⟩ := by decide +kernel
  refine ⟨callbackBlock.found.signature, others, hvalue, hsignature, fun h => ?_⟩
  rw [hsignature] at h
  have hlast : callbackBlock.listing.getLast (by decide) ∈ callbackBlock.listing :=
    List.getLast_mem _
  rcases h.mem_or_mem hlast with hkept | hreported
  · exact absurd hkept (by decide +kernel)
  · exact absurd hreported List.not_mem_nil

end CallTable
