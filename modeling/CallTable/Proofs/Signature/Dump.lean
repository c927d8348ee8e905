import CallTable.Proofs.Signature.Block
import CallTable.Proofs.Signature.ParameterLine

/-!
# Well-formed dumps

A well-formed dump is a sequence of items: blocks that call for a wrapper, blocks that do not, and
lines that belong to no block. The main result, `ofDump_dump`, says that reading such a dump gives
the declared signatures and nothing else, and reports each dropped line once. It is an induction
over the items; its step, `all_item_append`, says what the search does with one item, whatever
stands after it.
-/

namespace CallTable

open Text

/-- A line of a parameter list: one that declares a parameter, a blank one, or one that is
dropped. -/
inductive BodyLine where
  | declared (line : ParameterLine) (isLine : IsLine line.text) (closer_not_mem : ')' ∉ line.text)
  | blank (text : List Char) (isLine : IsLine text) (isBlank : ∀ c ∈ text, isBlank c = true)
  | stray (text : List Char) (isLine : IsLine text) (closer_not_mem : ')' ∉ text)
      (exists_visible : ∃ c ∈ text, isVisible c = true)
      (not_declared : ∀ line : ParameterLine, line.text ≠ text)

namespace BodyLine

/-- The line itself. -/
def text : BodyLine → List Char
  | declared line .. => line.text
  | blank text .. => text
  | stray text .. => text

/-- The parameter that the line declares. -/
def parameter? : BodyLine → Option Parameter
  | declared line .. => some line.parameter
  | _ => none

/-- What is reported of the line if it is dropped. -/
def dropped? : BodyLine → Option String
  | stray text .. => some (String.ofList (trim text))
  | _ => none

theorem isLine_text : ∀ line : BodyLine, IsLine line.text
  | declared _ isLine _ => isLine
  | blank _ isLine _ => isLine
  | stray _ isLine _ _ _ => isLine

theorem closer_not_mem_text : ∀ line : BodyLine, ')' ∉ line.text
  | declared _ _ closer_not_mem => closer_not_mem
  | blank _ _ isBlank => not_mem_of_blank isBlank rfl
  | stray _ _ closer_not_mem _ _ => closer_not_mem

/-- Every line without a closing parenthesis is of one of the three kinds. -/
theorem exists_text_eq {text : List Char} (hline : IsLine text) (hcloser : ')' ∉ text) :
    ∃ line : BodyLine, line.text = text := by
  by_cases hblank : ∀ c ∈ text, isBlank c = true
  · exact ⟨blank text hline hblank, rfl⟩
  · have hvisible : ∃ c ∈ text, isVisible c = true := by simpa [isVisible] using hblank
    by_cases hdeclared : ∃ line : ParameterLine, line.text = text
    · obtain ⟨line, rfl⟩ := hdeclared
      exact ⟨declared line hline hcloser, rfl⟩
    · exact ⟨stray text hline hcloser hvisible fun line h => hdeclared ⟨line, h⟩, rfl⟩

end BodyLine

/-- A block that calls for a wrapper, up to the line that closes its parameter list. -/
structure Candidate where
  head : AliasHead
  receiver : Receiver
  body : List BodyLine
  margin : List Char
  closing : List Char
  margin_blank : ∀ c ∈ margin, isBlank c = true
  closing_isPlain : IsPlain (margin ++ ')' :: closing)

namespace Candidate

/-- The lines of the block. -/
def lines (candidate : Candidate) : List (List Char) :=
  candidate.head.lines ++ candidate.receiver.line :: candidate.body.map BodyLine.text ++
    [candidate.margin ++ ')' :: candidate.closing]

/-- The signature that the block declares. -/
def signature (candidate : Candidate) : Signature where
  pointerType := String.ofList candidate.head.name
  parameters := candidate.body.filterMap BodyLine.parameter?
  dropped := candidate.body.filterMap BodyLine.dropped?

end Candidate

/-- A part of a well-formed dump. -/
inductive Item where
  | candidate (block : Candidate)
  | other (head : AliasHead) (bypass : Bypass) (further : List (List Char))
      (further_isPlain : ∀ line ∈ further, IsPlain line)
  | noise (line : List Char) (isPlain : IsPlain line)

namespace Item

/-- The lines of the item. -/
def lines : Item → List (List Char)
  | .candidate block => block.lines
  | .other head bypass further _ => head.lines ++ bypass.line :: further
  | .noise line _ => [line]

/-- The signature that the item declares, if it calls for a wrapper. -/
def signature? : Item → Option Signature
  | .candidate block => some block.signature
  | _ => none

end Item

/-- The text of a dump that consists of the items. -/
def Item.dump (items : List Item) : String :=
  String.ofList (ofLines (items.flatMap Item.lines))

/-! ## The lines of a dump -/

theorem Candidate.isLine_of_mem_lines (candidate : Candidate) :
    ∀ line ∈ candidate.lines, IsLine line := by
  intro line hline
  simp only [lines, List.mem_append, List.mem_cons, List.mem_map, List.not_mem_nil,
    or_false] at hline
  obtain (hhead | rfl | ⟨bodyLine, -, rfl⟩) | rfl := hline
  · exact candidate.head.isLine_of_mem_lines line hhead
  · exact candidate.receiver.isLine
  · exact bodyLine.isLine_text
  · exact candidate.closing_isPlain.toIsLine

theorem Item.isLine_of_mem_lines (item : Item) : ∀ line ∈ item.lines, IsLine line := by
  cases item with
  | candidate block => exact block.isLine_of_mem_lines
  | other head bypass further hfurther =>
      intro line hline
      simp only [lines, List.mem_append, List.mem_cons] at hline
      obtain hhead | rfl | hline := hline
      · exact head.isLine_of_mem_lines line hhead
      · exact bypass.isPlain.toIsLine
      · exact (hfurther line hline).toIsLine
  | noise line hplain => simpa [lines] using hplain.toIsLine

/-- The lines of items can stand as lines. -/
theorem isLine_of_mem_items (items : List Item) :
    ∀ line ∈ items.flatMap Item.lines, IsLine line := by
  intro line hline
  obtain ⟨item, -, hline⟩ := List.mem_flatMap.1 hline
  exact item.isLine_of_mem_lines line hline

/-! ## The signature of a block -/

namespace Candidate

/-- What the search finds where the block stands. -/
def block (candidate : Candidate) : AliasBlock where
  name := candidate.head.name
  body := '\n' :: (ofLines (candidate.body.map BodyLine.text) ++ candidate.margin)

/-- The text between the receiver and the closing line. -/
def list (candidate : Candidate) : List Char :=
  ofLines (candidate.body.map BodyLine.text) ++ candidate.margin

theorem closer_not_mem_list (candidate : Candidate) : ')' ∉ candidate.list := by
  rw [list, List.mem_append, not_or]
  refine ⟨?_, not_mem_of_blank candidate.margin_blank rfl⟩
  simpa [ofLines] using fun line _ => line.closer_not_mem_text

theorem closing_lacks_keyword (candidate : Candidate) :
    ¬ AliasBlock.keyword <:+: candidate.closing := fun h =>
  candidate.closing_isPlain.lacks_keyword
    (h.trans ((List.suffix_cons _ _).trans (List.suffix_append _ _)).isInfix)

/-- The text of a block is its head, its receiver, its list and the rest of the closing line. -/
theorem ofLines_lines (candidate : Candidate) (rest : List Char) :
    ofLines candidate.lines ++ rest = ofLines candidate.head.lines ++ (candidate.receiver.line ++
      '\n' :: (candidate.list ++ ')' :: (candidate.closing ++ '\n' :: rest))) := by
  simp [lines, list, ofLines]

/-- The lines of a block are those of its parameter list that are not blank, trimmed. -/
theorem lines_block (candidate : Candidate) :
    candidate.block.lines = ((candidate.body.map fun line => trim line.text).filter (· ≠ [])) := by
  have hmargin : '\n' ∉ candidate.margin := fun h =>
    candidate.closing_isPlain.feed_not_mem (List.mem_append_left _ h)
  have hlines : Text.lines candidate.block.body =
      [] :: candidate.body.map BodyLine.text ++ [candidate.margin] := by
    have hfeed : ∀ line ∈ [] :: candidate.body.map BodyLine.text, '\n' ∉ line := by
      simpa using fun line _ => line.isLine_text.feed_not_mem
    rw [← List.splitOn_eq_singleton hmargin, ← Text.lines, ← lines_ofLines_append hfeed]
    simp [block, ofLines_cons]
  have htrim : trim candidate.margin = [] := trim_eq_nil_iff.2 candidate.margin_blank
  rw [AliasBlock.lines, hlines]
  simp [htrim, show trim [] = [] from rfl, Function.comp_def]

end Candidate

/-- What is read of a line that is left after trimming is the parameter that it declares. -/
theorem BodyLine.ofLine?_trim_text (line : BodyLine) :
    (if trim line.text ≠ [] then Parameter.ofLine? (trim line.text) else none) =
      line.parameter? := by
  rw [Parameter.ofLine?_trim]
  cases line with
  | declared line hline hcloser =>
      have hread : Parameter.ofLine? line.text = some line.parameter :=
        Parameter.ofLine?_eq_some_iff.2 ⟨line, rfl, rfl⟩
      simp [text, parameter?, line.trim_text_ne_nil, hread]
  | blank line hline hblank => simp [text, parameter?, trim_eq_nil_iff.2 hblank]
  | stray line hline hcloser hvisible hnot =>
      simp [text, parameter?, Parameter.ofLine?_eq_none_iff.2 hnot]

/-- A line that is left after trimming is dropped exactly if no parameter is read of it. -/
theorem BodyLine.isNone_ofLine?_trim_text (line : BodyLine) :
    (if trim line.text ≠ [] then
      if (Parameter.ofLine? (trim line.text)).isNone then some (String.ofList (trim line.text))
      else none
    else none) = line.dropped? := by
  rw [Parameter.ofLine?_trim]
  cases line with
  | declared line hline hcloser =>
      have hread : Parameter.ofLine? line.text = some line.parameter :=
        Parameter.ofLine?_eq_some_iff.2 ⟨line, rfl, rfl⟩
      simp [text, dropped?, hread]
  | blank line hline hblank => simp [text, dropped?, trim_eq_nil_iff.2 hblank]
  | stray line hline hcloser hvisible hnot =>
      simp [text, dropped?, trim_ne_nil_of_visible hvisible,
        Parameter.ofLine?_eq_none_iff.2 hnot]

/-- What is read from a block is what it declares. -/
theorem Candidate.signature_block (candidate : Candidate) :
    candidate.block.signature = candidate.signature := by
  have hparameters : candidate.block.lines.filterMap Parameter.ofLine? =
      candidate.body.filterMap BodyLine.parameter? := by
    rw [candidate.lines_block, List.filterMap_filter, List.filterMap_map]
    refine congrArg (List.filterMap · candidate.body) (funext fun line => ?_)
    simpa using line.ofLine?_trim_text
  have hdropped : (candidate.block.lines.filter (Parameter.ofLine? · |>.isNone)).map String.ofList =
      candidate.body.filterMap BodyLine.dropped? := by
    rw [candidate.lines_block, ← List.filterMap_eq_map, List.filterMap_filter,
      List.filterMap_filter, List.filterMap_map]
    refine congrArg (List.filterMap · candidate.body) (funext fun line => ?_)
    simpa using line.isNone_ofLine?_trim_text
  rw [AliasBlock.signature, hparameters, hdropped]
  rfl

/-! ## Searching a dump -/

/-- What the search finds where the item stands. -/
def Item.block? : Item → Option AliasBlock
  | .candidate block => some block.block
  | _ => none

/-- The search finds what one item declares and goes on after it. -/
theorem all_item_append (item : Item) (rest : List Char) :
    AliasBlock.form.all (ofLines item.lines ++ rest) =
      item.block?.toList ++ AliasBlock.form.all rest := by
  cases item with
  | candidate block =>
      -- The first closing parenthesis after the receiver is that of the closing line.
      show AliasBlock.form.all (ofLines block.lines ++ rest) = _
      rw [block.ofLines_lines, AliasBlock.all_receiver block.head block.receiver
        block.closer_not_mem_list block.closing_lacks_keyword]
      rfl
  | other head bypass further hfurther =>
      have hsplit : ofLines (head.lines ++ bypass.line :: further) ++ rest =
          ofLines head.lines ++ (bypass.line ++ '\n' :: (ofLines further ++ rest)) := by
        simp [ofLines]
      show AliasBlock.form.all (ofLines (head.lines ++ bypass.line :: further) ++ rest) = _
      rw [hsplit, AliasBlock.all_bypass, AliasBlock.all_ofLines_append hfurther]
      rfl
  | noise line hplain =>
      have hlines : ∀ plain ∈ [line], IsPlain plain := by simpa using hplain
      show AliasBlock.form.all (ofLines [line] ++ rest) = _
      rw [AliasBlock.all_ofLines_append hlines]
      rfl

/-- The search finds what the items declare and goes on after them. -/
theorem all_items_append (items : List Item) (rest : List Char) :
    AliasBlock.form.all (ofLines (items.flatMap Item.lines) ++ rest) =
      items.filterMap Item.block? ++ AliasBlock.form.all rest := by
  induction items with
  | nil => rfl
  | cons item items ih =>
      rw [List.flatMap_cons, ofLines_append, List.append_assoc, all_item_append, ih,
        List.filterMap_cons]
      cases item.block? <;> rfl

/-- The blocks that the search finds declare what the items declare. -/
theorem signature_block? (items : List Item) :
    (items.filterMap Item.block?).map AliasBlock.signature = items.filterMap Item.signature? := by
  rw [List.map_filterMap]
  refine congrArg (List.filterMap · items) (funext fun item => ?_)
  cases item with
  | candidate block => exact congrArg some block.signature_block
  | other => rfl
  | noise => rfl

/-- The signatures of a well-formed dump are those that its items declare. -/
theorem value_ofDump_dump (items : List Item) :
    (Signature.ofDump (Item.dump items)).value = items.filterMap Item.signature? := by
  have hall := all_items_append items []
  have hnil : AliasBlock.form.all [] = [] := by rw [Form.all]
  rw [List.append_nil, hnil, List.append_nil] at hall
  rw [Signature.value_ofDump, AliasBlock.ofDump, Item.dump, String.toList_ofList,
    unifyLineEnds_ofLines (isLine_of_mem_items items), hall, signature_block?]

/-- Reading a well-formed dump gives the signatures that its items declare, in order, and one report
for each dropped line. -/
theorem ofDump_dump (items : List Item) :
    Signature.ofDump (Item.dump items) =
      ⟨items.filterMap Item.signature?,
        (items.filterMap Item.signature?).flatMap Signature.events⟩ := by
  rw [← value_ofDump_dump]
  rfl

end CallTable
