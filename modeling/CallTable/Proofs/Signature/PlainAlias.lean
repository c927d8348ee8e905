import CallTable.Proofs.Signature.Dump
import Mathlib.Data.List.Chain

/-!
# Aliases of plain types between blocks

A signature dump also holds aliases of types that are no functions, each on one line. Such a line
is passed over like noise, unless the next line opens the parameter list of a block on the line of
its own header: then the list is read as that of the plain alias, and the alias of the block is not
read at all. `value_ofDump_parts` says what is read of dumps in which plain aliases stand anywhere
between the blocks, and `value_ofDump_parts_iff` which of these dumps are read as they are declared.
-/

namespace CallTable

open Text

/-- An alias of a type that is no function. -/
structure PlainAlias where
  name : List Char
  type : List Char
  name_isWord : IsWord name
  type_ne_nil : type ≠ []
  type_isPlain : IsPlain type
  not_opens : ¬ AliasBlock.opener <:+ type

/-- The line of the alias. -/
def PlainAlias.line (plain : PlainAlias) : List Char :=
  AliasBlock.keyword ++ plain.name ++ AliasBlock.equals ++ plain.type

/-- A part of a dump: a plain alias on a line of its own, or an item. A line of noise opens no
parameter list. -/
inductive DumpPart where
  | plainAlias (plain : PlainAlias)
  | item (item : Item)
      (not_opens : ∀ line isPlain, item = .noise line isPlain → ¬ AliasBlock.opener <:+ line)

namespace DumpPart

/-- The lines of the part. -/
def lines : DumpPart → List (List Char)
  | plainAlias plain => [plain.line]
  | item content _ => content.lines

/-- The signature that the part declares, if it calls for a wrapper. -/
def signature? : DumpPart → Option Signature
  | plainAlias _ => none
  | item content _ => content.signature?

/-- The text of a dump that consists of the parts. -/
def dump (parts : List DumpPart) : String :=
  String.ofList (ofLines (parts.flatMap lines))

end DumpPart

/-- The name under which the parameters of a block are read. It is the name of the block, or that of
the plain alias on the line before it, if the block opens its list on its first line. -/
def Candidate.owner (block : Candidate) : Option PlainAlias → List Char
  | none => block.head.name
  | some plain =>
    match block.head.opening with
    | .sameLine .. => plain.name
    | .nextLine .. => block.head.name

/-- What is read of an item, if the given plain alias stands on the line before it. -/
def Item.readAfter (before : Option PlainAlias) : Item → Option Signature
  | .candidate block =>
    some { block.signature with pointerType := String.ofList (block.owner before) }
  | _ => none

/-- What is read of parts, if the given plain alias stands on the line before them. -/
def readParts : Option PlainAlias → List DumpPart → List Signature
  | _, [] => []
  | _, .plainAlias plain :: parts => readParts (some plain) parts
  | before, .item item _ :: parts => (item.readAfter before).toList ++ readParts none parts

/-! ## A plain alias before a text -/

namespace AliasBlock

/-- A line with a header ends in the opener exactly if what follows the header does. -/
theorem opener_suffix_iff (name more : List Char) :
    opener <:+ keyword ++ name ++ equals ++ more ↔ opener <:+ more := by
  have hsplit : keyword ++ name ++ equals ++ more =
      (keyword ++ name ++ [' ', '=']) ++ ' ' :: more := by
    have hequals : equals = [' ', '=', ' '] := by decide
    simp [hequals]
  rw [hsplit]
  constructor
  · exact fun h => suffix_of_suffix_append_cons h (by decide)
  · exact fun h => h.trans ((List.suffix_cons ' ' more).trans (List.suffix_append _ _))

/-- No function is read from a line that does not open a parameter list. -/
theorem readFunction?_line_eq_none {line : List Char} (hfeed : '\n' ∉ line)
    (h : ¬ opener <:+ line) (text : List Char) : readFunction? (line ++ '\n' :: text) = none := by
  rw [readFunction?_line hfeed, if_neg h]

/-- From a head, a function is read if its first line opens the list. -/
theorem readFunction?_head (head : AliasHead) (text : List Char) :
    readFunction? (ofLines head.lines ++ text) =
      match head.opening with
      | .sameLine .. => (afterReceiver? text).map fun rest =>
          (rest.takeWhile (· ≠ ')'), rest.dropWhile (· ≠ ')'))
      | .nextLine .. => none := by
  have hfeed := (head.isLine_of_mem_lines _ List.mem_cons_self).feed_not_mem
  rw [AliasHead.lines, ofLines_cons, List.append_assoc, List.cons_append, readFunction?_line hfeed]
  obtain ⟨name, hname, opening⟩ := head
  cases opening with
  | sameLine line hline hopens => exact if_pos ((opener_suffix_iff name line).2 hopens)
  | nextLine first line hne hfirst hcloses =>
      exact if_neg fun h => hcloses ((opener_suffix_iff name first).1 h)

/-- From a head and a line without the marker, no function is read. -/
theorem readFunction?_bypass (head : AliasHead) (bypass : Bypass) (text : List Char) :
    readFunction? (ofLines head.lines ++ (bypass.line ++ '\n' :: text)) = none := by
  rw [readFunction?_head, afterReceiver?_eq_none bypass.isPlain.feed_not_mem bypass.lacks_marker]
  cases head.opening <;> rfl

end AliasBlock

namespace PlainAlias

/-- The line of a plain alias opens no parameter list. -/
theorem not_opener_suffix_line (plain : PlainAlias) : ¬ AliasBlock.opener <:+ plain.line :=
  fun h => plain.not_opens ((AliasBlock.opener_suffix_iff plain.name plain.type).1 h)

theorem isLine_line (plain : PlainAlias) : IsLine plain.line := by
  have hkeyword : '\n' ∉ AliasBlock.keyword := by decide
  have hequals : '\n' ∉ AliasBlock.equals := by decide
  have hname : '\n' ∉ plain.name := plain.name_isWord.not_mem rfl
  constructor
  · simp [line, hkeyword, hequals, hname, plain.type_isPlain.feed_not_mem]
  · have hlast := List.getLast?_eq_some_getLast plain.type_ne_nil
    rw [line, List.getLast?_append, hlast, Option.some_or, ← hlast]
    exact plain.type_isPlain.getLast?_ne

/-- Of a plain alias, a function on the lines after it is read, if there is one. -/
theorem read?_line (plain : PlainAlias) (text : List Char) :
    AliasBlock.read? (plain.line ++ '\n' :: text) =
      (AliasBlock.readFunction? text).map fun (body, rest) => (⟨plain.name, body⟩, rest) := by
  have hfeed := plain.type_isPlain.feed_not_mem
  rw [line, List.append_assoc, AliasBlock.read?_keyword plain.name_isWord,
    AliasBlock.afterLine?_line hfeed plain.type_ne_nil,
    AliasBlock.readFunction?_line_eq_none hfeed plain.not_opens, Option.or_none,
    Option.bind_eq_bind, Option.bind_some]

/-- The search passes past a plain alias if no function follows it. -/
theorem all_line_append (plain : PlainAlias) {text : List Char}
    (h : AliasBlock.readFunction? text = none) :
    AliasBlock.form.all (plain.line ++ '\n' :: text) = AliasBlock.form.all text := by
  have hnone : AliasBlock.form.read? (plain.line ++ '\n' :: text) = none := by
    show AliasBlock.read? _ = none
    rw [plain.read?_line, h, Option.map_none]
  have hlater : ¬ AliasBlock.keyword <:+: plain.line.tail := by
    rw [line, AliasBlock.keyword_infix_tail_iff plain.name_isWord]
    exact plain.type_isPlain.lacks_keyword
  have hcons : plain.line = 'p' :: plain.line.tail := rfl
  rw [hcons, List.cons_append] at hnone ⊢
  rw [AliasBlock.form.all_of_none hnone, AliasBlock.all_line_append hlater]

/-- Before a block, the search finds the parameters of the block, under the name of the plain alias
if the block opens its list on its first line. -/
theorem all_line_candidate (plain : PlainAlias) (block : Candidate) (rest : List Char) :
    AliasBlock.form.all (plain.line ++ '\n' :: (ofLines block.lines ++ rest)) =
      ⟨block.owner (some plain), block.block.body⟩ :: AliasBlock.form.all rest := by
  have hfunction := AliasBlock.readFunction?_head block.head
    (block.receiver.line ++ '\n' :: (block.list ++ ')' :: (block.closing ++ '\n' :: rest)))
  rw [← block.ofLines_lines] at hfunction
  cases hopening : block.head.opening with
  | sameLine line hline hopens =>
      -- The line after that of the plain alias opens the list, so the block is read under its name.
      have hrun : ∀ c ∈ '\n' :: block.list, decide (c ≠ ')') = true := fun c hc =>
        decide_eq_true fun hclose => by
          simpa [block.closer_not_mem_list] using (hclose ▸ hc : ')' ∈ '\n' :: block.list)
      rw [hopening, AliasBlock.afterReceiver?_receiver, ← List.cons_append] at hfunction
      simp only [Option.map_some] at hfunction
      rw [takeWhile_append_of_stop hrun (by simp), dropWhile_append_of_stop hrun (by simp)]
        at hfunction
      have hread : AliasBlock.form.read? (plain.line ++ '\n' :: (ofLines block.lines ++ rest)) =
          some (⟨plain.name, '\n' :: block.list⟩, ')' :: (block.closing ++ '\n' :: rest)) := by
        show AliasBlock.read? _ = _
        rw [plain.read?_line, hfunction, Option.map_some]
      rw [AliasBlock.form.all_of_some hread, AliasBlock.all_closing block.closing_lacks_keyword,
        Candidate.owner, hopening]
      rfl
  | nextLine first line hne hfirst hcloses =>
      -- The line after that of the plain alias opens no list, and the search gets to the block.
      rw [hopening] at hfunction
      have hblock := all_item_append (.candidate block) rest
      rw [plain.all_line_append hfunction, Candidate.owner, hopening]
      exact hblock

/-- The text after the line of a plain alias, if there is one. -/
def precede : Option PlainAlias → List Char → List Char
  | none, text => text
  | some plain, text => plain.line ++ '\n' :: text

/-- The search passes past what stands before a text from which no function is read. -/
theorem all_precede (before : Option PlainAlias) {text : List Char}
    (h : AliasBlock.readFunction? text = none) :
    AliasBlock.form.all (precede before text) = AliasBlock.form.all text := by
  cases before with
  | none => rfl
  | some plain => exact plain.all_line_append h

end PlainAlias

/-! ## Reading a dump -/

/-- A block under another name declares the same under that name. -/
theorem Candidate.signature_renamed (block : Candidate) (name : List Char) :
    AliasBlock.signature ⟨name, block.block.body⟩ =
      { block.signature with pointerType := String.ofList name } := by
  rw [← block.signature_block]
  rfl

/-- What the search finds of an item declares what is read of it, whatever stands on the line before
it, and the search goes on after the item. -/
theorem Item.map_signature_all_precede (before : Option PlainAlias) (item : Item)
    (hopens : ∀ line isPlain, item = .noise line isPlain → ¬ AliasBlock.opener <:+ line)
    (rest : List Char) :
    (AliasBlock.form.all (PlainAlias.precede before (ofLines item.lines ++ rest))).map
        AliasBlock.signature =
      (item.readAfter before).toList ++ (AliasBlock.form.all rest).map AliasBlock.signature := by
  cases item with
  | candidate block =>
      have hall : AliasBlock.form.all (PlainAlias.precede before (ofLines block.lines ++ rest)) =
          ⟨block.owner before, block.block.body⟩ :: AliasBlock.form.all rest := by
        cases before with
        | none => exact all_item_append (.candidate block) rest
        | some plain => exact plain.all_line_candidate block rest
      rw [Item.lines, hall, List.map_cons, block.signature_renamed]
      rfl
  | other head bypass further hfurther =>
      have hlines : ofLines (Item.other head bypass further hfurther).lines ++ rest =
          ofLines head.lines ++ (bypass.line ++ '\n' :: (ofLines further ++ rest)) := by
        simp [Item.lines, ofLines]
      have hnone := AliasBlock.readFunction?_bypass head bypass (ofLines further ++ rest)
      rw [← hlines] at hnone
      rw [PlainAlias.all_precede before hnone, all_item_append]
      rfl
  | noise line hplain =>
      have hlines : ofLines (Item.noise line hplain).lines ++ rest = line ++ '\n' :: rest := by
        simp [Item.lines, ofLines]
      have hnone := AliasBlock.readFunction?_line_eq_none hplain.feed_not_mem
        (hopens line hplain rfl) rest
      rw [← hlines] at hnone
      rw [PlainAlias.all_precede before hnone, all_item_append]
      rfl

/-- What the search finds in parts declares what is read of them. The induction is on the parts; a
plain alias is carried along because the part after it decides what becomes of it. -/
theorem map_signature_all_parts (before : Option PlainAlias) (parts : List DumpPart) :
    (AliasBlock.form.all (PlainAlias.precede before
      (ofLines (parts.flatMap DumpPart.lines)))).map AliasBlock.signature =
        readParts before parts := by
  induction parts generalizing before with
  | nil =>
      have hnone : AliasBlock.readFunction? (ofLines []) = none := rfl
      rw [List.flatMap_nil, PlainAlias.all_precede before hnone, ofLines, List.flatMap_nil,
        Form.all, List.map_nil, readParts]
  | cons part parts ih =>
      rw [List.flatMap_cons, ofLines_append]
      cases part with
      | plainAlias plain =>
          have hline : ofLines (DumpPart.plainAlias plain).lines ++
              ofLines (parts.flatMap DumpPart.lines) =
                plain.line ++ '\n' :: ofLines (parts.flatMap DumpPart.lines) := by
            simp [DumpPart.lines, ofLines]
          have hnone := AliasBlock.readFunction?_line_eq_none plain.isLine_line.feed_not_mem
            plain.not_opener_suffix_line (ofLines (parts.flatMap DumpPart.lines))
          rw [hline, PlainAlias.all_precede before hnone]
          exact ih (some plain)
      | item item hopens =>
          have hnext := ih none
          rw [PlainAlias.precede] at hnext
          rw [DumpPart.lines, Item.map_signature_all_precede before item hopens, hnext, readParts]

theorem DumpPart.isLine_of_mem_lines (part : DumpPart) : ∀ line ∈ part.lines, IsLine line := by
  cases part with
  | plainAlias plain => simpa [lines] using plain.isLine_line
  | item item => exact item.isLine_of_mem_lines

/-- A dump of parts is read as its parts are, from the first one on. -/
theorem value_ofDump_parts (parts : List DumpPart) :
    (Signature.ofDump (DumpPart.dump parts)).value = readParts none parts := by
  have hlines : ∀ line ∈ parts.flatMap DumpPart.lines, IsLine line := by
    intro line hline
    obtain ⟨part, -, hline⟩ := List.mem_flatMap.1 hline
    exact part.isLine_of_mem_lines line hline
  rw [Signature.value_ofDump, AliasBlock.ofDump, DumpPart.dump, String.toList_ofList,
    unifyLineEnds_ofLines hlines]
  exact map_signature_all_parts none parts

/-- After a plain alias, the part is no block that opens its list on its first line, unless both
have one name. -/
def KeepsName (part next : DumpPart) : Prop :=
  ∀ plain block opens, part = .plainAlias plain → next = .item (.candidate block) opens →
    block.owner (some plain) = block.head.name

/-- An item is read as it is declared exactly if its parameters keep their name. -/
theorem Item.readAfter_eq_iff (before : Option PlainAlias) (item : Item) :
    item.readAfter before = item.signature? ↔
      ∀ plain ∈ before, ∀ block, item = .candidate block →
        block.owner (some plain) = block.head.name := by
  cases item with
  | candidate block =>
      cases before with
      | none => simp [readAfter, signature?, Candidate.owner, Candidate.signature]
      | some plain => simp [readAfter, signature?, Candidate.signature, String.ofList_inj]
  | other => simp [readAfter, signature?]
  | noise => simp [readAfter, signature?]

/-- As many signatures are read of an item as it declares. -/
theorem Item.length_readAfter (before : Option PlainAlias) (item : Item) :
    (item.readAfter before).toList.length = item.signature?.toList.length := by
  cases item <;> rfl

/-- Parts are read as they are declared exactly if each keeps its name after the one before it. -/
theorem readParts_eq_iff (before : Option PlainAlias) (parts : List DumpPart) :
    readParts before parts = parts.filterMap DumpPart.signature? ↔
      (before.toList.map DumpPart.plainAlias ++ parts).IsChain KeepsName := by
  induction parts generalizing before with
  | nil => cases before <;> simp [readParts]
  | cons part parts ih =>
      cases part with
      | plainAlias plain =>
          have hread : readParts before (.plainAlias plain :: parts) =
              readParts (some plain) parts := rfl
          rw [hread, List.filterMap_cons_none rfl, ih (some plain)]
          cases before with
          | none => rfl
          | some other =>
              have hkeeps : KeepsName (.plainAlias other) (.plainAlias plain) := by
                simp [KeepsName]
              simp [List.isChain_cons_cons, hkeeps]
      | item item hopens =>
          have hrest : (DumpPart.item item hopens :: parts).IsChain KeepsName ↔
              parts.IsChain KeepsName := by
            simp [List.isChain_cons, KeepsName]
          have hdeclared : (DumpPart.item item hopens :: parts).filterMap DumpPart.signature? =
              item.signature?.toList ++ parts.filterMap DumpPart.signature? := by
            rw [List.filterMap_cons]
            cases hsignature : (DumpPart.item item hopens).signature? <;>
              simp [show item.signature? = _ from hsignature]
          have hread : (item.readAfter before).toList = item.signature?.toList ↔
              item.readAfter before = item.signature? := by
            cases item <;> simp [Item.readAfter, Item.signature?]
          have hsplit (later later' : List Signature) :
              (item.readAfter before).toList ++ later = item.signature?.toList ++ later' ↔
                (item.readAfter before).toList = item.signature?.toList ∧ later = later' :=
            ⟨fun h => List.append_inj h (item.length_readAfter before),
              fun ⟨hitem, hlater⟩ => by rw [hitem, hlater]⟩
          rw [readParts, hdeclared, hsplit, hread, Item.readAfter_eq_iff, ih none]
          cases before with
          | none => simp [hrest]
          | some plain =>
              have hkeeps : KeepsName (.plainAlias plain) (.item item hopens) ↔
                  ∀ block, item = .candidate block →
                    block.owner (some plain) = block.head.name :=
                ⟨fun h block hitem => h plain block (hitem ▸ hopens) rfl (by simp [hitem]),
                  fun h _ block _ hplain hitem => by
                    cases hplain; cases hitem; exact h block rfl⟩
              simp [List.isChain_cons_cons, hrest, hkeeps]

/-- A dump of parts is read as its blocks are declared exactly if no plain alias stands right before
a block that opens its list on its first line. -/
theorem value_ofDump_parts_iff (parts : List DumpPart) :
    (Signature.ofDump (DumpPart.dump parts)).value = parts.filterMap DumpPart.signature? ↔
      parts.IsChain KeepsName := by
  rw [value_ofDump_parts]
  exact readParts_eq_iff none parts

end CallTable
