import CallTable.Generation

/-!
# Dumps with mixed line ends

A dump that went through several tools may end some of its lines in a line feed and others in a
carriage return and a line feed. `unifyLineEnds_text` says that all dumps of the same lines become
one text before they are read; a carriage return inside a line stays in it. Nothing else of a dump
is read, so the main result, `generate_text_congr`, holds of a whole run: its outcome, its sink and
its reports do not depend on how the single lines of either dump end.
-/

namespace CallTable

open Text

/-- How a line ends. -/
inductive LineEnd where
  | feed
  | returnFeed
  deriving DecidableEq, Repr

/-- The characters of a line end. -/
def LineEnd.chars : LineEnd → List Char
  | feed => ['\n']
  | returnFeed => ['\r', '\n']

/-- The text of lines of which each ends in the way that is chosen for its number. -/
def endLines (ends : Nat → LineEnd) : List (List Char) → List Char
  | [] => []
  | line :: lines => line ++ (ends 0).chars ++ endLines (fun number => ends (number + 1)) lines

/-- A dump that leaves open how its lines end: the ended lines, and the last line if it has no
end. -/
structure LinedDump where
  lines : List (List Char)
  last : List Char
  isLine : ∀ line ∈ lines, IsLine line
  last_isLine : IsLine last

/-- The text of the dump for a choice of all line ends. -/
def LinedDump.text (dump : LinedDump) (ends : Nat → LineEnd) : String :=
  String.ofList (endLines ends dump.lines ++ dump.last)

/-! ## Unifying the ends -/

/-- Unifying the ends leaves a line with a line feed after it, however the line ended. -/
theorem unifyLineEnds_chars {line : List Char} (h : IsLine line) (lineEnd : LineEnd)
    (rest : List Char) :
    unifyLineEnds (line ++ lineEnd.chars ++ rest) = line ++ '\n' :: unifyLineEnds rest := by
  cases lineEnd with
  | feed =>
      rw [LineEnd.chars, List.append_assoc]
      exact unifyLineEnds_line h rest
  | returnFeed =>
      rw [LineEnd.chars, List.append_assoc]
      exact unifyLineEnds_line_return h.feed_not_mem rest

/-- Unifying the ends leaves all lines with line feeds after them, however they ended. -/
theorem unifyLineEnds_endLines {lines : List (List Char)} (h : ∀ line ∈ lines, IsLine line)
    (ends : Nat → LineEnd) (rest : List Char) :
    unifyLineEnds (endLines ends lines ++ rest) = ofLines lines ++ unifyLineEnds rest := by
  induction lines generalizing ends with
  | nil => rfl
  | cons line lines ih =>
      obtain ⟨hline, h⟩ := List.forall_mem_cons.1 h
      rw [endLines, List.append_assoc, unifyLineEnds_chars hline, ih h, ofLines_cons,
        List.append_assoc, List.cons_append]

/-- The text that is read of a dump does not depend on the ends of its lines. -/
theorem LinedDump.unifyLineEnds_text (dump : LinedDump) (ends : Nat → LineEnd) :
    unifyLineEnds (dump.text ends).toList = ofLines dump.lines ++ dump.last := by
  have hlast : unifyLineEnds (dump.last ++ []) = dump.last ++ unifyLineEnds [] :=
    unifyLineEnds_append dump.last_isLine.feed_not_mem (by simp)
  rw [text, String.toList_ofList, unifyLineEnds_endLines dump.isLine]
  rw [List.append_nil, unifyLineEnds, List.append_nil] at hlast
  rw [hlast]

/-! ## Reading the unified text -/

/-- Of a table dump, only the unified text is read. -/
theorem finalTable_congr (options : Options) {dump other : String}
    (h : unifyLineEnds dump.toList = unifyLineEnds other.toList) :
    finalTable options dump = finalTable options other := by
  have hdeclarations : Declaration.ofDump dump = Declaration.ofDump other := by
    rw [Declaration.ofDump, h, Declaration.ofDump]
  rw [finalTable, MemberMap.ofDump, Entry.ofDump, hdeclarations]
  rfl

/-- Of a signature dump, only the unified text is read. -/
theorem Signature.ofDump_congr {dump other : String}
    (h : unifyLineEnds dump.toList = unifyLineEnds other.toList) :
    Signature.ofDump dump = Signature.ofDump other := by
  have hblocks : AliasBlock.ofDump dump = AliasBlock.ofDump other := by
    rw [AliasBlock.ofDump, h, AliasBlock.ofDump]
  rw [Signature.ofDump, hblocks, Signature.ofDump]

/-- A run on two dumps does not depend on how their lines end: whatever is chosen for each line of
each dump, the run has the same outcome, with the same report or the same failure, leaves the same
bytes in the sink and reports the same events. -/
theorem generate_text_congr (options : Options) (table signatures : LinedDump)
    (tableEnds otherTableEnds signatureEnds otherSignatureEnds : Nat → LineEnd) (sink : Sink) :
    generate options (table.text tableEnds) (signatures.text signatureEnds) sink =
      generate options (table.text otherTableEnds) (signatures.text otherSignatureEnds) sink := by
  have htable : finalTable options (table.text tableEnds) =
      finalTable options (table.text otherTableEnds) :=
    finalTable_congr options (by rw [table.unifyLineEnds_text, table.unifyLineEnds_text])
  have hsignatures : Signature.ofDump (signatures.text signatureEnds) =
      Signature.ofDump (signatures.text otherSignatureEnds) :=
    Signature.ofDump_congr
      (by rw [signatures.unifyLineEnds_text, signatures.unifyLineEnds_text])
  rw [generate, htable, hsignatures, generate]

end CallTable
