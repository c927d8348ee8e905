import CallTable.Proofs.Signature.Block
import CallTable.Proofs.Signature.Match

/-!
# Whose parameters an alias gets

The reader may pass over one line between the header of an alias and the line that opens a parameter
list. If another alias begins on one of these two lines, the list that is read belongs to that alias
and not to the one that is named. `holdsHeader_iff` says where the other header can stand, and the
main result, `ofDump_holdsHeader_iff`, holds of every dump: the matches from which its signatures
are read stand in it in order, one of them holds the header of another alias exactly if the lines
up to its opener are crowded, and in a dump without such lines no match does. Lines may well be
crowded: `parameters_of_next_alias` shows an alias of a plain type that takes the parameters of the
alias on the next line.
-/

namespace CallTable

open Text

/-- Two aliases begin on the line that opens a parameter list and the line before it. -/
def IsCrowded (text : List Char) : Prop :=
  ∃ gap start, (gap ++ start).count '\n' ≤ 1 ∧
    AliasBlock.keyword ++ gap ++ AliasBlock.keyword ++ start ++ AliasBlock.opener ++ ['\n'] <:+:
      text

/-- Where a part of a text is crowded, the text is. -/
theorem IsCrowded.mono {part text : List Char} (h : IsCrowded part) (hpart : part <:+: text) :
    IsCrowded text := by
  obtain ⟨gap, start, hcount, hinside⟩ := h
  exact ⟨gap, start, hcount, hinside.trans hpart⟩

namespace AliasMatch

/-- The lines of the match up to the opener of its list, which ends the last of them. -/
def opening (found : AliasMatch) : List Char :=
  found.stretch ++ AliasBlock.opener ++ ['\n']

/-- After its start, the text from the header up to the opener holds the header of another
alias. -/
def HoldsHeader (found : AliasMatch) : Prop :=
  AliasBlock.keyword <:+: found.stretch.tail

theorem stretch_eq_cons (found : AliasMatch) : found.stretch = 'p' :: found.stretch.tail :=
  rfl

theorem opening_prefix_text (found : AliasMatch) : found.opening <+: found.text :=
  ⟨found.receiver ++ ',' :: found.body, by simp [opening, text]⟩

/-- At most one line feed stands between a header and the opener. -/
theorem count_feed_between_le (found : AliasMatch) : found.between.count '\n' ≤ 1 := by
  have hstart : found.start.count '\n' = 0 := List.count_eq_zero_of_not_mem found.feed_not_mem_start
  rw [between]
  cases hbridged : found.bridged with
  | none => simp [hstart]
  | some line =>
      have hline : line.count '\n' = 0 :=
        List.count_eq_zero_of_not_mem (found.feed_not_mem_bridged line hbridged)
      simp [hstart, hline]

/-- Another header stands in a match exactly if it stands on the bridged line or before the opener
on the line of the opener. -/
theorem holdsHeader_iff (found : AliasMatch) :
    found.HoldsHeader ↔ AliasBlock.keyword <:+: found.start ∨
      ∃ line ∈ found.bridged, AliasBlock.keyword <:+: line := by
  rw [HoldsHeader, stretch, AliasBlock.keyword_infix_tail_iff found.name_isWord, between]
  cases found.bridged with
  | none => simp
  | some line =>
      simp only [Option.mem_some_iff, exists_eq_left']
      constructor
      · exact fun h => (infix_of_infix_append_cons h (by decide)).symm
      · rintro (h | h)
        · exact h.trans ((List.suffix_cons '\n' _).trans (List.suffix_append line _)).isInfix
        · exact h.trans (List.prefix_append line _).isInfix

/-- A match holds another header exactly if its lines up to the opener are crowded. -/
theorem holdsHeader_iff_isCrowded (found : AliasMatch) :
    found.HoldsHeader ↔ IsCrowded found.opening := by
  constructor
  · intro h
    rw [HoldsHeader, stretch, AliasBlock.keyword_infix_tail_iff found.name_isWord] at h
    obtain ⟨gap, start, hbetween⟩ := h
    refine ⟨found.name ++ AliasBlock.equals ++ gap, start, ?_, ?_⟩
    · have hname : found.name.count '\n' = 0 :=
        List.count_eq_zero_of_not_mem (found.name_isWord.not_mem rfl)
      have hequals : AliasBlock.equals.count '\n' = 0 := by decide
      have hkeyword : AliasBlock.keyword.count '\n' = 0 := by decide
      have hle := found.count_feed_between_le
      simp only [← hbetween, List.count_append] at hle ⊢
      omega
    · rw [opening, stretch, ← hbetween]
      simp only [List.append_assoc]
      exact List.infix_rfl
  · rintro ⟨gap, start, -, before, after, hinside⟩
    -- The second header stands behind the first character of the match, and before the opener.
    have hlater : AliasBlock.keyword <:+: found.opening.tail := by
      rw [← hinside]
      cases before with
      | nil =>
          refine ⟨AliasBlock.keyword.tail ++ gap, start ++ AliasBlock.opener ++ ['\n'] ++ after, ?_⟩
          simp [AliasBlock.keyword_eq]
      | cons c before =>
          refine ⟨before ++ AliasBlock.keyword ++ gap,
            start ++ AliasBlock.opener ++ ['\n'] ++ after, ?_⟩
          simp
    have hopening : found.opening.tail = found.stretch.tail ++ 'f' :: ['n', '(', '\n'] := by
      have hopener : AliasBlock.opener = ['f', 'n', '('] := by decide
      rw [opening, stretch_eq_cons, hopener]
      simp
    rw [hopening] at hlater
    rcases infix_of_infix_append_cons hlater (by decide) with hstretch | hend
    · exact hstretch
    · have hlength := hend.length_le
      simp [AliasBlock.keyword_eq] at hlength

end AliasMatch

/-- The signatures of any dump are read from matches that stand in it in order and without overlap.
The text of a match from its header up to the opener of its list holds the header of another alias
exactly if two aliases begin on the line of the opener and the line before it. In a dump in which
this is so nowhere, every match holds its own header alone. -/
theorem ofDump_holdsHeader_iff (dump : String) :
    ∃ (found : List (List Char × AliasMatch)) (last : List Char),
      unifyLineEnds dump.toList = found.flatMap (fun part => part.1 ++ part.2.text) ++ last ∧
        (Signature.ofDump dump).value = found.map (·.2.block.signature) ∧
        (∀ part ∈ found, part.2.HoldsHeader ↔ IsCrowded part.2.opening) ∧
        (¬ IsCrowded (unifyLineEnds dump.toList) → ∀ part ∈ found, ¬ part.2.HoldsHeader) := by
  obtain ⟨found, last, htext, hblocks⟩ := AliasBlock.ofDump_matches dump
  refine ⟨found, last, htext, ?_, fun part _ => part.2.holdsHeader_iff_isCrowded, ?_⟩
  · rw [Signature.value_ofDump, hblocks, List.map_map]
    rfl
  · intro hdump part hpart hholds
    refine hdump ((part.2.holdsHeader_iff_isCrowded.1 hholds).mono ?_)
    have hmatch : part.2.text <:+: found.flatMap (fun part => part.1 ++ part.2.text) :=
      (List.suffix_append part.1 _).isInfix.trans
        (List.infix_of_mem_flatten (List.mem_map_of_mem hpart))
    rw [htext]
    exact (part.2.opening_prefix_text.isInfix.trans hmatch).trans
      (List.prefix_append _ last).isInfix

/-- The header of a plain alias, its line bridged, and the list of the alias on the next line. -/
def mixedMatch : AliasMatch where
  name := "A".toList
  bridged := some "u32;".toList
  start := "pub type PFOO = Option<unsafe extern \"C\" ".toList
  receiver := "    encoder: *mut c_void".toList
  body := "\n    x: u32,\n".toList
  name_isWord := by decide
  bridged_ne_nil := by decide
  feed_not_mem_bridged := by decide
  feed_not_mem_start := by decide
  feed_not_mem_receiver := by decide
  has_marker := ⟨"    ".toList, ": *mut c_void".toList, rfl⟩
  body_ne_nil := by decide
  closer_not_mem_body := by decide

/-- A plain alias on the line before an alias that opens its list on its own line. -/
def mixedDump : String :=
  "pub type A = u32;\n" ++
    "pub type PFOO = Option<unsafe extern \"C\" fn(\n" ++
    "    encoder: *mut c_void,\n" ++
    "    x: u32,\n" ++
    ") -> NVENCSTATUS>;\n"

/-- The plain alias takes the parameters of the alias on the next line, which is read nowhere. -/
theorem parameters_of_next_alias :
    mixedMatch.text <+: mixedDump.toList ∧
      (Signature.ofDump mixedDump).value = [mixedMatch.block.signature] ∧
      mixedMatch.block.signature = ⟨"A", [⟨"x", "u32"⟩], []⟩ ∧ mixedMatch.HoldsHeader := by
  have htext : mixedDump.toList = mixedMatch.text ++ (") -> NVENCSTATUS>;".toList ++ ['\n']) := by
    decide +kernel
  have hread : AliasBlock.form.read? (mixedMatch.text ++ (") -> NVENCSTATUS>;".toList ++ ['\n'])) =
      some (mixedMatch.block, ") -> NVENCSTATUS>;".toList ++ ['\n']) := rfl
  have hend : ¬ AliasBlock.keyword <:+: ") -> NVENCSTATUS>;".toList := fun h =>
    absurd (h.subset (show 'p' ∈ AliasBlock.keyword by decide)) (by decide)
  refine ⟨⟨_, htext.symm⟩, ?_, by decide +kernel,
    mixedMatch.holdsHeader_iff.2 (.inl ⟨[], "PFOO = Option<unsafe extern \"C\" ".toList, rfl⟩)⟩
  rw [Signature.value_ofDump, AliasBlock.ofDump, htext, unifyLineEnds_of_not_mem (by decide),
    AliasBlock.form.all_of_some hread, AliasBlock.all_line_append hend, Form.all,
    List.map_singleton]

end CallTable
