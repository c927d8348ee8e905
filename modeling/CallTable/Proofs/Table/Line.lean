import CallTable.Proofs.Table.Match

/-!
# Lines of a table dump

A line of a table dump declares two columns, with any blanks around them, or it is noise that lacks
the first word of a declaration or a colon. No declaration begins in noise, and one that begins on
a line ends at the comma of that line, whatever colons, commas and words the columns hold. So the
search takes one line at a time (`all_line_append`), and `ofDump_tableLines` says that a dump of
such lines is read as the declarations of its lines, in order.
-/

namespace CallTable

open Text

/-- Blanks that can stand inside a line. -/
def IsSpacing (text : List Char) : Prop :=
  ∀ c ∈ text, isBlank c = true ∧ c ≠ '\n'

instance (text : List Char) : Decidable (IsSpacing text) :=
  decidable_of_iff (text.all (fun c => isBlank c && c != '\n') = true) (by simp [IsSpacing])

namespace IsSpacing

theorem blank {text : List Char} (h : IsSpacing text) : ∀ c ∈ text, isBlank c = true :=
  fun c hc => (h c hc).1

theorem feed_not_mem {text : List Char} (h : IsSpacing text) : '\n' ∉ text :=
  fun hc => (h '\n' hc).2 rfl

/-- Spaces are spacing, any number of them. -/
theorem replicate (count : Nat) : IsSpacing (List.replicate count ' ') := by
  intro c hc
  obtain rfl : c = ' ' := List.eq_of_mem_replicate hc
  decide

end IsSpacing

/-- A line that declares two columns, with the blanks before, between and after them. -/
structure ColumnLine where
  margin : List Char
  left : List Char
  gap : List Char
  right : List Char
  trail : List Char
  margin_isSpacing : IsSpacing margin := by decide
  left_isWord : IsWord left := by decide
  gap_ne_nil : gap ≠ [] := by decide
  gap_isSpacing : IsSpacing gap := by decide
  right_isWord : IsWord right := by decide
  trail_isSpacing : IsSpacing trail := by decide

namespace ColumnLine

/-- The line itself. -/
def text (line : ColumnLine) : List Char :=
  line.margin ++ (Declaration.keyword ++
    (line.left ++ ':' :: (line.gap ++ (line.right ++ ',' :: line.trail))))

/-- What the line declares. -/
def declaration (line : ColumnLine) : Declaration :=
  ⟨String.ofList line.left, String.ofList line.right⟩

end ColumnLine

/-- A line of a table dump. -/
inductive TableLine where
  | declared (line : ColumnLine)
  | noise (text : List Char) (feed_not_mem : '\n' ∉ text)
      (lacks : ¬ Declaration.keyword <:+: text ∨ ':' ∉ text)

namespace TableLine

/-- The line itself. -/
def text : TableLine → List Char
  | declared line => line.text
  | noise text .. => text

/-- What the line declares, if it is not noise. -/
def declaration? : TableLine → Option Declaration
  | declared line => some line.declaration
  | noise .. => none

/-- The dump that consists of the lines. -/
def dump (lines : List TableLine) : String :=
  String.ofList (ofLines (lines.map text))

theorem feed_not_mem_text : ∀ line : TableLine, '\n' ∉ line.text
  | declared line => by
      have hkeyword : '\n' ∉ Declaration.keyword := by decide
      have hleft : '\n' ∉ line.left := line.left_isWord.not_mem rfl
      have hright : '\n' ∉ line.right := line.right_isWord.not_mem rfl
      simp [text, ColumnLine.text, hkeyword, hleft, hright, line.margin_isSpacing.feed_not_mem,
        line.gap_isSpacing.feed_not_mem, line.trail_isSpacing.feed_not_mem]
  | noise _ feed_not_mem _ => feed_not_mem

end TableLine

/-! ## Reading one declaration -/

namespace Declaration

/-- Two columns are read whatever follows their line, if it does not go on with a visible
character. -/
theorem read?_columns {left gap right rest : List Char} (hleft : IsWord left) (hne : gap ≠ [])
    (hgap : ∀ c ∈ gap, isBlank c = true) (hright : IsWord right)
    (hrest : rest.head?.any isVisible = false) :
    read? (keyword ++ (left ++ ':' :: (gap ++ (right ++ ',' :: rest)))) =
      some (⟨String.ofList left, String.ofList right⟩, rest) := by
  have hrun : ([] ++ rest).takeWhile isVisible = [] :=
    takeWhile_append_of_stop (List.forall_mem_nil _) hrest
  have hcomma : ',' ∉ rest.takeWhile isVisible := by
    rw [← List.nil_append rest, hrun]
    exact List.not_mem_nil
  have hread := read?_text_append ⟨left, gap, right, hleft, hne, hgap, hright⟩ hcomma
  simpa [DeclarationMatch.text, DeclarationMatch.declaration] using hread

/-- Where a declaration is read, its first word, visible characters and a colon stand in a row. -/
theorem exists_label_of_read? {text rest : List Char} {declaration : Declaration}
    (h : read? text = some (declaration, rest)) :
    ∃ left, (∀ c ∈ left, isVisible c = true) ∧ keyword ++ left ++ [':'] <+: text := by
  obtain ⟨found, -, rfl, -⟩ := exists_match_of_read? h
  refine ⟨found.left, found.left_isWord.2, found.gap ++ (found.right ++ [',']) ++ rest, ?_⟩
  simp [DeclarationMatch.text]

/-! ## Passing past blanks and noise -/

/-- The search passes past a line, or the rest of one, that lacks the first word of a declaration or
a colon. -/
theorem all_noise_append {line : List Char} (h : ¬ keyword <:+: line ∨ ':' ∉ line)
    (rest : List Char) : form.all (line ++ '\n' :: rest) = form.all rest := by
  have hsplit : line ++ '\n' :: rest = (line ++ ['\n']) ++ rest := by simp
  rw [hsplit]
  refine form.all_append_of_none fun tail htail hne => ?_
  obtain ⟨part, rfl, hpart⟩ := (List.suffix_concat_iff.1 htail).resolve_left hne
  cases hread : form.read? (part ++ ['\n'] ++ rest) with
  | none => rfl
  | some found =>
      -- What would be read begins with a label, and no label holds a line feed.
      obtain ⟨left, hleft, hlabel⟩ := exists_label_of_read? hread
      have hfeed : '\n' ∉ keyword ++ left ++ [':'] := by
        have hrun : '\n' ∉ left := fun hc => absurd (hleft _ hc) (by decide)
        have hkeyword : '\n' ∉ keyword := by decide
        simp [hrun, hkeyword]
      rw [List.append_assoc part, List.singleton_append] at hlabel
      have hline : keyword ++ left ++ [':'] <:+: line :=
        (prefix_of_prefix_append_cons hlabel hfeed).isInfix.trans hpart.isInfix
      rcases h with hlacks | hlacks
      · exact absurd (((List.prefix_append keyword left).trans
          (List.prefix_append _ _)).isInfix.trans hline) hlacks
      · exact absurd (hline.subset (by simp)) hlacks

/-- The search passes past blanks. -/
theorem all_blank_append {blanks : List Char} (h : ∀ c ∈ blanks, isBlank c = true)
    (rest : List Char) : form.all (blanks ++ rest) = form.all rest := by
  refine form.all_append_of_none fun tail htail hne => ?_
  obtain ⟨c, tail, rfl⟩ := List.exists_cons_of_ne_nil hne
  have hc : isBlank c = true := h c (htail.subset List.mem_cons_self)
  cases hread : form.read? (c :: tail ++ rest) with
  | none => rfl
  | some found =>
      obtain ⟨left, -, more, hmore⟩ := exists_label_of_read? hread
      obtain rfl : 'p' = c := (List.cons.inj hmore).1
      exact absurd hc (by decide)

/-- The search finds what one line declares and goes on after it. -/
theorem all_line_append (line : TableLine) (rest : List Char) :
    form.all (line.text ++ '\n' :: rest) = line.declaration?.toList ++ form.all rest := by
  cases line with
  | declared line =>
      have htrail : (line.trail ++ '\n' :: rest).head?.any isVisible = false := by
        cases htrail : line.trail with
        | nil => rfl
        | cons blank trail =>
            have hblank := line.trail_isSpacing.blank blank (by simp [htrail])
            simpa [isVisible] using hblank
      have hread := read?_columns line.left_isWord line.gap_ne_nil line.gap_isSpacing.blank
        line.right_isWord htrail
      have hlacks : ¬ keyword <:+: line.trail := fun h =>
        not_mem_of_blank line.trail_isSpacing.blank (c := 'p') rfl
          (h.subset (List.mem_cons_self))
      show form.all (line.text ++ '\n' :: rest) = line.declaration :: form.all rest
      rw [ColumnLine.text, List.append_assoc, all_blank_append line.margin_isSpacing.blank]
      simp only [List.append_assoc, List.cons_append]
      rw [form.all_of_some hread, all_noise_append (Or.inl hlacks)]
      rfl
  | noise text hfeed hlacks => exact all_noise_append hlacks rest

/-- The search finds what the lines declare. -/
theorem all_ofLines (lines : List TableLine) :
    form.all (ofLines (lines.map TableLine.text)) = lines.filterMap TableLine.declaration? := by
  induction lines with
  | nil => rw [List.map_nil, ofLines, List.flatMap_nil, Form.all, List.filterMap_nil]
  | cons line lines ih =>
      rw [List.map_cons, ofLines_cons, all_line_append, ih, List.filterMap_cons]
      cases line.declaration? <;> rfl

end Declaration

/-! ## Carriage returns at the ends of lines -/

/-- The line without a carriage return at its end. -/
def dropReturn (line : List Char) : List Char :=
  if line.getLast? = some '\r' then line.dropLast else line

theorem prefix_of_dropReturn (line : List Char) : dropReturn line <+: line := by
  unfold dropReturn
  split
  · exact List.dropLast_prefix line
  · exact List.prefix_rfl

/-- A carriage return at the end of a line stands in the part that ends the line. -/
theorem dropReturn_append_cons (before after : List Char) {c : Char} (hc : c ≠ '\r') :
    dropReturn (before ++ c :: after) = before ++ c :: dropReturn after := by
  cases after with
  | nil => simp [dropReturn, hc]
  | cons d after =>
      have hlast : (before ++ c :: d :: after).getLast? = (d :: after).getLast? := by
        rw [List.getLast?_append, List.getLast?_cons_cons,
          List.getLast?_eq_some_getLast (List.cons_ne_nil d after), Option.some_or]
      rw [dropReturn, dropReturn, hlast]
      split
      · simp
      · rfl

/-- Before a line feed, a carriage return at the end of a line is taken away. -/
theorem unifyLineEnds_feed_line {line : List Char} (h : '\n' ∉ line) (rest : List Char) :
    unifyLineEnds (line ++ '\n' :: rest) = dropReturn line ++ '\n' :: unifyLineEnds rest := by
  unfold dropReturn
  split
  · next hlast =>
    obtain ⟨front, rfl⟩ := List.getLast?_eq_some_iff.1 hlast
    have hfront : '\n' ∉ front := fun hc => h (List.mem_append_left _ hc)
    rw [List.append_assoc, List.singleton_append, unifyLineEnds_line_return hfront,
      List.dropLast_concat]
  · next hlast => exact unifyLineEnds_line ⟨h, hlast⟩ rest

/-- The line without a carriage return at its end is a line of the same kind. -/
def TableLine.dropReturn : TableLine → TableLine
  | declared line =>
      declared { line with
        trail := CallTable.dropReturn line.trail
        trail_isSpacing := fun c hc =>
          line.trail_isSpacing c ((prefix_of_dropReturn line.trail).subset hc) }
  | noise text feed_not_mem lacks =>
      noise (CallTable.dropReturn text)
        (fun hc => feed_not_mem ((prefix_of_dropReturn text).subset hc))
        (lacks.imp (fun h hinside => h (hinside.trans (prefix_of_dropReturn text).isInfix))
          fun h hc => h ((prefix_of_dropReturn text).subset hc))

theorem TableLine.text_dropReturn (line : TableLine) :
    line.dropReturn.text = CallTable.dropReturn line.text := by
  cases line with
  | declared line =>
      have hcomma : line.text = (line.margin ++ (Declaration.keyword ++
          (line.left ++ ':' :: (line.gap ++ line.right)))) ++ ',' :: line.trail := by
        simp [ColumnLine.text]
      show ColumnLine.text _ = CallTable.dropReturn line.text
      rw [hcomma, dropReturn_append_cons _ _ (by decide)]
      simp [ColumnLine.text]
  | noise => rfl

theorem TableLine.declaration?_dropReturn (line : TableLine) :
    line.dropReturn.declaration? = line.declaration? := by
  cases line <;> rfl

/-! ## Reading a dump -/

namespace TableLine

/-- The text that is read of a dump has the same lines without carriage returns at their ends. -/
theorem unifyLineEnds_ofLines (lines : List TableLine) :
    unifyLineEnds (ofLines (lines.map text)) = ofLines ((lines.map dropReturn).map text) := by
  induction lines with
  | nil => rfl
  | cons line lines ih =>
      rw [List.map_cons, ofLines_cons, unifyLineEnds_feed_line line.feed_not_mem_text, ih,
        List.map_cons, List.map_cons, ofLines_cons, text_dropReturn]

/-- A dump is read as what its lines declare, in order. -/
theorem ofDump_tableLines (lines : List TableLine) :
    Declaration.ofDump (dump lines) = lines.filterMap declaration? := by
  have hkept : (lines.map dropReturn).filterMap declaration? = lines.filterMap declaration? := by
    rw [List.filterMap_map]
    exact congrArg (List.filterMap · lines) (funext declaration?_dropReturn)
  rw [Declaration.ofDump, dump, String.toList_ofList, unifyLineEnds_ofLines,
    Declaration.all_ofLines, hkept]

end TableLine

end CallTable
