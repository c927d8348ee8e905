import CallTable.Table

/-!
# Places where a declaration is read

Nothing is assumed here of the text. A declaration is read at the head of a text exactly if the text
begins with the parts of a `DeclarationMatch` and no comma follows in the run of visible characters
that the second column belongs to: `read?_eq_some_iff` says so of what is read, and
`read?_eq_none_iff` that a text at whose head nothing is read begins with no such parts. No match
begins inside another one (`keyword_not_infix_tail`), so none reaches into the next.
-/

namespace CallTable

open Text

/-- The parts of a text that is read as a declaration: two columns and the blanks between them. -/
structure DeclarationMatch where
  left : List Char
  gap : List Char
  right : List Char
  left_isWord : IsWord left
  gap_ne_nil : gap ≠ []
  gap_blank : ∀ c ∈ gap, isBlank c = true
  right_isWord : IsWord right

/-- The keyword does not stand in blanks and the visible characters after them. -/
theorem Declaration.keyword_not_infix_blanks_append {blanks run : List Char}
    (hblanks : ∀ c ∈ blanks, isBlank c = true) (hrun : ∀ c ∈ run, isVisible c = true) :
    ¬ keyword <:+: blanks ++ run := by
  induction blanks with
  | nil =>
      intro h
      have hblank : ' ' ∈ run := h.subset (by decide)
      exact absurd (hrun ' ' hblank) (by decide)
  | cons blank blanks ih =>
      obtain ⟨hblank, hblanks⟩ := List.forall_mem_cons.1 hblanks
      intro h
      rcases List.infix_cons_iff.1 h with hbegins | hlater
      · obtain rfl : 'p' = blank := (List.cons_prefix_cons.1 hbegins).1
        exact absurd hblank (by decide)
      · exact ih hblanks hlater

namespace DeclarationMatch

/-- The whole text of the match. -/
def text (found : DeclarationMatch) : List Char :=
  Declaration.keyword ++ (found.left ++ ':' :: (found.gap ++ (found.right ++ [','])))

/-- What is read of the match. -/
def declaration (found : DeclarationMatch) : Declaration :=
  ⟨String.ofList found.left, String.ofList found.right⟩

/-- A match ends in a comma. -/
theorem exists_text_eq_concat (found : DeclarationMatch) : ∃ front, found.text = front ++ [','] :=
  ⟨Declaration.keyword ++ (found.left ++ ':' :: (found.gap ++ found.right)), by simp [text]⟩

/-- A match begins with the first character of its keyword. -/
theorem text_eq_cons (found : DeclarationMatch) : found.text = 'p' :: found.text.tail :=
  rfl

/-- A match that commas follow in the run of its second column is the start of a match that none
follow. -/
theorem exists_longest (found : DeclarationMatch) (rest : List Char) :
    ∃ (longest : DeclarationMatch) (remaining : List Char),
      found.text ++ rest = longest.text ++ remaining ∧ ',' ∉ remaining.takeWhile isVisible := by
  obtain ⟨run, stop, rfl, hrun, hstop⟩ := exists_run isVisible rest
  cases hsplit : splitLast? ',' run with
  | none =>
      refine ⟨found, run ++ stop, rfl, ?_⟩
      rw [takeWhile_append_of_stop hrun hstop]
      exact splitLast?_eq_none_iff.1 hsplit
  | some parts =>
      obtain ⟨before, after⟩ := parts
      obtain ⟨rfl, hafter⟩ := splitLast?_eq_some hsplit
      simp only [List.forall_mem_append, List.forall_mem_cons] at hrun
      have hright : IsWord (found.right ++ ',' :: before) := by
        refine ⟨by simp, ?_⟩
        simpa only [List.forall_mem_append, List.forall_mem_cons] using
          ⟨found.right_isWord.2, hrun.2.1, hrun.1⟩
      refine ⟨{ found with right := found.right ++ ',' :: before, right_isWord := hright },
        after ++ stop, by simp [text], ?_⟩
      rwa [takeWhile_append_of_stop hrun.2.2 hstop]

/-- No match begins behind the first character of a match. -/
theorem keyword_not_infix_tail (found : DeclarationMatch) :
    ¬ Declaration.keyword <:+: found.text.tail := by
  have htail : found.text.tail =
      'u' :: 'b' :: ([' '] ++ found.left) ++ ':' :: (found.gap ++ (found.right ++ [','])) := rfl
  have hright : ∀ c ∈ found.right ++ [','], isVisible c = true := by
    simpa [or_imp, forall_and] using ⟨found.right_isWord.2, by decide⟩
  rw [htail]
  intro h
  rcases infix_of_infix_append_cons h (by decide) with hbefore | hafter
  · rcases List.infix_cons_iff.1 hbefore with hbegins | hbefore
    · exact absurd (List.cons_prefix_cons.1 hbegins).1 (by decide)
    rcases List.infix_cons_iff.1 hbefore with hbegins | hbefore
    · exact absurd (List.cons_prefix_cons.1 hbegins).1 (by decide)
    have hblank : ∀ c ∈ [' '], isBlank c = true := List.forall_mem_singleton.2 (by decide)
    exact Declaration.keyword_not_infix_blanks_append hblank found.left_isWord.2 hbefore
  · exact Declaration.keyword_not_infix_blanks_append found.gap_blank hright hafter

/-- A match that begins in front of another one ends in front of it. -/
theorem prefix_of_prefix_append (first second : DeclarationMatch) {front rest : List Char}
    (hfront : front ≠ []) (h : first.text <+: front ++ (second.text ++ rest)) :
    first.text <+: front := by
  rcases List.prefix_or_prefix_of_prefix h (List.prefix_append front _) with hends | ⟨more, hmore⟩
  · exact hends
  · rw [← hmore, List.prefix_append_right_inj] at h
    have hkeyword : Declaration.keyword <+: second.text ++ rest :=
      (List.prefix_append _ _).trans (List.prefix_append _ rest)
    rcases List.prefix_or_prefix_of_prefix h hkeyword with hshort | hlong
    · -- What would reach into the keyword of the second match ends in a comma.
      rcases List.eq_nil_or_concat more with rfl | ⟨before, last, rfl⟩
      · exact (List.append_nil front ▸ hmore) ▸ List.prefix_rfl
      · obtain ⟨start, hstart⟩ := first.exists_text_eq_concat
        rw [hstart, List.concat_eq_append, ← List.append_assoc] at hmore
        obtain ⟨-, hlast⟩ := List.append_inj' hmore rfl
        obtain rfl : last = ',' := by simpa using hlast
        have hcomma : ',' ∈ Declaration.keyword := hshort.subset (by simp)
        exact absurd hcomma (by decide)
    · obtain ⟨c, front, rfl⟩ := List.exists_cons_of_ne_nil hfront
      have htail : first.text.tail = front ++ more := by rw [← hmore]; rfl
      refine absurd ?_ first.keyword_not_infix_tail
      rw [htail]
      exact hlong.isInfix.trans (List.suffix_append front more).isInfix

end DeclarationMatch

namespace Declaration

/-- A match is read whatever follows it, if no comma follows in the run of its second column. -/
theorem read?_text_append (found : DeclarationMatch) {rest : List Char}
    (hrest : ',' ∉ rest.takeWhile isVisible) :
    read? (found.text ++ rest) = some (found.declaration, rest) := by
  obtain ⟨run, stop, rfl, hrun, hstop⟩ := exists_run isVisible rest
  rw [takeWhile_append_of_stop hrun hstop] at hrest
  have hkeyword : afterWord? keyword (found.text ++ (run ++ stop)) =
      some ((found.left ++ [':']) ++ (found.gap ++ ((found.right ++ ',' :: run) ++ stop))) :=
    afterWord?_eq_some_iff.2 (by simp [DeclarationMatch.text])
  have hleftRun : ∀ c ∈ found.left ++ [':'], isVisible c = true := by
    simpa [or_imp, forall_and] using ⟨found.left_isWord.2, by decide⟩
  have hrightRun : ∀ c ∈ found.right ++ ',' :: run, isVisible c = true := by
    simpa [or_imp, forall_and] using ⟨found.right_isWord.2, by decide, hrun⟩
  -- The run of the left column ends at the first blank of the gap.
  have hgap : (found.gap ++ ((found.right ++ ',' :: run) ++ stop)).head?.any isVisible = false := by
    obtain ⟨blank, gap, hcons⟩ := List.exists_cons_of_ne_nil found.gap_ne_nil
    have hblank := found.gap_blank blank (by simp [hcons])
    simpa [hcons, isVisible] using hblank
  have hskip : (found.gap ++ ((found.right ++ ',' :: run) ++ stop)).dropWhile isBlank =
      (found.right ++ ',' :: run) ++ stop := by
    obtain ⟨c, chars, hcons⟩ := List.exists_cons_of_ne_nil found.right_isWord.1
    have hc : isBlank c = false :=
      isBlank_eq_false_iff.2 (found.right_isWord.2 c (by simp [hcons]))
    exact dropWhile_append_of_stop found.gap_blank (by simpa [hcons] using hc)
  have hlabel : beforeFinal? ':' (found.left ++ [':']) = some found.left :=
    beforeFinal?_eq_some_iff.2 ⟨rfl, found.left_isWord.1⟩
  rw [read?, hkeyword]
  simp only [Option.bind_eq_bind, Option.bind_some, takeWhile_append_of_stop hleftRun hgap,
    dropWhile_append_of_stop hleftRun hgap, hlabel, hskip,
    takeWhile_append_of_stop hrightRun hstop, dropWhile_append_of_stop hrightRun hstop,
    splitLast?_append found.right hrest, if_neg found.right_isWord.1]
  rfl

/-- Where a declaration is read, the text that is taken is a match of it, and no comma follows in
the run of the second column. -/
theorem exists_match_of_read? {text rest : List Char} {declaration : Declaration}
    (h : read? text = some (declaration, rest)) :
    ∃ found : DeclarationMatch, found.declaration = declaration ∧ text = found.text ++ rest ∧
      ',' ∉ rest.takeWhile isVisible := by
  simp only [read?, Option.bind_eq_bind, Option.bind_eq_some_iff, Option.ite_none_left_eq_some,
    Option.some.injEq, Prod.mk.injEq, Prod.exists] at h
  obtain ⟨afterKeyword, hkeyword, left, hleft, right, tail, hsplit, hright, rfl, rfl⟩ := h
  obtain ⟨leftRun, afterLeft, rfl, hleftRun, hleftStop⟩ := exists_run isVisible afterKeyword
  rw [takeWhile_append_of_stop hleftRun hleftStop] at hleft
  rw [dropWhile_append_of_stop hleftRun hleftStop] at hsplit ⊢
  obtain ⟨gap, afterGap, rfl, hgap, hgapStop⟩ := exists_run isBlank afterLeft
  rw [dropWhile_append_of_stop hgap hgapStop] at hsplit ⊢
  obtain ⟨rightRun, stop, rfl, hrightRun, hstop⟩ := exists_run isVisible afterGap
  rw [takeWhile_append_of_stop hrightRun hstop] at hsplit
  rw [dropWhile_append_of_stop hrightRun hstop]
  obtain ⟨rfl, hne⟩ := beforeFinal?_eq_some_iff.1 hleft
  obtain ⟨rfl, htail⟩ := splitLast?_eq_some hsplit
  simp only [List.forall_mem_append, List.forall_mem_cons] at hleftRun hrightRun
  -- Without a blank the run of the left column would go on in the right one.
  have hgapNe : gap ≠ [] := by
    rintro rfl
    obtain ⟨c, chars, rfl⟩ := List.exists_cons_of_ne_nil hright
    have hc := hrightRun.1 c List.mem_cons_self
    simp [hc] at hleftStop
  refine ⟨⟨left, gap, right, ⟨hne, hleftRun.1⟩, hgapNe, hgap, ⟨hright, hrightRun.1⟩⟩, rfl, ?_, ?_⟩
  · rw [afterWord?_eq_some_iff.1 hkeyword]
    simp [DeclarationMatch.text]
  · rwa [takeWhile_append_of_stop hrightRun.2.2 hstop]

/-- What is read at the head of a text is a match that no comma follows in the run of its second
column. -/
theorem read?_eq_some_iff {text rest : List Char} {declaration : Declaration} :
    read? text = some (declaration, rest) ↔
      ∃ found : DeclarationMatch, found.declaration = declaration ∧ text = found.text ++ rest ∧
        ',' ∉ rest.takeWhile isVisible := by
  refine ⟨exists_match_of_read?, ?_⟩
  rintro ⟨found, rfl, rfl, hrest⟩
  exact read?_text_append found hrest

/-- Nothing is read at the head of a text exactly if no match stands there. -/
theorem read?_eq_none_iff {text : List Char} :
    read? text = none ↔ ∀ found : DeclarationMatch, ¬ found.text <+: text := by
  constructor
  · rintro h found ⟨rest, rfl⟩
    obtain ⟨longest, remaining, htext, hremaining⟩ := found.exists_longest rest
    rw [htext, read?_text_append longest hremaining] at h
    cases h
  · intro h
    rw [Option.eq_none_iff_forall_ne_some]
    rintro ⟨declaration, rest⟩ hread
    obtain ⟨found, -, htext, -⟩ := exists_match_of_read? hread
    exact h found ⟨rest, htext.symm⟩

end Declaration

end CallTable
