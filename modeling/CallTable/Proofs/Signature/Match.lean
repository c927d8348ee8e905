import CallTable.Signature

/-!
# Places where an alias is read

Nothing is assumed here of the text. Wherever the reader accepts an alias, the text that it takes
can be cut into the parts of an `AliasMatch`: a header, what stands between the header and the
opened parameter list, a receiver and the text of the parameters. `exists_match_of_read?` says this
of one reading, and `ofDump_matches` of all readings of a dump, whose texts stand in the dump in
order and without overlap.
-/

namespace CallTable

open Text

/-- The parts of a text that is read as an alias. The list is opened on the line of the header or,
if a line is bridged, on the next one. -/
structure AliasMatch where
  name : List Char
  bridged : Option (List Char)
  start : List Char
  receiver : List Char
  body : List Char
  name_isWord : IsWord name
  bridged_ne_nil : ∀ line ∈ bridged, line ≠ []
  feed_not_mem_bridged : ∀ line ∈ bridged, '\n' ∉ line
  feed_not_mem_start : '\n' ∉ start
  feed_not_mem_receiver : '\n' ∉ receiver
  has_marker : AliasBlock.marker <:+: receiver
  body_ne_nil : body ≠ []
  closer_not_mem_body : ')' ∉ body

namespace AliasMatch

/-- What stands between the header and the opener of the list: the rest of the bridged line, and
what its line says before the opener. -/
def between (found : AliasMatch) : List Char :=
  match found.bridged with
  | none => found.start
  | some line => line ++ '\n' :: found.start

/-- The text from the start of the header up to the opener. -/
def stretch (found : AliasMatch) : List Char :=
  AliasBlock.keyword ++ found.name ++ AliasBlock.equals ++ found.between

/-- The whole text of the match. -/
def text (found : AliasMatch) : List Char :=
  found.stretch ++ AliasBlock.opener ++ '\n' :: (found.receiver ++ ',' :: found.body)

/-- What is read of the match. -/
def block (found : AliasMatch) : AliasBlock :=
  ⟨found.name, found.body⟩

end AliasMatch

namespace AliasBlock

/-! ## What each part of a reading takes -/

/-- What stands after a run without line feeds is a line feed and the rest. -/
theorem eq_takeWhile_append {text rest : List Char} {c : Char}
    (h : text.dropWhile (· ≠ '\n') = c :: rest) :
    text = text.takeWhile (· ≠ '\n') ++ '\n' :: rest := by
  have hhead := List.head?_dropWhile_not (· ≠ '\n') text
  rw [h] at hhead
  obtain rfl : c = '\n' := by simpa using hhead
  rw [← h, List.takeWhile_append_dropWhile]

/-- Where a line is passed, a line that is not empty and its line feed are taken. -/
theorem exists_line_of_afterLine? {text rest : List Char} (h : afterLine? text = some rest) :
    ∃ line, line ≠ [] ∧ '\n' ∉ line ∧ text = line ++ '\n' :: rest := by
  unfold afterLine? at h
  split at h
  · next htake hdrop =>
    obtain rfl := Option.some.inj h
    refine ⟨text.takeWhile (· ≠ '\n'), ?_, not_mem_takeWhile_ne _ text, eq_takeWhile_append hdrop⟩
    rw [htake]
    exact List.cons_ne_nil _ _
  · cases h

/-- Where a list is opened, the opener at the end of the line and its line feed are taken. -/
theorem exists_start_of_afterOpening? {text rest : List Char}
    (h : afterOpening? text = some rest) :
    ∃ start, '\n' ∉ start ∧ text = start ++ opener ++ '\n' :: rest := by
  unfold afterOpening? at h
  split at h
  · next hends =>
    obtain ⟨start, hstart⟩ := List.isSuffixOf_iff_suffix.1 hends
    split at h
    · cases h
    · next hdrop =>
      obtain rfl := Option.some.inj h
      refine ⟨start, fun hc => ?_, ?_⟩
      · exact not_mem_takeWhile_ne _ text (hstart ▸ List.mem_append_left _ hc)
      · rw [hstart]
        exact eq_takeWhile_append hdrop
  · cases h

/-- Where a character is passed, it is not a line feed. -/
theorem exists_of_afterCharacter? {text rest : List Char} (h : afterCharacter? text = some rest) :
    ∃ c, c ≠ '\n' ∧ text = c :: rest := by
  cases text with
  | nil => cases h
  | cons c text =>
      simp only [afterCharacter?, Option.ite_none_left_eq_some, Option.some.injEq] at h
      exact ⟨c, h.1, by rw [h.2]⟩

/-- Where a word is found in a line, what stands before it is on the line. -/
theorem exists_before_of_afterWordInLine? {word text rest : List Char}
    (h : afterWordInLine? word text = some rest) :
    ∃ before, '\n' ∉ before ∧ text = before ++ word ++ rest := by
  fun_induction afterWordInLine? word text with
  | case1 => exact ⟨[], List.not_mem_nil, afterWord?_eq_some_iff.1 h⟩
  | case2 c text found hfound =>
      obtain rfl := Option.some.inj h
      exact ⟨[], List.not_mem_nil, afterWord?_eq_some_iff.1 hfound⟩
  | case3 => cases h
  | case4 c text hnone hc ih =>
      obtain ⟨before, hfeed, rfl⟩ := ih h
      exact ⟨c :: before, by simp [Ne.symm hc, hfeed], rfl⟩

/-- Where the last comma is found in a line, something other than a closing parenthesis follows. -/
theorem exists_before_of_afterLastComma? {text rest : List Char}
    (h : afterLastComma? text = some rest) :
    ∃ before, '\n' ∉ before ∧ text = before ++ ',' :: rest ∧ rest.head?.any (· ≠ ')') = true := by
  fun_induction afterLastComma? text with
  | case1 => cases h
  | case2 => cases h
  | case3 c text hc found hfound ih =>
      obtain rfl := Option.some.inj h
      obtain ⟨before, hfeed, rfl, hfollow⟩ := ih hfound
      exact ⟨c :: before, by simp [Ne.symm hc, hfeed], rfl, hfollow⟩
  | case4 c text hc hnone hfollow =>
      obtain rfl := Option.some.inj h
      obtain ⟨rfl, hfollow⟩ := hfollow
      exact ⟨[], List.not_mem_nil, rfl, hfollow⟩
  | case5 => cases h

/-- Where a receiver is read, its line up to the last comma holds the marker. -/
theorem exists_receiver_of_afterReceiver? {text rest : List Char}
    (h : afterReceiver? text = some rest) :
    ∃ receiver, '\n' ∉ receiver ∧ marker <:+: receiver ∧ text = receiver ++ ',' :: rest ∧
      rest.head?.any (· ≠ ')') = true := by
  simp only [afterReceiver?, Option.bind_eq_bind, Option.bind_eq_some_iff] at h
  obtain ⟨afterStart, hstart, afterName, hname, afterMore, hmore, hcomma⟩ := h
  obtain ⟨c, hc, rfl⟩ := exists_of_afterCharacter? hstart
  obtain ⟨before, hbefore, rfl⟩ := exists_before_of_afterWordInLine? hname
  obtain ⟨d, hd, rfl⟩ := exists_of_afterCharacter? hmore
  obtain ⟨more, hmoreFeed, rfl, hfollow⟩ := exists_before_of_afterLastComma? hcomma
  have hmarker : '\n' ∉ marker := by decide
  refine ⟨c :: before ++ marker ++ d :: more, ?_, ⟨c :: before, d :: more, rfl⟩, by simp, hfollow⟩
  simp [hbefore, hmoreFeed, hmarker, Ne.symm hc, Ne.symm hd]

/-- Where a function is read, the opener of its list ends a line and a receiver follows. The
parameters reach up to the next closing parenthesis. -/
theorem exists_parts_of_readFunction? {text body rest : List Char}
    (h : readFunction? text = some (body, rest)) :
    ∃ start receiver, '\n' ∉ start ∧ '\n' ∉ receiver ∧ marker <:+: receiver ∧ body ≠ [] ∧
      ')' ∉ body ∧ text = start ++ opener ++ '\n' :: (receiver ++ ',' :: (body ++ rest)) := by
  simp only [readFunction?, Option.bind_eq_bind, Option.bind_eq_some_iff, Option.some.injEq,
    Prod.mk.injEq] at h
  obtain ⟨parameters, ⟨opened, hopening, hreceiver⟩, rfl, rfl⟩ := h
  obtain ⟨start, hstart, rfl⟩ := exists_start_of_afterOpening? hopening
  obtain ⟨receiver, hfeed, hmarker, rfl, hfollow⟩ := exists_receiver_of_afterReceiver? hreceiver
  refine ⟨start, receiver, hstart, hfeed, hmarker, ?_, ?_, ?_⟩
  · cases parameters with
    | nil => cases hfollow
    | cons c parameters =>
        have hc : (c ≠ ')') = true := by simpa using hfollow
        simp [hc]
  · exact not_mem_takeWhile_ne _ parameters
  · rw [List.takeWhile_append_dropWhile]

/-! ## Matches -/

/-- Where an alias is read, the text that is taken is a match of what is read. -/
theorem exists_match_of_read? {text rest : List Char} {block : AliasBlock}
    (h : read? text = some (block, rest)) :
    ∃ found : AliasMatch, found.block = block ∧ text = found.text ++ rest := by
  simp only [read?, Option.bind_eq_bind, Option.bind_eq_some_iff, Option.or_eq_some_iff,
    Option.ite_none_left_eq_some, Option.some.injEq, Prod.mk.injEq, Prod.exists] at h
  obtain ⟨afterKeyword, hkeyword, head, hhead, body, _, hfunction, hne, rfl, rfl⟩ := h
  have hword : IsWord (afterKeyword.takeWhile isVisible) :=
    ⟨hne, List.all_eq_true.1 List.all_takeWhile⟩
  have htext : text = keyword ++ afterKeyword.takeWhile isVisible ++ equals ++ head := by
    rw [afterWord?_eq_some_iff.1 hkeyword, List.append_assoc, List.append_assoc,
      ← afterWord?_eq_some_iff.1 hhead, List.takeWhile_append_dropWhile]
  -- The list is opened behind a bridged line, or on the line of the header.
  rcases hfunction with ⟨further, hline, hfunction⟩ | ⟨-, hfunction⟩
  · obtain ⟨line, hnotNil, hfeed, rfl⟩ := exists_line_of_afterLine? hline
    obtain ⟨start, receiver, hstart, hreceiver, hmarker, hbody, hcloser, rfl⟩ :=
      exists_parts_of_readFunction? hfunction
    refine ⟨⟨_, some line, start, receiver, body, hword, by simpa using hnotNil,
      by simpa using hfeed, hstart, hreceiver, hmarker, hbody, hcloser⟩, rfl, ?_⟩
    rw [htext]
    simp [AliasMatch.text, AliasMatch.stretch, AliasMatch.between]
  · obtain ⟨start, receiver, hstart, hreceiver, hmarker, hbody, hcloser, rfl⟩ :=
      exists_parts_of_readFunction? hfunction
    refine ⟨⟨_, none, start, receiver, body, hword, by simp, by simp, hstart, hreceiver, hmarker,
      hbody, hcloser⟩, rfl, ?_⟩
    rw [htext]
    simp [AliasMatch.text, AliasMatch.stretch, AliasMatch.between]

/-- The blocks of a dump are read from matches that stand in the dump in order and without
overlap. -/
theorem ofDump_matches (dump : String) :
    ∃ (found : List (List Char × AliasMatch)) (last : List Char),
      unifyLineEnds dump.toList = found.flatMap (fun part => part.1 ++ part.2.text) ++ last ∧
        ofDump dump = found.map (·.2.block) :=
  form.exists_pieces AliasMatch.text AliasMatch.block
    exists_match_of_read? (unifyLineEnds dump.toList)

end AliasBlock

end CallTable
