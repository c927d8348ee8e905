import CallTable.Signature

/-!
# Blocks of a dump

An alias is written as a head, a receiver and the text of its parameters. The lemmas here follow
the reader through such a block, whatever stands after it: `read?_receiver` says that a block is
read up to the first closing parenthesis, and `read?_bypass` that an alias whose function has no
receiver is not read at all. A search goes on behind a block, as `all_receiver` states. Where no
alias begins, it passes past whole lines, which `all_ofLines_append` and `all_bypass` state for
plain lines and for a head without a receiver.
-/

namespace CallTable

open Text

/-- A line in which no alias begins. -/
structure IsPlain (line : List Char) : Prop extends IsLine line where
  lacks_keyword : ¬ AliasBlock.keyword <:+: line

/-- No alias begins in a line that lacks a character of the first words of an alias. -/
theorem IsPlain.of_not_mem {line : List Char} {c : Char} (hline : IsLine line)
    (hc : c ∈ AliasBlock.keyword) (h : c ∉ line) : IsPlain line :=
  ⟨hline, fun hinside => h (hinside.subset hc)⟩

/-- What an alias says up to its parameter list: all on one line, or on two of which only the
second opens the list. -/
inductive Opening where
  | sameLine (line : List Char) (isPlain : IsPlain line) (opens : AliasBlock.opener <:+ line)
  | nextLine (first line : List Char) (first_ne_nil : first ≠ []) (first_isPlain : IsPlain first)
      (not_opens : ¬ AliasBlock.opener <:+ first) (isPlain : IsPlain line)
      (opens : AliasBlock.opener <:+ line)

/-- What the first line of the opening says after the equals sign. -/
def Opening.first : Opening → List Char
  | sameLine line .. => line
  | nextLine first .. => first

/-- The lines of the opening after the first. -/
def Opening.further : Opening → List (List Char)
  | sameLine .. => []
  | nextLine _ line .. => [line]

namespace Opening

theorem isPlain_first (opening : Opening) : IsPlain opening.first := by
  cases opening with
  | sameLine line hline => exact hline
  | nextLine first line hne hfirst => exact hfirst

theorem isPlain_of_mem_further (opening : Opening) : ∀ line ∈ opening.further, IsPlain line := by
  cases opening with
  | sameLine line hline => simp [further]
  | nextLine first line hne hfirst hcloses hline => simpa [further] using hline

theorem first_ne_nil (opening : Opening) : opening.first ≠ [] := by
  cases opening with
  | sameLine line hline hopens =>
      rintro (rfl : line = [])
      exact absurd (List.suffix_nil.1 hopens) (by decide)
  | nextLine first line hne => exact hne

end Opening

/-- The beginning of an alias up to its parameter list. -/
structure AliasHead where
  name : List Char
  name_isWord : IsWord name
  opening : Opening

namespace AliasHead

/-- The first line of the head. -/
def firstLine (head : AliasHead) : List Char :=
  AliasBlock.keyword ++ head.name ++ AliasBlock.equals ++ head.opening.first

/-- The lines of the head. -/
def lines (head : AliasHead) : List (List Char) :=
  head.firstLine :: head.opening.further

theorem firstLine_eq_cons (head : AliasHead) : head.firstLine = 'p' :: head.firstLine.tail :=
  rfl

/-- The lines of a head can stand as lines. -/
theorem isLine_of_mem_lines (head : AliasHead) : ∀ line ∈ head.lines, IsLine line := by
  have hfeed : '\n' ∉ AliasBlock.keyword ++ head.name ++ AliasBlock.equals := by
    rw [List.mem_append, List.mem_append, not_or, not_or]
    exact ⟨⟨by decide, head.name_isWord.not_mem rfl⟩, by decide⟩
  have hfurther : ∀ line ∈ head.opening.further, IsLine line := fun line h =>
    (head.opening.isPlain_of_mem_further line h).toIsLine
  refine List.forall_mem_cons.2 ⟨⟨?_, ?_⟩, hfurther⟩
  · rw [firstLine, List.mem_append, not_or]
    exact ⟨hfeed, head.opening.isPlain_first.feed_not_mem⟩
  · have hlast := List.getLast?_eq_some_getLast head.opening.first_ne_nil
    rw [firstLine, List.getLast?_append, hlast, Option.some_or, ← hlast]
    exact head.opening.isPlain_first.getLast?_ne

end AliasHead

/-- The first parameter line of a function that calls for a wrapper: something stands before the
marker, and something between it and the comma. -/
structure Receiver where
  start : List Char
  more : List Char
  start_ne_nil : start ≠ []
  more_ne_nil : more ≠ []
  feed_not_mem_start : '\n' ∉ start
  feed_not_mem_more : '\n' ∉ more

/-- The line of the receiver. -/
def Receiver.line (receiver : Receiver) : List Char :=
  receiver.start ++ AliasBlock.marker ++ receiver.more ++ [',']

namespace Receiver

theorem feed_not_mem (receiver : Receiver) : '\n' ∉ receiver.line := by
  have hmarker : '\n' ∉ AliasBlock.marker := by decide
  simp [line, receiver.feed_not_mem_start, receiver.feed_not_mem_more, hmarker]

theorem getLast?_line (receiver : Receiver) : receiver.line.getLast? = some ',' := by
  rw [line, List.getLast?_concat]

theorem isLine (receiver : Receiver) : IsLine receiver.line :=
  ⟨receiver.feed_not_mem, by rw [getLast?_line]; decide⟩

end Receiver

/-- The first parameter line of a function that does not call for a wrapper. -/
structure Bypass where
  line : List Char
  isPlain : IsPlain line
  lacks_marker : ¬ AliasBlock.marker <:+: line
  getLast?_eq : line.getLast? = some ','

namespace AliasBlock

/-! ## Reading one line -/

theorem takeWhile_line {line : List Char} (h : '\n' ∉ line) (text : List Char) :
    (line ++ '\n' :: text).takeWhile (· ≠ '\n') = line :=
  takeWhile_append_of_stop (fun c hc => decide_eq_true fun hfeed => h (hfeed ▸ hc)) (by simp)

theorem dropWhile_line {line : List Char} (h : '\n' ∉ line) (text : List Char) :
    (line ++ '\n' :: text).dropWhile (· ≠ '\n') = '\n' :: text :=
  dropWhile_append_of_stop (fun c hc => decide_eq_true fun hfeed => h (hfeed ▸ hc)) (by simp)

/-- A line that is not empty is passed. -/
theorem afterLine?_line {line : List Char} (h : '\n' ∉ line) (hne : line ≠ [])
    (text : List Char) : afterLine? (line ++ '\n' :: text) = some text := by
  rw [afterLine?, takeWhile_line h, dropWhile_line h]
  cases line with
  | nil => exact absurd rfl hne
  | cons c line => rfl

/-- A line opens a parameter list exactly if it ends in the opener. -/
theorem afterOpening?_line {line : List Char} (h : '\n' ∉ line) (text : List Char) :
    afterOpening? (line ++ '\n' :: text) = if opener <:+ line then some text else none := by
  rw [afterOpening?, takeWhile_line h, dropWhile_line h]
  by_cases hopens : opener <:+ line
  · rw [if_pos hopens, if_pos (List.isSuffixOf_iff_suffix.2 hopens)]
  · rw [if_neg hopens, if_neg fun hends => hopens (List.isSuffixOf_iff_suffix.1 hends)]

/-- The comma that ends a line is the last one that counts. -/
theorem afterLastComma?_line {line : List Char} (h : '\n' ∉ line) (text : List Char) :
    afterLastComma? (line ++ ',' :: '\n' :: text) = some ('\n' :: text) := by
  induction line with
  | nil => simp [afterLastComma?]
  | cons c line ih =>
      simp only [List.mem_cons, not_or] at h
      rw [List.cons_append, afterLastComma?, if_neg (Ne.symm h.1), ih h.2]

/-- A word that a line holds is found in it, there or earlier. -/
theorem afterWordInLine?_line (word : List Char) {before : List Char} (h : '\n' ∉ before)
    (text : List Char) :
    ∃ more, afterWordInLine? word (before ++ (word ++ text)) = some (more ++ text) ∧
      more <:+ before ++ word := by
  induction before with
  | nil =>
      refine ⟨[], ?_, List.nil_suffix⟩
      have hword : afterWord? word (word ++ text) = some text := afterWord?_eq_some_iff.2 rfl
      rw [List.nil_append]
      cases hall : word ++ text with
      | nil => rwa [hall] at hword
      | cons c rest =>
          rw [hall] at hword
          rw [afterWordInLine?, hword, List.nil_append]
  | cons c before ih =>
      simp only [List.mem_cons, not_or] at h
      rw [List.cons_append, afterWordInLine?]
      cases hword : afterWord? word (c :: (before ++ (word ++ text))) with
      | none =>
          obtain ⟨more, hmore, hends⟩ := ih h.2
          exact ⟨more, by simp [Ne.symm h.1, hmore], hends.trans (List.suffix_cons c _)⟩
      | some rest =>
          have hrest := afterWord?_eq_some_iff.1 hword
          have hlength := congrArg List.length hrest
          simp only [List.length_cons, List.length_append] at hlength
          have htext : text <:+ word ++ rest := hrest ▸ ⟨c :: (before ++ word), by simp⟩
          obtain ⟨more, rfl⟩ : text <:+ rest :=
            List.suffix_of_suffix_length_le htext (List.suffix_append word rest) (by omega)
          refine ⟨more, rfl, word, ?_⟩
          have hcut : (word ++ more) ++ text = (c :: (before ++ word)) ++ text := by
            simpa using hrest.symm
          exact List.append_cancel_right hcut

/-- A word that a line lacks does not stand at its head. -/
theorem afterWord?_line {word line : List Char} (hword : '\n' ∉ word) (h : ¬ word <:+: line)
    (text : List Char) : afterWord? word (line ++ '\n' :: text) = none :=
  afterWord?_eq_none_iff.2 fun hbegins =>
    h (prefix_of_prefix_append_cons hbegins hword).isInfix

/-- A word that a line lacks is not found in it. -/
theorem afterWordInLine?_eq_none {word line : List Char} (hword : '\n' ∉ word)
    (hfeed : '\n' ∉ line) (h : ¬ word <:+: line) (text : List Char) :
    afterWordInLine? word (line ++ '\n' :: text) = none := by
  induction line with
  | nil =>
      have hnone := afterWord?_line hword h text
      rw [List.nil_append] at hnone ⊢
      rw [afterWordInLine?, hnone]
      rfl
  | cons c line ih =>
      simp only [List.mem_cons, not_or] at hfeed
      have hnone := afterWord?_line hword h text
      have hrest := ih hfeed.2 fun hinside => h (hinside.trans (List.suffix_cons c line).isInfix)
      rw [List.cons_append] at hnone ⊢
      rw [afterWordInLine?, hnone]
      simp only [if_neg (Ne.symm hfeed.1), hrest]

/-! ## Reading a function -/

/-- A receiver is read with its line. -/
theorem afterReceiver?_receiver (receiver : Receiver) (text : List Char) :
    afterReceiver? (receiver.line ++ '\n' :: text) = some ('\n' :: text) := by
  obtain ⟨start, more, hstart, hmore, hfeedStart, hfeedMore⟩ := receiver
  obtain ⟨c, start, rfl⟩ := List.exists_cons_of_ne_nil hstart
  simp only [List.mem_cons, not_or] at hfeedStart
  -- The marker may be found before the place where the receiver has it, but on the same line.
  obtain ⟨past, hover, hends⟩ := afterWordInLine?_line marker hfeedStart.2
    (more ++ ',' :: '\n' :: text)
  obtain ⟨d, rest, hrest⟩ : ∃ d rest, past ++ more = d :: rest :=
    List.exists_cons_of_ne_nil (by simp [hmore])
  have hfeed : '\n' ∉ d :: rest := by
    rw [← hrest, List.mem_append, not_or]
    refine ⟨fun h => ?_, hfeedMore⟩
    rcases List.mem_append.1 (hends.subset h) with h | h
    · exact hfeedStart.2 h
    · exact absurd h (by decide)
  simp only [List.mem_cons, not_or] at hfeed
  have hline : Receiver.line ⟨c :: start, more, hstart, hmore, by simpa using hfeedStart, hfeedMore⟩
      ++ '\n' :: text = c :: (start ++ (marker ++ (more ++ ',' :: '\n' :: text))) := by
    simp [Receiver.line]
  have hname : afterWordInLine? marker
      (start ++ (marker ++ (more ++ ',' :: '\n' :: text))) =
        some (d :: (rest ++ ',' :: '\n' :: text)) := by
    rw [← List.cons_append, ← hrest, List.append_assoc]
    exact hover
  rw [hline, afterReceiver?]
  simp only [afterCharacter?, if_neg (Ne.symm hfeedStart.1), if_neg (Ne.symm hfeed.1), hname,
    afterLastComma?_line hfeed.2, Option.bind_eq_bind, Option.bind_some]

/-- A line without the marker is not read as a receiver. -/
theorem afterReceiver?_eq_none {line : List Char} (hfeed : '\n' ∉ line)
    (h : ¬ marker <:+: line) (text : List Char) : afterReceiver? (line ++ '\n' :: text) = none := by
  cases line with
  | nil => rfl
  | cons c line =>
      simp only [List.mem_cons, not_or] at hfeed
      have hnone : afterWordInLine? marker (line ++ '\n' :: text) = none :=
        afterWordInLine?_eq_none (by decide) hfeed.2
          (fun hinside => h (hinside.trans (List.suffix_cons c line).isInfix)) text
      rw [List.cons_append, afterReceiver?]
      simp only [afterCharacter?, if_neg (Ne.symm hfeed.1), hnone, Option.bind_eq_bind,
        Option.bind_some, Option.bind_none]

/-- A function is read after a line exactly if the line opens a parameter list and a receiver
follows. -/
theorem readFunction?_line {line : List Char} (h : '\n' ∉ line) (text : List Char) :
    readFunction? (line ++ '\n' :: text) =
      if opener <:+ line then
        (afterReceiver? text).map fun rest => (rest.takeWhile (· ≠ ')'), rest.dropWhile (· ≠ ')'))
      else none := by
  rw [readFunction?, afterOpening?_line h]
  split
  · cases hreceiver : afterReceiver? text with
    | none => simp [hreceiver]
    | some rest => simp [hreceiver]
  · rfl

/-! ## Reading an alias -/

/-- After the name of an alias the function is looked for, one line further down first. -/
theorem read?_keyword {name : List Char} (hname : IsWord name) (text : List Char) :
    read? (keyword ++ name ++ equals ++ text) =
      ((afterLine? text >>= readFunction?).or (readFunction? text)).map
        fun (body, rest) => (⟨name, body⟩, rest) := by
  have hkeyword : afterWord? keyword (keyword ++ name ++ equals ++ text) =
      some (name ++ (equals ++ text)) :=
    afterWord?_eq_some_iff.2 (by simp only [List.append_assoc])
  have hstop : (equals ++ text).head?.any isVisible = false := rfl
  have hequals : afterWord? equals (equals ++ text) = some text :=
    afterWord?_eq_some_iff.2 rfl
  rw [read?]
  simp only [hkeyword, takeWhile_append_of_stop hname.2 hstop,
    dropWhile_append_of_stop hname.2 hstop, hequals, Option.bind_eq_bind, Option.bind_some,
    if_neg hname.1]
  cases (afterLine? text).bind readFunction? with
  | none => cases readFunction? text <;> rfl
  | some found => rfl

/-- A line that ends in a comma opens no parameter list. -/
theorem not_opener_suffix {line : List Char} (h : line.getLast? = some ',') :
    ¬ opener <:+ line := by
  rintro ⟨start, rfl⟩
  rw [List.getLast?_append] at h
  cases h

/-- A line that opens a parameter list is not empty. -/
theorem ne_nil_of_opener_suffix {line : List Char} (h : opener <:+ line) : line ≠ [] := by
  rintro rfl
  exact absurd (List.suffix_nil.1 h) (by decide)

/-- After a head it depends on the next line alone whether an alias is read. Its parameters reach up
to the next closing parenthesis. -/
theorem read?_head (head : AliasHead) {line : List Char} (hfeed : '\n' ∉ line)
    (hcomma : line.getLast? = some ',') (text : List Char) :
    read? (ofLines head.lines ++ (line ++ '\n' :: text)) =
      (afterReceiver? (line ++ '\n' :: text)).map
        fun rest => (⟨head.name, rest.takeWhile (· ≠ ')')⟩, rest.dropWhile (· ≠ ')')) := by
  obtain ⟨name, hname, opening⟩ := head
  cases opening with
  | sameLine opens hopens hopener =>
      have htext : ofLines [keyword ++ name ++ equals ++ opens] ++ (line ++ '\n' :: text) =
          keyword ++ name ++ equals ++ (opens ++ '\n' :: (line ++ '\n' :: text)) := by
        simp [ofLines]
      -- The line after the head ends in a comma, so it does not open another parameter list.
      have hfurther : readFunction? (line ++ '\n' :: text) = none := by
        rw [readFunction?_line hfeed, if_neg (not_opener_suffix hcomma)]
      show read? (ofLines [keyword ++ name ++ equals ++ opens] ++ _) = _
      rw [htext, read?_keyword hname,
        afterLine?_line hopens.feed_not_mem (ne_nil_of_opener_suffix hopener),
        readFunction?_line hopens.feed_not_mem, if_pos hopener, Option.bind_eq_bind,
        Option.bind_some, hfurther, Option.none_or, Option.map_map]
      rfl
  | nextLine first opens hne hfirst hcloses hopens hopener =>
      have htext : ofLines [keyword ++ name ++ equals ++ first, opens] ++ (line ++ '\n' :: text) =
          keyword ++ name ++ equals ++
            (first ++ '\n' :: (opens ++ '\n' :: (line ++ '\n' :: text))) := by
        simp [ofLines]
      show read? (ofLines [keyword ++ name ++ equals ++ first, opens] ++ _) = _
      rw [htext, read?_keyword hname, afterLine?_line hfirst.feed_not_mem hne,
        readFunction?_line hfirst.feed_not_mem, if_neg hcloses, Option.or_none,
        Option.bind_eq_bind, Option.bind_some, readFunction?_line hopens.feed_not_mem,
        if_pos hopener, Option.map_map]
      rfl

/-- After a head and a receiver an alias is read. -/
theorem read?_receiver (head : AliasHead) (receiver : Receiver) (text : List Char) :
    read? (ofLines head.lines ++ (receiver.line ++ '\n' :: text)) =
      some (⟨head.name, '\n' :: text.takeWhile (· ≠ ')')⟩, text.dropWhile (· ≠ ')')) := by
  rw [read?_head head receiver.feed_not_mem receiver.getLast?_line, afterReceiver?_receiver]
  simp

/-- After a head and a line without the marker no alias is read. -/
theorem read?_bypass (head : AliasHead) (bypass : Bypass) (text : List Char) :
    read? (ofLines head.lines ++ (bypass.line ++ '\n' :: text)) = none := by
  rw [read?_head head bypass.isPlain.feed_not_mem bypass.getLast?_eq,
    afterReceiver?_eq_none bypass.isPlain.feed_not_mem bypass.lacks_marker]
  rfl

/-! ## Passing past lines -/

theorem keyword_eq : keyword = ['p', 'u', 'b', ' ', 't', 'y', 'p', 'e', ' '] := by
  decide

/-- No alias is read where its first words do not stand. -/
theorem read?_eq_none {text : List Char} (h : ¬ keyword <+: text) : read? text = none := by
  rw [read?, afterWord?_eq_none_iff.2 h]
  rfl

/-- The search passes past the rest of a line in which no alias begins. -/
theorem all_line_append {line : List Char} (h : ¬ keyword <:+: line) (rest : List Char) :
    form.all (line ++ '\n' :: rest) = form.all rest := by
  have hsplit : line ++ '\n' :: rest = (line ++ ['\n']) ++ rest := by simp
  rw [hsplit]
  refine form.all_append_of_none fun tail htail hne => read?_eq_none fun hbegins => h ?_
  -- What is left of the line ends in the line feed, which the first words of an alias lack.
  obtain ⟨left, rfl, hleft⟩ := (List.suffix_concat_iff.1 htail).resolve_left hne
  rw [List.append_assoc, List.singleton_append] at hbegins
  exact (prefix_of_prefix_append_cons hbegins (by decide)).isInfix.trans hleft.isInfix

/-- The search passes past lines in which no alias begins. -/
theorem all_ofLines_append {lines : List (List Char)} (h : ∀ line ∈ lines, IsPlain line)
    (rest : List Char) : form.all (ofLines lines ++ rest) = form.all rest := by
  induction lines with
  | nil => rfl
  | cons line lines ih =>
      simp only [List.forall_mem_cons] at h
      rw [ofLines_cons, List.append_assoc, List.cons_append,
        all_line_append h.1.lacks_keyword, ih h.2]

/-- After its first character, a header and what follows it hold the first words of an alias only
where what follows does. -/
theorem keyword_infix_tail_iff {name : List Char} (hname : IsWord name) (more : List Char) :
    keyword <:+: (keyword ++ name ++ equals ++ more).tail ↔ keyword <:+: more := by
  have hsplit : (keyword ++ name ++ equals ++ more).tail =
      (['u', 'b', ' ', 't', 'y', 'p', 'e', ' '] ++ (name ++ [' '])) ++ '=' :: ' ' :: more := by
    have hequals : equals = [' ', '=', ' '] := by decide
    simp [keyword_eq, hequals]
  rw [hsplit]
  constructor
  · intro hinside
    rcases infix_of_infix_append_cons hinside (by decide) with hbefore | hafter
    · -- The first words of an alias hold two blanks, and a name holds none.
      have hword : keyword <:+: name ++ [' '] := by
        simpa [keyword_eq, List.infix_cons_iff, List.cons_prefix_cons] using hbefore
      have hcount : (name ++ [' ']).count ' ' = 1 := by
        have hblank : ' ' ∉ name := hname.not_mem rfl
        simp [List.count_eq_zero_of_not_mem hblank]
      have htwo : keyword.count ' ' = 2 := by decide
      have hle := hword.count_le ' '
      omega
    · simpa [keyword_eq, List.infix_cons_iff, List.cons_prefix_cons] using hafter
  · intro hmore
    exact hmore.trans (((List.suffix_cons ' ' more).trans (List.suffix_cons '=' _)).trans
      (List.suffix_append _ _)).isInfix

/-- After its first character, no alias begins on the first line of a head. -/
theorem no_keyword_in_firstLine (head : AliasHead) : ¬ keyword <:+: head.firstLine.tail := by
  rw [AliasHead.firstLine, keyword_infix_tail_iff head.name_isWord]
  exact head.opening.isPlain_first.lacks_keyword

/-- The search passes past a head and a line without the marker. -/
theorem all_bypass (head : AliasHead) (bypass : Bypass) (text : List Char) :
    form.all (ofLines head.lines ++ (bypass.line ++ '\n' :: text)) = form.all text := by
  have hnone := read?_bypass head bypass text
  rw [AliasHead.lines, ofLines_cons, head.firstLine_eq_cons] at hnone ⊢
  simp only [List.cons_append, List.append_assoc] at hnone ⊢
  rw [form.all_of_none hnone, all_line_append (no_keyword_in_firstLine head),
    all_ofLines_append head.opening.isPlain_of_mem_further,
    all_line_append bypass.isPlain.lacks_keyword]

/-- The search passes past the rest of a line that closes a parameter list. -/
theorem all_closing {closing : List Char} (h : ¬ keyword <:+: closing) (text : List Char) :
    form.all (')' :: (closing ++ '\n' :: text)) = form.all text := by
  have hrest : ¬ keyword <:+: ')' :: closing := by
    intro hinside
    refine h ?_
    simpa [keyword_eq, List.infix_cons_iff, List.cons_prefix_cons] using hinside
  rw [← List.cons_append, all_line_append hrest]

/-- The search finds the alias of a head and a receiver, and goes on after its closing line. -/
theorem all_receiver (head : AliasHead) (receiver : Receiver) {body closing : List Char}
    (hbody : ')' ∉ body) (hclosing : ¬ keyword <:+: closing) (text : List Char) :
    form.all (ofLines head.lines ++
        (receiver.line ++ '\n' :: (body ++ ')' :: (closing ++ '\n' :: text)))) =
      ⟨head.name, '\n' :: body⟩ :: form.all text := by
  have hrun : ∀ c ∈ body, decide (c ≠ ')') = true := fun c hc =>
    decide_eq_true fun hclose => hbody (hclose ▸ hc)
  have hread := read?_receiver head receiver (body ++ ')' :: (closing ++ '\n' :: text))
  rw [takeWhile_append_of_stop hrun (by simp), dropWhile_append_of_stop hrun (by simp)] at hread
  rw [form.all_of_some hread, all_closing hclosing]

end AliasBlock

end CallTable
