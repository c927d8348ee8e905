/-!
# Blank characters

The characters that separate words in a dump are those of the Unicode property `White_Space`:
twenty-five characters, of which the information separators U+001C to U+001F, the zero-width space
and the byte order mark are not members. Trimming and cutting into words use this one set.
-/

namespace CallTable.Text

/-- The character has the Unicode property `White_Space`. -/
def isBlank (c : Char) : Bool :=
  let code := c.toNat
  (0x09 ≤ code && code ≤ 0x0D) || code == 0x20 || code == 0x85 || code == 0xA0 ||
    code == 0x1680 || (0x2000 ≤ code && code ≤ 0x200A) || code == 0x2028 || code == 0x2029 ||
    code == 0x202F || code == 0x205F || code == 0x3000

/-- The character is not blank. -/
def isVisible (c : Char) : Bool :=
  !isBlank c

/-- The text without the blanks at its start. -/
def trimStart (text : List Char) : List Char :=
  text.dropWhile isBlank

/-- The text without the blanks at its end. -/
def trimEnd (text : List Char) : List Char :=
  (text.reverse.dropWhile isBlank).reverse

/-- The text without the blanks around it. -/
def trim (text : List Char) : List Char :=
  trimEnd (trimStart text)

/-- The maximal runs of visible characters, in order. -/
def words (text : List Char) : List (List Char) :=
  (text.splitOnP isBlank).filter (· ≠ [])

/-- The text is a word: at least one character, and no blank among them. -/
def IsWord (text : List Char) : Prop :=
  text ≠ [] ∧ ∀ c ∈ text, isVisible c = true

instance (text : List Char) : Decidable (IsWord text) :=
  decidable_of_iff (text ≠ [] ∧ text.all isVisible = true) (by simp [IsWord])

/-- Every blank of ASCII is blank here. -/
theorem isBlank_of_isWhitespace {c : Char} (h : c.isWhitespace = true) : isBlank c = true := by
  simp only [Char.isWhitespace, Bool.or_eq_true, decide_eq_true_eq] at h
  rcases h with ((rfl | rfl) | rfl) | rfl <;> decide

theorem isVisible_eq_false_iff {c : Char} : isVisible c = false ↔ isBlank c = true := by
  simp [isVisible]

theorem isBlank_eq_false_iff {c : Char} : isBlank c = false ↔ isVisible c = true := by
  simp [isVisible]

/-- A word holds no blank. -/
theorem IsWord.not_mem {text : List Char} {c : Char} (h : IsWord text) (hc : isBlank c = true) :
    c ∉ text := by
  intro hmem
  have hvisible := h.2 c hmem
  simp [isVisible, hc] at hvisible

/-- Blanks hold no visible character. -/
theorem not_mem_of_blank {text : List Char} {c : Char} (h : ∀ d ∈ text, isBlank d = true)
    (hc : isVisible c = true) : c ∉ text := by
  intro hmem
  have hblank := h c hmem
  simp [isVisible, hblank] at hc

/-- Only blanks are taken away before the first visible character. -/
theorem exists_blanks_append_trimStart (text : List Char) :
    ∃ front, (∀ c ∈ front, isBlank c = true) ∧ text = front ++ trimStart text :=
  ⟨text.takeWhile isBlank, List.all_eq_true.1 List.all_takeWhile,
    List.takeWhile_append_dropWhile.symm⟩

/-- Only blanks are taken away after the last visible character. -/
theorem exists_trimEnd_append_blanks (text : List Char) :
    ∃ back, (∀ c ∈ back, isBlank c = true) ∧ text = trimEnd text ++ back := by
  obtain ⟨front, hfront, htext⟩ := exists_blanks_append_trimStart text.reverse
  refine ⟨front.reverse, by simpa using hfront, ?_⟩
  rw [trimEnd, ← trimStart, ← List.reverse_append, ← htext, List.reverse_reverse]

/-- Trimming takes away blanks on both sides. -/
theorem exists_blanks_trim_blanks (text : List Char) :
    ∃ front back, (∀ c ∈ front, isBlank c = true) ∧ (∀ c ∈ back, isBlank c = true) ∧
      text = front ++ trim text ++ back := by
  obtain ⟨front, hfront, htext⟩ := exists_blanks_append_trimStart text
  obtain ⟨back, hback, hrest⟩ := exists_trimEnd_append_blanks (trimStart text)
  refine ⟨front, back, hfront, hback, ?_⟩
  rw [List.append_assoc, trim, ← hrest, ← htext]

/-- What is left after trimming stands in the text. -/
theorem trim_isInfix (text : List Char) : trim text <:+: text := by
  obtain ⟨front, back, -, -, htext⟩ := exists_blanks_trim_blanks text
  exact ⟨front, back, htext.symm⟩

/-- What is left after trimming is made of characters of the text. -/
theorem mem_of_mem_trim {text : List Char} {c : Char} (h : c ∈ trim text) : c ∈ text :=
  (trim_isInfix text).subset h

/-- Trimming the start of a text acts on what stands before a visible character. -/
theorem trimStart_append_cons (before rest : List Char) {c : Char} (hc : isVisible c = true) :
    trimStart (before ++ c :: rest) = trimStart before ++ c :: rest := by
  have hstop : (c :: rest).dropWhile isBlank = c :: rest :=
    List.dropWhile_cons_of_neg (by simpa [isVisible] using hc)
  rw [trimStart, trimStart, List.dropWhile_append, hstop]
  split
  · next hempty => simp [List.isEmpty_iff.1 hempty]
  · rfl

/-- Trimming the end of a text acts on what stands after a visible character. -/
theorem trimEnd_append_cons (text after : List Char) {c : Char} (hc : isVisible c = true) :
    trimEnd (text ++ c :: after) = text ++ c :: trimEnd after := by
  have hstop : (c :: text.reverse).dropWhile isBlank = c :: text.reverse :=
    List.dropWhile_cons_of_neg (by simpa [isVisible] using hc)
  rw [trimEnd, List.reverse_append, List.reverse_cons, List.append_assoc, List.singleton_append,
    List.dropWhile_append, hstop, trimEnd]
  split
  · next hempty => simp [List.isEmpty_iff.1 hempty]
  · simp

/-- What is left after trimming does not begin in a blank. -/
theorem head_trim_visible (text : List Char) :
    ∀ c ∈ (trim text).head?, isVisible c = true := by
  intro c hc
  obtain ⟨back, -, htext⟩ := exists_trimEnd_append_blanks (trimStart text)
  have hstart : (trimStart text).head? = some c := by
    rw [htext, List.head?_append, ← trim, hc, Option.some_or]
  have hstop := List.head?_dropWhile_not isBlank text
  rw [← trimStart, hstart] at hstop
  exact isBlank_eq_false_iff.1 (by simpa using hstop)

/-- What is left after trimming does not end in a blank. -/
theorem getLast_trim_visible (text : List Char) :
    ∀ c ∈ (trim text).getLast?, isVisible c = true := by
  intro c hc
  have hstop := List.head?_dropWhile_not isBlank (trimStart text).reverse
  rw [← List.getLast?_reverse, ← trimEnd, ← trim, hc] at hstop
  exact isBlank_eq_false_iff.1 (by simpa using hstop)

/-- A text that neither begins nor ends in a blank has nothing to trim. -/
theorem trim_eq_self {text : List Char} (hhead : ∀ c ∈ text.head?, isVisible c = true)
    (hlast : ∀ c ∈ text.getLast?, isVisible c = true) : trim text = text := by
  have hstart : trimStart text = text := by
    cases text with
    | nil => rfl
    | cons c text => exact List.dropWhile_cons_of_neg (by simpa [isVisible] using hhead c rfl)
  rw [trim, hstart]
  rcases List.eq_nil_or_concat text with rfl | ⟨front, c, rfl⟩
  · rfl
  · rw [List.concat_eq_append]
    exact trimEnd_append_cons front [] (hlast c (by simp))

/-- Trimming a second time changes nothing. -/
theorem trim_trim (text : List Char) : trim (trim text) = trim text :=
  trim_eq_self (head_trim_visible text) (getLast_trim_visible text)

/-- Nothing is left of a text by trimming its start exactly if it is blank. -/
theorem trimStart_eq_nil_iff {text : List Char} :
    trimStart text = [] ↔ ∀ c ∈ text, isBlank c = true := by
  constructor
  · intro hnone
    obtain ⟨front, hfront, htext⟩ := exists_blanks_append_trimStart text
    rw [hnone, List.append_nil] at htext
    exact htext ▸ hfront
  · intro hblank
    have hstart : (text ++ []).dropWhile isBlank = [] := List.dropWhile_append_of_pos hblank
    rwa [List.append_nil] at hstart

/-- Nothing is left of a text by trimming exactly if it is blank. -/
theorem trim_eq_nil_iff {text : List Char} : trim text = [] ↔ ∀ c ∈ text, isBlank c = true := by
  constructor
  · intro hnone
    obtain ⟨front, back, hfront, hback, htext⟩ := exists_blanks_trim_blanks text
    rw [hnone, List.append_nil] at htext
    intro c hc
    rw [htext, List.mem_append] at hc
    exact hc.elim (hfront c) (hback c)
  · intro hblank
    rw [trim, trimStart_eq_nil_iff.2 hblank]
    rfl

/-- Something is left of a text that is not blank. -/
theorem trim_ne_nil_of_visible {text : List Char} (h : ∃ c ∈ text, isVisible c = true) :
    trim text ≠ [] := by
  obtain ⟨c, hc, hvisible⟩ := h
  intro hnone
  exact not_mem_of_blank (trim_eq_nil_iff.1 hnone) hvisible hc

/-- A blank separates the words before it from those after it. -/
theorem words_append_cons (text rest : List Char) {blank : Char} (h : isBlank blank = true) :
    words (text ++ blank :: rest) = words text ++ words rest := by
  rw [words, List.splitOnP_append_cons text rest h, List.filter_append, words, words]

/-- Where a text is cut at characters, no part holds one of them. -/
theorem eq_false_of_mem_splitOnP {p : Char → Bool} {text part : List Char}
    (h : part ∈ text.splitOnP p) : ∀ c ∈ part, p c = false := by
  induction text generalizing part with
  | nil =>
    obtain rfl : part = [] := by simpa using h
    exact List.forall_mem_nil _
  | cons d text ih =>
    rw [List.splitOnP_cons_eq_if_modifyHead] at h
    split at h
    · rcases List.mem_cons.1 h with rfl | h
      · exact List.forall_mem_nil _
      · exact ih h
    · next hd =>
      -- The character belongs to the first part of the rest.
      cases hparts : text.splitOnP p with
      | nil => exact absurd hparts (List.splitOnP_ne_nil p text)
      | cons first parts =>
        rw [hparts, List.modifyHead_cons] at h
        rw [hparts] at ih
        rcases List.mem_cons.1 h with rfl | h
        · exact List.forall_mem_cons.2 ⟨by simpa using hd, ih List.mem_cons_self⟩
        · exact ih (List.mem_cons_of_mem first h)

/-- The words of a text are words. -/
theorem isWord_of_mem_words {text word : List Char} (h : word ∈ words text) : IsWord word := by
  obtain ⟨hpart, hne⟩ := List.mem_filter.1 h
  exact ⟨of_decide_eq_true hne, fun c hc =>
    isBlank_eq_false_iff.1 (eq_false_of_mem_splitOnP hpart c hc)⟩

/-- A word is the only one of its words. -/
theorem words_of_isWord {text : List Char} (h : IsWord text) : words text = [text] := by
  have hvisible : ∀ c ∈ text, isBlank c = false := fun c hc => isBlank_eq_false_iff.2 (h.2 c hc)
  rw [words, List.splitOnP_eq_singleton hvisible]
  simp [h.1]

/-- The words of texts joined by blanks are the words of the texts. -/
theorem words_intercalate_flatMap (parts : List (List Char)) :
    words ([' '].intercalate parts) = parts.flatMap words := by
  induction parts with
  | nil => rfl
  | cons first parts ih =>
      cases parts with
      | nil => simp
      | cons second parts =>
          rw [List.intercalate_cons_cons, List.append_assoc, List.singleton_append,
            words_append_cons _ _ (by decide), ih, ← List.flatMap_cons]

/-- Words joined by blanks are read back. -/
theorem words_intercalate {components : List (List Char)}
    (h : ∀ component ∈ components, IsWord component) :
    words ([' '].intercalate components) = components := by
  have hwords : components.map words = components.map ([·]) :=
    List.map_congr_left fun component hcomponent => words_of_isWord (h component hcomponent)
  rw [words_intercalate_flatMap, List.flatMap_def, hwords, ← List.flatMap_def,
    List.flatMap_singleton']

end CallTable.Text
