/-!
# Scanning

A form of text is given by a function that reads it at the head of a text and returns what it read
together with the rest. From such a function, `leftmost?` finds the first place where the form
stands. A form that never reads nothing can be looked for everywhere: `Form.all` finds all places
that do not overlap, from left to right, and the search goes on where the last match ended.
-/

namespace CallTable.Text

/-- The text after the word, if the text starts with the word. -/
def afterWord? : List Char → List Char → Option (List Char)
  | [], text => some text
  | _ :: _, [] => none
  | w :: word, c :: text => if w = c then afterWord? word text else none

/-- What stands before the mark at the end of a run, if the run ends in the mark and something
does stand before it. -/
def beforeFinal? (mark : Char) (run : List Char) : Option (List Char) :=
  if run.getLast? = some mark ∧ run.dropLast ≠ [] then some run.dropLast else none

/-- The parts before and after the last occurrence of a character. -/
def splitLast? (mark : Char) : List Char → Option (List Char × List Char)
  | [] => none
  | c :: text =>
    match splitLast? mark text with
    | some (before, after) => some (c :: before, after)
    | none => if c = mark then some ([], text) else none

/-- The text after its first `count` bytes of UTF-8. There is none if the text is shorter or the
cut falls inside a character. -/
def afterBytes? : Nat → List Char → Option (List Char)
  | 0, text => some text
  | _ + 1, [] => none
  | count + 1, c :: text =>
    if c.utf8Size ≤ count + 1 then afterBytes? (count + 1 - c.utf8Size) text else none

/-- What is read at the first place where something can be read. -/
def leftmost? {α : Type} (read? : List Char → Option α) : List Char → Option α
  | [] => read? []
  | c :: text => (read? (c :: text)).or (leftmost? read? text)

/-- A form of text: how it is read at the head of a text, and that a reading leaves less text. -/
structure Form (α : Type) where
  read? : List Char → Option (α × List Char)
  length_lt {text : List Char} {found : α} {rest : List Char} :
    read? text = some (found, rest) → rest.length < text.length

/-- Everything that a text holds in the form, from left to right and without overlap. -/
def Form.all {α : Type} (form : Form α) : List Char → List α
  | [] => []
  | c :: text =>
    match hread : form.read? (c :: text) with
    | some (found, rest) =>
      have := form.length_lt hread
      found :: form.all rest
    | none => form.all text
termination_by text => text.length
decreasing_by
  · exact this
  · exact Nat.lt_succ_self text.length

/-- Where the form stands at the head of a text, the search goes on after it. -/
theorem Form.all_of_some {α : Type} (form : Form α) {text rest : List Char} {found : α}
    (h : form.read? text = some (found, rest)) : form.all text = found :: form.all rest := by
  cases text with
  | nil => exact absurd (form.length_lt h) (by simp)
  | cons c text =>
    rw [Form.all]
    split
    · next hread => rw [h] at hread; obtain ⟨rfl, rfl⟩ := hread; rfl
    · next hread => rw [h] at hread; cases hread

/-- Where the form does not stand at the head of a text, the search goes on one character
further. -/
theorem Form.all_of_none {α : Type} (form : Form α) {c : Char} {text : List Char}
    (h : form.read? (c :: text) = none) : form.all (c :: text) = form.all text := by
  rw [Form.all]
  split
  · next hread => rw [h] at hread; cases hread
  · rfl

/-- What holds the form nowhere is passed over. -/
theorem Form.all_append_of_none {α : Type} (form : Form α) {skipped rest : List Char}
    (h : ∀ tail, tail <:+ skipped → tail ≠ [] → form.read? (tail ++ rest) = none) :
    form.all (skipped ++ rest) = form.all rest := by
  induction skipped with
  | nil => rfl
  | cons c skipped ih =>
    have hhere : form.read? (c :: (skipped ++ rest)) = none :=
      h (c :: skipped) List.suffix_rfl (List.cons_ne_nil c skipped)
    rw [List.cons_append, form.all_of_none hhere]
    exact ih fun tail htail => h tail (htail.trans (List.suffix_cons c skipped))

/-- What a search finds, by cases of how it goes on: the text is empty, it starts with a reading and
the search goes on behind that, or it does not and the search goes on one character further. -/
theorem Form.all_induction {α : Type} (form : Form α) {motive : List Char → List α → Prop}
    (empty : motive [] [])
    (read : ∀ {text rest : List Char} {found : α}, form.read? text = some (found, rest) →
      motive rest (form.all rest) → motive text (found :: form.all rest))
    (skip : ∀ {c : Char} {text : List Char}, form.read? (c :: text) = none →
      motive text (form.all text) → motive (c :: text) (form.all text))
    (text : List Char) : motive text (form.all text) := by
  induction hlength : text.length using Nat.strongRecOn generalizing text with
  | ind length ih =>
    cases text with
    | nil => rwa [Form.all]
    | cons c text =>
      cases hread : form.read? (c :: text) with
      | some found =>
        rw [form.all_of_some hread]
        exact read hread (ih found.2.length (hlength ▸ form.length_lt hread) found.2 rfl)
      | none =>
        rw [form.all_of_none hread]
        exact skip hread (ih text.length (hlength ▸ Nat.lt_succ_self _) text rfl)

/-- What holds of every reading holds of everything that is found. -/
theorem Form.forall_mem_all {α : Type} (form : Form α) {P : α → Prop}
    (h : ∀ {text rest : List Char} {found : α}, form.read? text = some (found, rest) → P found)
    (text : List Char) : ∀ found ∈ form.all text, P found := by
  refine form.all_induction (motive := fun _ all => ∀ found ∈ all, P found)
    (List.forall_mem_nil P) ?_ ?_ text
  · exact fun hread ih => List.forall_mem_cons.2 ⟨h hread, ih⟩
  · exact fun _ ih => ih

/-- A search cuts a text into what it passes over and what it reads: if each reading takes a piece
off the head of the text, then the pieces of everything that is found stand in the text in order and
without overlap. -/
theorem Form.exists_pieces {α β : Type} (form : Form α) (piece : β → List Char) (value : β → α)
    (h : ∀ {text rest : List Char} {found : α}, form.read? text = some (found, rest) →
      ∃ b, value b = found ∧ text = piece b ++ rest) (text : List Char) :
    ∃ (pieces : List (List Char × β)) (last : List Char),
      text = pieces.flatMap (fun part => part.1 ++ piece part.2) ++ last ∧
        form.all text = pieces.map (value ·.2) := by
  refine form.all_induction (motive := fun text all =>
    ∃ (pieces : List (List Char × β)) (last : List Char),
      text = pieces.flatMap (fun part => part.1 ++ piece part.2) ++ last ∧
        all = pieces.map (value ·.2)) ⟨[], [], rfl, rfl⟩ ?_ ?_ text
  · intro text rest found hread ih
    obtain ⟨b, rfl, htext⟩ := h hread
    obtain ⟨pieces, last, hrest, hall⟩ := ih
    refine ⟨([], b) :: pieces, last, ?_, by rw [hall, List.map_cons]⟩
    rw [htext, List.flatMap_cons, List.nil_append, List.append_assoc, ← hrest]
  · intro c text hread ih
    obtain ⟨pieces, last, htext, hall⟩ := ih
    -- The character joins what is passed over before the next piece, or the last part.
    cases pieces with
    | nil => exact ⟨[], c :: last, by rw [htext]; rfl, hall⟩
    | cons first pieces =>
      exact ⟨(c :: first.1, first.2) :: pieces, last, by rw [htext]; rfl, hall⟩

/-! ## Runs and words inside a text -/

/-- A run that stops where the rest begins is taken whole. -/
theorem takeWhile_append_of_stop {α : Type} {p : α → Bool} {run rest : List α}
    (hrun : ∀ c ∈ run, p c = true) (hrest : rest.head?.any p = false) :
    (run ++ rest).takeWhile p = run := by
  rw [List.takeWhile_append_of_pos hrun]
  cases rest with
  | nil => simp
  | cons c rest => simp [show p c = false by simpa using hrest]

/-- A run that stops where the rest begins leaves the rest. -/
theorem dropWhile_append_of_stop {α : Type} {p : α → Bool} {run rest : List α}
    (hrun : ∀ c ∈ run, p c = true) (hrest : rest.head?.any p = false) :
    (run ++ rest).dropWhile p = rest := by
  rw [List.dropWhile_append_of_pos hrun]
  cases rest with
  | nil => simp
  | cons c rest => simp [show p c = false by simpa using hrest]

/-- A text begins with a run that stops where the rest begins. -/
theorem exists_run {α : Type} (p : α → Bool) (text : List α) :
    ∃ run rest, text = run ++ rest ∧ (∀ c ∈ run, p c = true) ∧ rest.head?.any p = false := by
  refine ⟨text.takeWhile p, text.dropWhile p, List.takeWhile_append_dropWhile.symm,
    List.all_eq_true.1 List.all_takeWhile, ?_⟩
  have hhead := List.head?_dropWhile_not p text
  cases h : (text.dropWhile p).head? with
  | none => rfl
  | some c => simpa [h] using hhead

/-- A run that is taken while a character does not come holds none. -/
theorem not_mem_takeWhile_ne (c : Char) (text : List Char) : c ∉ text.takeWhile (· ≠ c) :=
  fun h => by simpa using List.all_eq_true.1 List.all_takeWhile _ h

/-- What stands behind a stop is not taken. -/
theorem takeWhile_append_cons_of_neg {p : Char → Bool} (text rest : List Char) {c : Char}
    (hc : p c = false) : (text ++ c :: rest).takeWhile p = text.takeWhile p := by
  induction text with
  | nil => simp [hc]
  | cons d text ih => simp only [List.cons_append, List.takeWhile_cons, ih]

/-- A word that starts a text ends before a character that it lacks. -/
theorem prefix_of_prefix_append_cons {word before after : List Char} {c : Char}
    (h : word <+: before ++ c :: after) (hc : c ∉ word) : word <+: before := by
  rcases List.prefix_or_prefix_of_prefix h (List.prefix_append before _) with hword | ⟨more, rfl⟩
  · exact hword
  · rw [List.prefix_append_right_inj] at h
    cases more with
    | nil => simp
    | cons d more =>
      obtain rfl := (List.cons_prefix_cons.1 h).1
      simp at hc

/-- A word that ends a text begins after a character that it lacks. -/
theorem suffix_of_suffix_append_cons {word before after : List Char} {c : Char}
    (h : word <:+ before ++ c :: after) (hc : c ∉ word) : word <:+ after := by
  have hreverse : word.reverse <+: after.reverse ++ c :: before.reverse := by
    simpa using List.reverse_prefix.2 h
  exact List.reverse_prefix.1 (prefix_of_prefix_append_cons hreverse (by simpa using hc))

/-- A word that stands in a text stands on one side of a character that it lacks. -/
theorem infix_of_infix_append_cons {word before after : List Char} {c : Char}
    (h : word <:+: before ++ c :: after) (hc : c ∉ word) :
    word <:+: before ∨ word <:+: after := by
  induction before with
  | nil =>
    rcases List.infix_cons_iff.1 h with hbegins | hafter
    · have hbefore : word <+: [] := prefix_of_prefix_append_cons hbegins hc
      exact Or.inl hbefore.isInfix
    · exact Or.inr hafter
  | cons d before ih =>
    rcases List.infix_cons_iff.1 h with hbegins | hrest
    · have hbefore : word <+: d :: before := prefix_of_prefix_append_cons hbegins hc
      exact Or.inl hbefore.isInfix
    · exact (ih hrest).imp_left fun hbefore => hbefore.trans (List.suffix_cons d before).isInfix

/-- Joined parts hold nothing that neither the parts nor the separator hold. -/
theorem not_mem_intercalate {c : Char} {separator : List Char} {parts : List (List Char)}
    (hseparator : c ∉ separator) (h : ∀ part ∈ parts, c ∉ part) :
    c ∉ separator.intercalate parts := by
  induction parts with
  | nil => simp
  | cons first parts ih =>
      obtain ⟨hfirst, h⟩ := List.forall_mem_cons.1 h
      cases parts with
      | nil => rwa [List.intercalate_singleton]
      | cons second parts =>
          rw [List.intercalate_cons_cons]
          simp [hfirst, hseparator, ih h]

/-- A part stands in the text that the parts are joined to. -/
theorem infix_intercalate {separator part : List Char} {parts : List (List Char)}
    (h : part ∈ parts) : part <:+: separator.intercalate parts := by
  induction parts with
  | nil => simp at h
  | cons first parts ih =>
      cases parts with
      | nil =>
          obtain rfl := List.mem_singleton.1 h
          simp
      | cons second parts =>
          rw [List.intercalate_cons_cons]
          rcases List.mem_cons.1 h with rfl | h
          · rw [List.append_assoc]
            exact (List.prefix_append part _).isInfix
          · exact (ih h).trans (List.suffix_append _ _).isInfix

/-! ## What the readings of a word, a mark and a count say about a text -/

/-- The text after a word is what the word has to be put before to give the text. -/
theorem afterWord?_eq_some_iff {word text rest : List Char} :
    afterWord? word text = some rest ↔ text = word ++ rest := by
  fun_induction afterWord? word text with
  | case1 text => simp
  | case2 w word => simp
  | case3 w word text ih => simpa using ih
  | case4 w word c text hne => simp [Ne.symm hne]

/-- There is no text after a word exactly if the text does not start with the word. -/
theorem afterWord?_eq_none_iff {word text : List Char} :
    afterWord? word text = none ↔ ¬ word <+: text := by
  rw [Option.eq_none_iff_forall_ne_some]
  constructor
  · rintro h ⟨rest, hrest⟩
    exact h rest (afterWord?_eq_some_iff.2 hrest.symm)
  · intro h rest hrest
    exact h ⟨rest, (afterWord?_eq_some_iff.1 hrest).symm⟩

/-- A run ends in the mark after something exactly if it is that something and the mark. -/
theorem beforeFinal?_eq_some_iff {mark : Char} {run stem : List Char} :
    beforeFinal? mark run = some stem ↔ run = stem ++ [mark] ∧ stem ≠ [] := by
  simp only [beforeFinal?, Option.ite_none_right_eq_some, Option.some.injEq]
  constructor
  · rintro ⟨⟨hlast, hne⟩, rfl⟩
    obtain ⟨front, rfl⟩ := List.getLast?_eq_some_iff.1 hlast
    simpa using hne
  · rintro ⟨rfl, hne⟩
    simpa using hne

/-- A text cannot be split at a mark exactly if it lacks the mark. -/
theorem splitLast?_eq_none_iff {mark : Char} {text : List Char} :
    splitLast? mark text = none ↔ mark ∉ text := by
  fun_induction splitLast? mark text with
  | case1 => simp
  | case2 c text before after hsplit ih => simpa [hsplit] using fun _ => ih.symm
  | case3 text hsplit ih => simp
  | case4 c text hsplit hc ih => simpa [Ne.symm hc] using ih.1 hsplit

/-- The two parts of a split text and the mark between them are the text, and the second part
lacks the mark. -/
theorem splitLast?_eq_some {mark : Char} {text before after : List Char}
    (h : splitLast? mark text = some (before, after)) :
    text = before ++ mark :: after ∧ mark ∉ after := by
  induction text generalizing before with
  | nil => simp [splitLast?] at h
  | cons c text ih =>
    cases hsplit : splitLast? mark text with
    | none =>
      simp only [splitLast?, hsplit, Option.ite_none_right_eq_some, Option.some.injEq,
        Prod.mk.injEq] at h
      obtain ⟨rfl, rfl, rfl⟩ := h
      exact ⟨rfl, splitLast?_eq_none_iff.1 hsplit⟩
    | some parts =>
      obtain ⟨start, rest⟩ := parts
      simp only [splitLast?, hsplit, Option.some.injEq, Prod.mk.injEq] at h
      obtain ⟨rfl, rfl⟩ := h
      exact ⟨by rw [(ih hsplit).1, List.cons_append], (ih hsplit).2⟩

/-- A text is split at a mark after which it lacks the mark. -/
theorem splitLast?_append {mark : Char} (before : List Char) {after : List Char}
    (h : mark ∉ after) : splitLast? mark (before ++ mark :: after) = some (before, after) := by
  induction before with
  | nil => simp [splitLast?, splitLast?_eq_none_iff.2 h]
  | cons c before ih => simp [splitLast?, ih]

/-- What is left after cutting bytes off ends the text. -/
theorem afterBytes?_suffix {count : Nat} {text rest : List Char}
    (h : afterBytes? count text = some rest) : rest <:+ text := by
  fun_induction afterBytes? count text with
  | case1 text =>
    obtain rfl := Option.some.inj h
    exact List.suffix_rfl
  | case2 => cases h
  | case3 count c text hsize ih => exact (ih h).trans (List.suffix_cons c text)
  | case4 => cases h

/-- Cutting as many bytes as a text has from the start of what begins with the text leaves the
rest. -/
theorem afterBytes?_append (start rest : List Char) :
    afterBytes? (String.ofList start).utf8ByteSize (start ++ rest) = some rest := by
  induction start with
  | nil => simp [afterBytes?]
  | cons c start ih =>
    have hsize : (String.ofList (c :: start)).utf8ByteSize =
        c.utf8Size + (String.ofList start).utf8ByteSize := by
      rw [← List.singleton_append, String.ofList_append, String.utf8ByteSize_append,
        ← String.singleton_eq_ofList, String.utf8ByteSize_singleton]
    have hpos := c.utf8Size_pos
    obtain ⟨count, hcount⟩ :
        ∃ count, c.utf8Size + (String.ofList start).utf8ByteSize = count + 1 :=
      ⟨_, (Nat.sub_add_cancel (by omega)).symm⟩
    have hrest : count + 1 - c.utf8Size = (String.ofList start).utf8ByteSize := by omega
    rw [hsize, hcount, List.cons_append, afterBytes?, hrest, if_pos (by omega), ih]

/-- Decoding the bytes of a text gives the text. -/
theorem fromUTF8?_toUTF8 (text : String) : String.fromUTF8? text.toUTF8 = some text :=
  dif_pos text.isValidUTF8

end CallTable.Text
