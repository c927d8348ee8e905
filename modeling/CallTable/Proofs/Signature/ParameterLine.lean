import CallTable.Proofs.Text.Line
import CallTable.Signature

/-!
# Lines that declare a parameter

A line declares a parameter if it can be cut into five parts: anything up to its first label, the
name, the blanks after the colon, the type, and what follows the last comma. `ParameterLine` holds
such a cut, and `Parameter.ofLine?_eq_some_iff` says that reading a line finds the cut exactly if
there is one. Since trimming only shortens the outer parts, a line may be trimmed before it is read.
The lines of a list are trimmed parts of it, from which its parameters and dropped lines are taken.
-/

namespace CallTable

open Text

/-- A label ends in the text: a visible character, a colon and a blank stand in a row. -/
def HasLabel (text : List Char) : Prop :=
  ∃ c blank, isVisible c = true ∧ isBlank blank = true ∧ [c, ':', blank] <:+: text

/-- A text that can be read as a type: its first character is visible, or it is one blank. -/
def IsType (type : List Char) : Prop :=
  (∃ c ∈ type.head?, isVisible c = true) ∨ ∃ blank, isBlank blank = true ∧ type = [blank]

/-- The parts of a line that declares a parameter, from left to right. The part before the name ends
in a blank, if it is not empty, and holds no label, so the name is that of the first label of the
line; the part after the type holds no comma, so the type ends at the last one. -/
structure ParameterLine where
  before : List Char
  name : List Char
  gap : List Char
  type : List Char
  after : List Char
  before_ends : ∀ c ∈ before.getLast?, isBlank c = true
  before_unlabelled : ¬ HasLabel before
  name_isWord : IsWord name
  gap_ne_nil : gap ≠ []
  gap_blank : ∀ c ∈ gap, isBlank c = true
  type_isType : IsType type
  comma_not_mem : ',' ∉ after

namespace ParameterLine

/-- The line that the parts make up. -/
def text (line : ParameterLine) : List Char :=
  line.before ++ (line.name ++ ':' :: (line.gap ++ line.type ++ ',' :: line.after))

/-- The parameter that the line declares. -/
def parameter (line : ParameterLine) : Parameter :=
  ⟨String.ofList line.name, String.ofList line.type⟩

end ParameterLine

/-! ## Labels -/

/-- A label that ends in a part of a text ends in the text. -/
theorem HasLabel.mono {part text : List Char} (h : HasLabel part) (hpart : part <:+: text) :
    HasLabel text := by
  obtain ⟨c, blank, hc, hblank, hlabel⟩ := h
  exact ⟨c, blank, hc, hblank, hlabel.trans hpart⟩

/-- No label ends among blanks. -/
theorem not_has_label_of_blank {text : List Char} (h : ∀ c ∈ text, isBlank c = true) :
    ¬ HasLabel text := by
  rintro ⟨c, blank, hc, -, hlabel⟩
  exact not_mem_of_blank h hc (hlabel.subset List.mem_cons_self)

/-- A label that ends after blanks and a text ends in the text. -/
theorem HasLabel.of_blanks_append {front text : List Char}
    (hfront : ∀ c ∈ front, isBlank c = true) (h : HasLabel (front ++ text)) : HasLabel text := by
  induction front with
  | nil => exact h
  | cons d front ih =>
      obtain ⟨c, blank, hc, hblank, hlabel⟩ := h
      rw [List.cons_append, List.infix_cons_iff] at hlabel
      rcases hlabel with hhead | hlabel
      · obtain rfl := (List.cons_prefix_cons.1 hhead).1
        simp [isVisible, hfront c List.mem_cons_self] at hc
      · exact ih (fun e he => hfront e (List.mem_cons_of_mem d he)) ⟨c, blank, hc, hblank, hlabel⟩

/-- A type is not empty. -/
theorem IsType.ne_nil {type : List Char} (h : IsType type) : type ≠ [] := by
  rintro rfl
  simp [IsType] at h

/-! ## The blanks around a line -/

namespace ParameterLine

/-- The line with more blanks around it. -/
def extend (line : ParameterLine) {front back : List Char}
    (hfront : ∀ c ∈ front, isBlank c = true) (hback : ∀ c ∈ back, isBlank c = true) :
    ParameterLine where
  before := front ++ line.before
  name := line.name
  gap := line.gap
  type := line.type
  after := line.after ++ back
  before_ends := by
    intro c hc
    cases hlast : line.before.getLast? with
    | none => exact hfront c (List.mem_of_getLast? (by simpa [hlast] using hc))
    | some d => exact line.before_ends c (by simpa [hlast] using hc)
  before_unlabelled := fun h => line.before_unlabelled (h.of_blanks_append hfront)
  name_isWord := line.name_isWord
  gap_ne_nil := line.gap_ne_nil
  gap_blank := line.gap_blank
  type_isType := line.type_isType
  comma_not_mem := by
    rw [List.mem_append, not_or]
    exact ⟨line.comma_not_mem, not_mem_of_blank hback rfl⟩

theorem text_extend (line : ParameterLine) {front back : List Char}
    (hfront : ∀ c ∈ front, isBlank c = true) (hback : ∀ c ∈ back, isBlank c = true) :
    (line.extend hfront hback).text = front ++ line.text ++ back := by
  simp [extend, text]

/-- The line without the blanks around it. -/
def trim (line : ParameterLine) : ParameterLine where
  before := trimStart line.before
  name := line.name
  gap := line.gap
  type := line.type
  after := trimEnd line.after
  before_ends := by
    intro c hc
    obtain ⟨front, -, hbefore⟩ := exists_blanks_append_trimStart line.before
    refine line.before_ends c ?_
    rw [hbefore, List.getLast?_append]
    simp [Option.mem_def.1 hc]
  before_unlabelled := fun h =>
    line.before_unlabelled (h.mono (List.dropWhile_suffix isBlank).isInfix)
  name_isWord := line.name_isWord
  gap_ne_nil := line.gap_ne_nil
  gap_blank := line.gap_blank
  type_isType := line.type_isType
  comma_not_mem := by
    obtain ⟨back, -, hafter⟩ := exists_trimEnd_append_blanks line.after
    exact fun h => line.comma_not_mem (hafter ▸ List.mem_append_left back h)

theorem text_trim (line : ParameterLine) : line.trim.text = Text.trim line.text := by
  symm
  obtain ⟨c, name, hname⟩ := List.exists_cons_of_ne_nil line.name_isWord.1
  have hvisible : isVisible c = true := line.name_isWord.2 c (by simp [hname])
  have hsplit : trimStart line.before ++
      (c :: name ++ ':' :: (line.gap ++ line.type ++ ',' :: line.after)) =
        (trimStart line.before ++ (c :: name ++ ':' :: (line.gap ++ line.type))) ++
          ',' :: line.after := by
    simp
  rw [Text.trim, text, hname, List.cons_append, trimStart_append_cons _ _ hvisible,
    ← List.cons_append, hsplit, trimEnd_append_cons _ _ (by decide)]
  simp [text, trim, hname]

/-- A line that holds only blanks, a name, a colon, one blank, a type and a comma. -/
def plain {margin name type : List Char} (hmargin : ∀ c ∈ margin, isBlank c = true)
    (hname : IsWord name) (htype : ∃ c ∈ type.head?, isVisible c = true) : ParameterLine where
  before := margin
  name := name
  gap := [' ']
  type := type
  after := []
  before_ends := fun c hc => hmargin c (List.mem_of_getLast? hc)
  before_unlabelled := not_has_label_of_blank hmargin
  name_isWord := hname
  gap_ne_nil := List.cons_ne_nil _ _
  gap_blank := List.all_eq_true.1 (by decide)
  type_isType := Or.inl htype
  comma_not_mem := List.not_mem_nil

/-- Trimming a line that declares a parameter leaves something. -/
theorem trim_text_ne_nil (line : ParameterLine) : Text.trim line.text ≠ [] := by
  rw [← text_trim]
  simp [text]

end ParameterLine

/-! ## Reading the label -/

namespace Parameter

/-- A label is read at the head of a text exactly if the text is a word, a colon and a blank. -/
theorem readLabel?_eq_some_iff {text name rest : List Char} :
    readLabel? text = some (name, rest) ↔
      text = name ++ ':' :: rest ∧ IsWord name ∧ ∃ blank ∈ rest.head?, isBlank blank = true := by
  constructor
  · intro h
    simp only [readLabel?, Option.bind_eq_bind, Option.bind_eq_some_iff,
      beforeFinal?_eq_some_iff] at h
    obtain ⟨name, ⟨hrun, hne⟩, h⟩ := h
    cases hdrop : text.dropWhile isVisible with
    | nil => simp [hdrop] at h
    | cons blank tail =>
        simp only [hdrop, Option.some.injEq, Prod.mk.injEq] at h
        obtain ⟨rfl, rfl⟩ := h
        have htext := List.takeWhile_append_dropWhile (p := isVisible) (l := text)
        have hvisible : ∀ c ∈ text.takeWhile isVisible, isVisible c = true :=
          List.all_eq_true.1 List.all_takeWhile
        have hblank := List.head_dropWhile_not isVisible (l := text) (by simp [hdrop])
        simp only [hdrop, List.head_cons, isVisible_eq_false_iff] at hblank
        rw [hrun] at htext hvisible
        refine ⟨by rw [← htext, hdrop]; simp, ⟨hne, ?_⟩, blank, rfl, hblank⟩
        exact fun c hc => hvisible c (List.mem_append_left _ hc)
  · rintro ⟨rfl, ⟨hne, hname⟩, blank, hhead, hblank⟩
    have hrun : ∀ c ∈ name ++ [':'], isVisible c = true := by
      simpa [or_imp, forall_and] using ⟨hname, by decide⟩
    have hstop : rest.head?.any isVisible = false := by
      rw [Option.mem_def.1 hhead, Option.any_some, isVisible_eq_false_iff, hblank]
    have hsplit : name ++ ':' :: rest = (name ++ [':']) ++ rest := by simp
    have hlast : beforeFinal? ':' (name ++ [':']) = some name :=
      beforeFinal?_eq_some_iff.2 ⟨rfl, hne⟩
    rw [readLabel?, hsplit, takeWhile_append_of_stop hrun hstop,
      dropWhile_append_of_stop hrun hstop, hlast]
    cases rest with
    | nil => simp at hhead
    | cons c rest => rfl

/-- A word, a colon and a blank end a label. -/
theorem has_label_of_word {name : List Char} {blank : Char} (hname : IsWord name)
    (hblank : isBlank blank = true) (rest : List Char) :
    HasLabel (name ++ ':' :: blank :: rest) := by
  obtain ⟨hne, hvisible⟩ := hname
  obtain ⟨front, c, rfl⟩ : ∃ front c, name = front ++ [c] :=
    ⟨_, _, (List.dropLast_concat_getLast hne).symm⟩
  refine ⟨c, blank, hvisible c (by simp), hblank, front, rest, ?_⟩
  simp

/-- No label is read at the head of a text that starts with an unlabelled part and a blank. -/
theorem readLabel?_append_eq_none {before : List Char} (hne : before ≠ [])
    (hends : ∀ c ∈ before.getLast?, isBlank c = true) (hnone : ¬ HasLabel before)
    (text : List Char) : readLabel? (before ++ text) = none := by
  cases hread : readLabel? (before ++ text) with
  | none => rfl
  | some found =>
      obtain ⟨name, rest⟩ := found
      obtain ⟨htext, hname, blank, hhead, hblank⟩ := readLabel?_eq_some_iff.1 hread
      obtain ⟨tail, rfl⟩ := List.head?_eq_some_iff.1 (Option.mem_def.1 hhead)
      have hbefore : before <+: name ++ ':' :: blank :: tail :=
        htext ▸ List.prefix_append before text
      have hlast : isBlank (before.getLast hne) = true :=
        hends _ (List.getLast?_eq_some_getLast hne)
      -- Either the part before ends inside the run of the label, or it holds the whole label.
      rcases Nat.lt_or_ge (name.length + 1) before.length with hlong | hshort
      · have hlabel : name ++ [':', blank] <+: before := by
          refine List.prefix_of_prefix_length_le ⟨tail, by simp⟩ hbefore ?_
          simp only [List.length_append, List.length_cons, List.length_nil]
          omega
        exact absurd ((has_label_of_word hname hblank []).mono hlabel.isInfix) hnone
      · have hrun : before <+: name ++ [':'] := by
          refine List.prefix_of_prefix_length_le hbefore ⟨blank :: tail, by simp⟩ ?_
          simpa using hshort
        have hmem : before.getLast hne ∈ name ++ [':'] :=
          hrun.subset (List.getLast_mem hne)
        have hvisible : isVisible (before.getLast hne) = true := by
          rcases List.mem_append.1 hmem with hmem | hmem
          · exact hname.2 _ hmem
          · rw [List.mem_singleton.1 hmem]
            decide
        simp [isVisible, hlast] at hvisible

/-- If the label of a text is not read one character earlier, that character is blank. -/
theorem isBlank_of_readLabel?_cons_eq_none {c : Char} {name rest : List Char}
    (hread : readLabel? (c :: (name ++ ':' :: rest)) = none) (hname : IsWord name)
    (hblank : ∃ blank ∈ rest.head?, isBlank blank = true) : isBlank c = true := by
  refine isVisible_eq_false_iff.1 (Bool.eq_false_iff.2 fun hc => ?_)
  have hlonger : readLabel? (c :: (name ++ ':' :: rest)) = some (c :: name, rest) :=
    readLabel?_eq_some_iff.2
      ⟨by simp, ⟨by simp, List.forall_mem_cons.2 ⟨hc, hname.2⟩⟩, hblank⟩
  rw [hread] at hlonger
  cases hlonger

/-- If no label is read at a character, none ends in the text right after it. -/
theorem not_has_label_cons {c : Char} {before text : List Char}
    (hread : readLabel? (c :: (before ++ text)) = none) (hnone : ¬ HasLabel before) :
    ¬ HasLabel (c :: before) := by
  rintro ⟨d, blank, hd, hblank, hlabel⟩
  rcases List.infix_cons_iff.1 hlabel with ⟨tail, htail⟩ | hlabel
  · obtain ⟨rfl, rfl⟩ : d = c ∧ ':' :: blank :: tail = before := by simpa using htail
    have hshort : readLabel? (d :: (':' :: blank :: tail ++ text)) =
        some ([d], blank :: (tail ++ text)) :=
      readLabel?_eq_some_iff.2 ⟨by simp, ⟨by simp, by simpa using hd⟩, blank, rfl, hblank⟩
    rw [hread] at hshort
    cases hshort
  · exact hnone ⟨d, blank, hd, hblank, hlabel⟩

/-- The first label of a text is read: before it, up to the blank or the start of the text that its
name follows, no label ends. -/
theorem leftmost_readLabel?_eq_some_iff {text name rest : List Char} :
    leftmost? readLabel? text = some (name, rest) ↔
      ∃ before, text = before ++ (name ++ ':' :: rest) ∧
        (∀ c ∈ before.getLast?, isBlank c = true) ∧ ¬ HasLabel before ∧
        IsWord name ∧ ∃ blank ∈ rest.head?, isBlank blank = true := by
  constructor
  · intro h
    induction text with
    | nil => simp [leftmost?, readLabel?, beforeFinal?] at h
    | cons c text ih =>
        cases hread : readLabel? (c :: text) with
        | some found =>
            simp only [leftmost?, hread, Option.some_or, Option.some.injEq] at h
            subst h
            obtain ⟨htext, hword, hblank⟩ := readLabel?_eq_some_iff.1 hread
            exact ⟨[], htext, by simp, not_has_label_of_blank (by simp), hword, hblank⟩
        | none =>
            simp only [leftmost?, hread, Option.none_or] at h
            obtain ⟨before, htext, hends, hnone, hword, hblank⟩ := ih h
            subst htext
            refine ⟨c :: before, rfl, ?_, not_has_label_cons hread hnone, hword, hblank⟩
            cases before with
            | nil => simpa using isBlank_of_readLabel?_cons_eq_none hread hword hblank
            | cons d before => simpa using hends
  · rintro ⟨before, rfl, hends, hnone, hword, hblank⟩
    induction before with
    | nil =>
        have hread := readLabel?_eq_some_iff.2 ⟨rfl, hword, hblank⟩
        obtain ⟨c, name, rfl⟩ := List.exists_cons_of_ne_nil hword.1
        rw [List.nil_append, List.cons_append, leftmost?, ← List.cons_append, hread]
        rfl
    | cons c before ih =>
        have hskip := readLabel?_append_eq_none (List.cons_ne_nil c before) hends hnone
          (name ++ ':' :: rest)
        rw [List.cons_append] at hskip ⊢
        rw [leftmost?, hskip, Option.none_or]
        refine ih ?_ fun hlabel => hnone (hlabel.mono (List.suffix_cons c before).isInfix)
        intro d hd
        cases before with
        | nil => simp at hd
        | cons e before => exact hends d (by simpa using hd)

/-! ## Reading the type -/

/-- A text of at least two characters has as its type what is left of it by trimming, or else its
last character. -/
theorem typeOf?_cons_cons (c d : Char) (text : List Char) :
    typeOf? (c :: d :: text) =
      if trimStart (c :: d :: text) = [] then
        some [(c :: d :: text).getLast (List.cons_ne_nil _ _)]
      else some (trimStart (c :: d :: text)) := by
  rw [typeOf?.eq_3 _ (by simp) (by simp)]
  cases htrim : trimStart (c :: d :: text) with
  | nil => simp [List.getLast?_eq_some_getLast]
  | cons e rest => simp

/-- What trimming the start of a text leaves starts with a visible character. -/
theorem isType_trimStart {text : List Char} (h : trimStart text ≠ []) :
    IsType (trimStart text) := by
  refine Or.inl ⟨(trimStart text).head h, List.head?_eq_some_head h, ?_⟩
  exact isBlank_eq_false_iff.1 (List.head_dropWhile_not isBlank h)

/-- Of a text that starts with a blank, the type is what follows a gap of blanks. -/
theorem typeOf?_eq_some_iff {text type : List Char}
    (hblank : ∃ blank ∈ text.head?, isBlank blank = true) :
    typeOf? text = some type ↔
      ∃ gap, text = gap ++ type ∧ gap ≠ [] ∧ (∀ c ∈ gap, isBlank c = true) ∧ IsType type := by
  obtain ⟨blank, hhead, hblank⟩ := hblank
  obtain ⟨tail, rfl⟩ := List.head?_eq_some_iff.1 (Option.mem_def.1 hhead)
  cases tail with
  | nil =>
      constructor
      · intro h
        cases h
      · rintro ⟨gap, htext, hgap, -, htype⟩
        have hlength := congrArg List.length htext
        have hgapLength := List.length_pos_iff.2 hgap
        have htypeLength := List.length_pos_iff.2 htype.ne_nil
        simp only [List.length_cons, List.length_nil, List.length_append] at hlength
        omega
  | cons d tail =>
      rw [typeOf?_cons_cons]
      constructor
      · intro h
        split at h
        · -- Of blanks only, the last one is left as the type.
          next hnone =>
          have hall := trimStart_eq_nil_iff.1 hnone
          obtain rfl := Option.some.inj h
          refine ⟨(blank :: d :: tail).dropLast, by rw [List.dropLast_concat_getLast], by simp,
            fun c hc => hall c (List.dropLast_subset _ hc), Or.inr ⟨_, ?_, rfl⟩⟩
          exact hall _ (List.getLast_mem _)
        · next hsome =>
          obtain rfl := Option.some.inj h
          obtain ⟨front, hfront, hsplit⟩ := exists_blanks_append_trimStart (blank :: d :: tail)
          refine ⟨front, hsplit, ?_, hfront, isType_trimStart hsome⟩
          rintro rfl
          have htype := isType_trimStart hsome
          rw [← List.nil_append (trimStart _), ← hsplit] at htype
          simp [IsType, isVisible, hblank] at htype
      · rintro ⟨gap, htext, -, hgap, htype⟩
        rcases htype with ⟨c, hc, hvisible⟩ | ⟨b, hb, rfl⟩
        · obtain ⟨rest, rfl⟩ := List.head?_eq_some_iff.1 (Option.mem_def.1 hc)
          have htrim : trimStart (blank :: d :: tail) = c :: rest := by
            rw [htext, trimStart_append_cons gap rest hvisible, trimStart_eq_nil_iff.2 hgap,
              List.nil_append]
          rw [htrim, if_neg (List.cons_ne_nil c rest)]
        · have hall : ∀ c ∈ blank :: d :: tail, isBlank c = true := by
            rw [htext]
            simpa [or_imp, forall_and] using ⟨hgap, hb⟩
          rw [if_pos (trimStart_eq_nil_iff.2 hall)]
          simp only [htext, List.getLast_concat]

/-- A line is read as a parameter exactly if it has the parts of one. -/
theorem ofLine?_eq_some_iff {text : List Char} {parameter : Parameter} :
    ofLine? text = some parameter ↔
      ∃ line : ParameterLine, line.text = text ∧ line.parameter = parameter := by
  constructor
  · intro h
    simp only [ofLine?, Option.bind_eq_bind, Option.bind_eq_some_iff, Prod.exists,
      Option.some.injEq] at h
    obtain ⟨name, rest, hlabel, beforeComma, after, hsplit, type, htype, rfl⟩ := h
    obtain ⟨before, rfl, hends, hnone, hname, hblank⟩ :=
      leftmost_readLabel?_eq_some_iff.1 hlabel
    obtain ⟨rfl, hcomma⟩ := splitLast?_eq_some hsplit
    -- The blank that follows the colon is no comma, so it stands before the last comma.
    have hhead : ∃ blank ∈ beforeComma.head?, isBlank blank = true := by
      cases beforeComma with
      | cons c beforeComma => simpa using hblank
      | nil =>
          obtain ⟨blank, hcomma, hblank⟩ := hblank
          obtain rfl : ',' = blank := by simpa using hcomma
          exact absurd hblank (by decide)
    obtain ⟨gap, rfl, hgap, hgapBlank, hshape⟩ := (typeOf?_eq_some_iff hhead).1 htype
    exact ⟨⟨before, name, gap, type, after, hends, hnone, hname, hgap, hgapBlank, hshape, hcomma⟩,
      rfl, rfl⟩
  · rintro ⟨line, rfl, rfl⟩
    obtain ⟨before, name, gap, type, after, hends, hnone, hname, hgap, hgapBlank, hshape, hcomma⟩ :=
      line
    obtain ⟨blank, gap, rfl⟩ := List.exists_cons_of_ne_nil hgap
    have hblank : isBlank blank = true := hgapBlank blank List.mem_cons_self
    have hlabel : leftmost? readLabel?
        (before ++ (name ++ ':' :: (blank :: gap ++ type ++ ',' :: after))) =
          some (name, blank :: gap ++ type ++ ',' :: after) :=
      leftmost_readLabel?_eq_some_iff.2 ⟨before, rfl, hends, hnone, hname, blank, rfl, hblank⟩
    have htype : typeOf? (blank :: gap ++ type) = some type :=
      (typeOf?_eq_some_iff ⟨blank, rfl, hblank⟩).2 ⟨_, rfl, hgap, hgapBlank, hshape⟩
    simp only [ofLine?, ParameterLine.text, hlabel, splitLast?_append _ hcomma, htype,
      Option.bind_eq_bind, Option.bind_some, ParameterLine.parameter]

/-- What is read of a line stands in the line. -/
theorem infix_of_ofLine? {text : List Char} {parameter : Parameter}
    (h : ofLine? text = some parameter) :
    parameter.name.toList <:+: text ∧ parameter.type.toList <:+: text := by
  obtain ⟨line, rfl, rfl⟩ := ofLine?_eq_some_iff.1 h
  simp only [ParameterLine.parameter, ParameterLine.text, String.toList_ofList]
  constructor
  · exact ⟨line.before, ':' :: (line.gap ++ line.type ++ ',' :: line.after), by simp⟩
  · exact ⟨line.before ++ line.name ++ ':' :: line.gap, ',' :: line.after, by simp⟩

/-- What is read of a line is made of characters of the line. -/
theorem subset_of_ofLine? {text : List Char} {parameter : Parameter}
    (h : ofLine? text = some parameter) :
    parameter.name.toList ⊆ text ∧ parameter.type.toList ⊆ text :=
  ⟨(infix_of_ofLine? h).1.subset, (infix_of_ofLine? h).2.subset⟩

/-- A line is read as no parameter exactly if it does not have the parts of one. -/
theorem ofLine?_eq_none_iff {text : List Char} :
    ofLine? text = none ↔ ∀ line : ParameterLine, line.text ≠ text := by
  rw [← Option.not_isSome_iff_eq_none, Option.isSome_iff_exists]
  constructor
  · intro h line htext
    exact h ⟨line.parameter, ofLine?_eq_some_iff.2 ⟨line, htext, rfl⟩⟩
  · rintro h ⟨parameter, hparameter⟩
    obtain ⟨line, htext, -⟩ := ofLine?_eq_some_iff.1 hparameter
    exact h line htext

/-- Blanks around a line do not change what it declares. -/
theorem ofLine?_trim (text : List Char) : ofLine? (trim text) = ofLine? text := by
  refine Option.ext fun parameter => ?_
  rw [ofLine?_eq_some_iff, ofLine?_eq_some_iff]
  constructor
  · rintro ⟨line, htrim, rfl⟩
    obtain ⟨front, back, hfront, hback, htext⟩ := exists_blanks_trim_blanks text
    exact ⟨line.extend hfront hback, by rw [line.text_extend, htrim, ← htext], rfl⟩
  · rintro ⟨line, rfl, rfl⟩
    exact ⟨line.trim, line.text_trim, rfl⟩

end Parameter

/-! ## The lines of a parameter list -/

namespace AliasBlock

variable {block : AliasBlock} {line : List Char}

theorem mem_lines_iff :
    line ∈ block.lines ↔ (∃ whole ∈ Text.lines block.body, trim whole = line) ∧ line ≠ [] := by
  rw [lines, List.mem_filter, List.mem_map, decide_eq_true_iff]

/-- A line of a list stands in the list. -/
theorem infix_of_mem_lines (h : line ∈ block.lines) : line <:+: block.body := by
  obtain ⟨⟨whole, hwhole, rfl⟩, -⟩ := mem_lines_iff.1 h
  exact (trim_isInfix whole).trans (Text.infix_of_mem_lines hwhole)

/-- A line of a list holds nothing that the list does not hold. -/
theorem not_mem_of_mem_lines {c : Char} (h : c ∉ block.body) (hline : line ∈ block.lines) :
    c ∉ line :=
  fun hc => h ((infix_of_mem_lines hline).subset hc)

/-- A line of a list holds no line feed. -/
theorem feed_not_mem_of_mem_lines (h : line ∈ block.lines) : '\n' ∉ line := by
  obtain ⟨⟨whole, hwhole, rfl⟩, -⟩ := mem_lines_iff.1 h
  exact fun hc => Text.feed_not_mem_of_mem_lines hwhole (mem_of_mem_trim hc)

/-- A line of a list has no blanks around it. -/
theorem trim_of_mem_lines (h : line ∈ block.lines) : trim line = line := by
  obtain ⟨⟨whole, -, rfl⟩, -⟩ := mem_lines_iff.1 h
  exact trim_trim whole

/-- A list that is one line of a list has that line only. -/
theorem lines_of_mem_lines (h : line ∈ block.lines) (name : List Char) :
    lines ⟨name, line⟩ = [line] := by
  rw [lines, lines_of_not_mem (feed_not_mem_of_mem_lines h), List.map_singleton,
    trim_of_mem_lines h]
  exact List.filter_cons_of_pos (decide_eq_true (mem_lines_iff.1 h).2)

/-- A parameter of a block is read of one of its lines. -/
theorem exists_line_of_mem_parameters {parameter : Parameter}
    (h : parameter ∈ block.signature.parameters) :
    ∃ line ∈ block.lines, Parameter.ofLine? line = some parameter :=
  List.mem_filterMap.1 h

/-- A dropped line of a block is one of its lines and declares no parameter. -/
theorem exists_line_of_mem_dropped {dropped : String} (h : dropped ∈ block.signature.dropped) :
    ∃ line ∈ block.lines, Parameter.ofLine? line = none ∧ String.ofList line = dropped := by
  obtain ⟨line, hline, rfl⟩ := List.mem_map.1 h
  obtain ⟨hline, hnone⟩ := List.mem_filter.1 hline
  exact ⟨line, hline, Option.isNone_iff_eq_none.1 hnone, rfl⟩

end AliasBlock

end CallTable
