import CallTable.Proofs.Signature.ParameterLine
import Mathlib.Data.List.Induction
import Mathlib.Data.Nat.Find
import Mathlib.Tactic.ByContra

/-!
# Where a parameter line is split

A line that declares a parameter is split at two places: behind the first run of visible characters
that ends in a colon before a blank, and at the last comma of the line.
`Parameter.ofLine?_iff_splitAt` states the rule by the positions of these places, and
`Parameter.isSome_ofLine?_iff` says that a line declares a parameter exactly if the comma stands at
least two characters behind the run.
-/

namespace CallTable

open Text

/-! ## Positions of a line -/

namespace Text

/-- The characters from one position up to another. -/
def slice (text : List Char) (i j : Nat) : List Char :=
  (text.drop i).take (j - i)

/-- A visible character stands at the position. -/
def visibleAt (text : List Char) (i : Nat) : Bool :=
  text[i]?.any isVisible

/-- A blank stands at the position. -/
def blankAt (text : List Char) (i : Nat) : Bool :=
  text[i]?.any isBlank

theorem slice_append (before part after : List Char) :
    slice (before ++ (part ++ after)) before.length (before.length + part.length) = part := by
  rw [slice, List.drop_left, Nat.add_sub_cancel_left, List.take_left]

/-- A text is what stands before a position, what stands between it and another, and the rest. -/
theorem take_slice_drop (text : List Char) {i j : Nat} (h : i ≤ j) :
    text.take i ++ (slice text i j ++ text.drop j) = text := by
  have hdrop : text.drop j = (text.drop i).drop (j - i) := by
    rw [List.drop_drop, Nat.add_sub_cancel' h]
  rw [slice, hdrop, List.take_append_drop, List.take_append_drop]

/-- Two stretches that meet are one stretch. -/
theorem slice_append_slice (text : List Char) {i j k : Nat} (hij : i ≤ j) (hjk : j ≤ k) :
    slice text i j ++ slice text j k = slice text i k := by
  have hdrop : text.drop j = (text.drop i).drop (j - i) := by
    rw [List.drop_drop, Nat.add_sub_cancel' hij]
  rw [slice, slice, slice, hdrop, ← List.take_add, show j - i + (k - j) = k - i by omega]

theorem length_slice {text : List Char} {i j : Nat} (h : j ≤ text.length) :
    (slice text i j).length = j - i := by
  rw [slice, List.length_take, List.length_drop]
  omega

theorem getElem?_slice (text : List Char) {i j k : Nat} (h : i + k < j) :
    (slice text i j)[k]? = text[i + k]? := by
  rw [slice, List.getElem?_take_of_lt (by omega), List.getElem?_drop]

theorem head?_slice (text : List Char) {i j : Nat} (h : i < j) :
    (slice text i j).head? = text[i]? := by
  rw [List.head?_eq_getElem?, getElem?_slice text (show i + 0 < j from h), Nat.add_zero]

/-- What holds at every position of a stretch holds of its characters. -/
theorem forall_mem_slice {p : Char → Bool} {text : List Char} {i j : Nat}
    (h : ∀ k, i ≤ k → k < j → text[k]?.any p = true) : ∀ c ∈ slice text i j, p c = true := by
  intro c hc
  obtain ⟨k, hk, rfl⟩ := List.getElem_of_mem hc
  have hbound : i + k < j := by
    rw [slice, List.length_take] at hk
    omega
  have hhere := h (i + k) (Nat.le_add_right i k) hbound
  rwa [← getElem?_slice text hbound, List.getElem?_eq_getElem hk, Option.any_some] at hhere

/-- What holds of the characters of a part holds at their positions. -/
theorem any_getElem?_middle {p : Char → Bool} (before : List Char) {part : List Char}
    (after : List Char) (h : ∀ c ∈ part, p c = true) {i : Nat} (hlow : before.length ≤ i)
    (hhigh : i < before.length + part.length) : (before ++ (part ++ after))[i]?.any p = true := by
  have hbound : i - before.length < part.length := by omega
  rw [List.getElem?_append_right hlow, List.getElem?_append_left hbound,
    List.getElem?_eq_getElem hbound, Option.any_some]
  exact h _ (List.getElem_mem hbound)

end Text

/-- A run of at least two visible characters, which no other visible character precedes, starts at
the first position, and its last character, a colon, stands right before the second, where a blank
stands. -/
structure LabelAt (text : List Char) (start stop : Nat) : Prop where
  two_le : start + 2 ≤ stop
  visible : ∀ i, start ≤ i → i < stop → visibleAt text i = true
  begins : 0 < start → blankAt text (start - 1) = true
  colon : text[stop - 1]? = some ':'
  ends : blankAt text stop = true

/-- A label stands at the two positions, and no other ends before it. -/
structure FirstLabelAt (line : List Char) (start stop : Nat) : Prop extends
    LabelAt line start stop where
  first : ∀ other otherStop, LabelAt line other otherStop → stop ≤ otherStop

/-- The last comma of the text stands at the position. -/
structure LastCommaAt (text : List Char) (last : Nat) : Prop where
  comma : text[last]? = some ','
  last : ∀ i, last < i → text[i]? ≠ some ','

/-- The type between a label that ends at the first position and a comma at the second: the text
from the first visible character up to the comma, or else the blank right before the comma. -/
inductive TypeBetween (line : List Char) (stop last : Nat) : List Char → Prop where
  | visible (v : Nat) (stop_le : stop ≤ v) (lt_last : v < last)
      (isVisible : visibleAt line v = true)
      (isFirst : ∀ i, stop ≤ i → i < v → blankAt line i = true) :
      TypeBetween line stop last (slice line v last)
  | blank (allBlank : ∀ i, stop ≤ i → i < last → blankAt line i = true) :
      TypeBetween line stop last (slice line (last - 1) last)

/-- The line is split into the name and the type of the parameter. -/
def SplitAt (line : List Char) (parameter : Parameter) : Prop :=
  ∃ start stop last, FirstLabelAt line start stop ∧ LastCommaAt line last ∧ stop + 2 ≤ last ∧
    parameter.name.toList = slice line start (stop - 1) ∧
    TypeBetween line stop last parameter.type.toList

/-! ## From positions to parts -/

/-- Where a label stands, the line has a word before the colon there. -/
theorem LabelAt.exists_word {line : List Char} {start stop : Nat} (h : LabelAt line start stop) :
    ∃ before name rest, line = before ++ (name ++ ':' :: rest) ∧ before.length = start ∧
      start + name.length + 1 = stop ∧ (∀ c ∈ before.getLast?, isBlank c = true) ∧
      IsWord name ∧ ∃ blank ∈ rest.head?, isBlank blank = true := by
  have hcolon : stop - 1 < line.length := (List.getElem?_eq_some_iff.1 h.colon).1
  have htwo := h.two_le
  have hdrop : line.drop (stop - 1) = ':' :: line.drop stop := by
    rw [List.drop_eq_getElem_cons hcolon, (List.getElem?_eq_some_iff.1 h.colon).2,
      Nat.sub_add_cancel (by omega)]
  have hsplit := take_slice_drop line (show start ≤ stop - 1 by omega)
  have hlength : (slice line start (stop - 1)).length = stop - 1 - start :=
    length_slice (Nat.le_of_lt hcolon)
  refine ⟨line.take start, slice line start (stop - 1), line.drop stop, ?_, ?_, ?_, ?_, ?_, ?_⟩
  · rw [← hdrop, hsplit]
  · rw [List.length_take, Nat.min_eq_left (by omega)]
  · omega
  · intro c hc
    rw [List.getLast?_take, Option.mem_def] at hc
    split at hc
    · cases hc
    · have hbegins := h.begins (by omega)
      rw [List.getElem?_eq_getElem (by omega), Option.some_or] at hc
      rw [blankAt, List.getElem?_eq_getElem (by omega), hc] at hbegins
      exact hbegins
  · refine ⟨fun hnone => ?_, forall_mem_slice fun k hlow hhigh => h.visible k hlow (by omega)⟩
    rw [hnone, List.length_nil] at hlength
    omega
  · have hends := h.ends
    rw [blankAt, ← List.head?_drop] at hends
    exact (Option.any_eq_true _ _).1 hends

/-- Where a line has a word before a colon and a blank behind it, a label stands. -/
theorem labelAt_of_word {before name rest : List Char}
    (hbefore : ∀ c ∈ before.getLast?, isBlank c = true) (hname : IsWord name)
    (hrest : ∃ blank ∈ rest.head?, isBlank blank = true) :
    LabelAt (before ++ (name ++ ':' :: rest)) before.length
      (before.length + name.length + 1) := by
  have hrun : before ++ (name ++ ':' :: rest) = before ++ (name ++ [':'] ++ rest) := by simp
  have hvisible : ∀ c ∈ name ++ [':'], isVisible c = true := by
    simpa [or_imp, forall_and] using ⟨hname.2, by decide⟩
  have hlength := List.length_pos_iff.2 hname.1
  refine ⟨by omega, fun i hlow hhigh => ?_, fun hpos => ?_, ?_, ?_⟩
  · rw [hrun]
    exact any_getElem?_middle before rest hvisible hlow (by simpa [Nat.add_assoc] using hhigh)
  · rw [blankAt, List.getElem?_append_left (by omega), ← List.getLast?_eq_getElem?]
    have hsome : before ≠ [] := List.length_pos_iff.1 hpos
    rw [List.getLast?_eq_some_getLast hsome, Option.any_some]
    exact hbefore _ (List.getLast?_eq_some_getLast hsome)
  · rw [Nat.add_sub_cancel, List.getElem?_append_right (by omega), Nat.add_sub_cancel_left,
      List.getElem?_append_right (Nat.le_refl _), Nat.sub_self, List.getElem?_cons_zero]
  · obtain ⟨blank, hhead, hblank⟩ := hrest
    rw [blankAt, List.getElem?_append_right (by omega), Nat.add_assoc, Nat.add_sub_cancel_left,
      List.getElem?_append_right (by omega), Nat.add_sub_cancel_left, List.getElem?_cons_succ,
      ← List.head?_eq_getElem?, Option.mem_def.1 hhead, Option.any_some, hblank]

/-- The last comma of a line stands behind what it separates from the rest, which has none. -/
theorem lastCommaAt_iff {line : List Char} {last : Nat} :
    LastCommaAt line last ↔
      ∃ before after, line = before ++ ',' :: after ∧ before.length = last ∧ ',' ∉ after := by
  constructor
  · rintro ⟨hcomma, hlast⟩
    obtain ⟨hbound, hget⟩ := List.getElem?_eq_some_iff.1 hcomma
    refine ⟨line.take last, line.drop (last + 1), ?_, ?_, fun hmem => ?_⟩
    · rw [← hget, ← List.drop_eq_getElem_cons hbound, List.take_append_drop]
    · rw [List.length_take, Nat.min_eq_left (Nat.le_of_lt hbound)]
    · obtain ⟨k, hk⟩ := List.getElem?_of_mem hmem
      rw [List.getElem?_drop] at hk
      exact hlast _ (by omega) hk
  · rintro ⟨before, after, rfl, rfl, hafter⟩
    refine ⟨by simp, fun i hi hcomma => hafter ?_⟩
    obtain ⟨k, rfl⟩ := Nat.exists_eq_add_of_lt hi
    rw [List.getElem?_append_right (by omega),
      show before.length + k + 1 - before.length = k + 1 by omega,
      List.getElem?_cons_succ] at hcomma
    exact List.mem_of_getElem? hcomma

/-- A text that ends in a visible character ends in a word that nothing visible precedes. -/
theorem exists_last_word {text : List Char} (h : ∃ c ∈ text.getLast?, isVisible c = true) :
    ∃ before name, text = before ++ name ∧ (∀ c ∈ before.getLast?, isBlank c = true) ∧
      IsWord name := by
  obtain ⟨c, hlast, hvisible⟩ := h
  obtain ⟨front, rfl⟩ := List.getLast?_eq_some_iff.1 (Option.mem_def.1 hlast)
  induction front using List.reverseRecOn generalizing c with
  | nil => exact ⟨[], [c], rfl, by simp, by simp, by simpa using hvisible⟩
  | append_singleton front d ih =>
    by_cases hd : isVisible d = true
    · obtain ⟨before, name, hsplit, hbefore, hname⟩ := ih d hd (by simp)
      refine ⟨before, name ++ [c], by rw [hsplit, List.append_assoc], hbefore, by simp, ?_⟩
      simpa [or_imp, forall_and] using ⟨hname.2, hvisible⟩
    · refine ⟨front ++ [d], [c], rfl, ?_, by simp, by simpa using hvisible⟩
      simpa [isVisible] using hd

/-- Behind a part that ends in a blank, a label is the first one exactly if the part holds none. -/
theorem firstLabelAt_iff {before name rest : List Char}
    (hbefore : ∀ c ∈ before.getLast?, isBlank c = true) (hname : IsWord name)
    (hrest : ∃ blank ∈ rest.head?, isBlank blank = true) :
    FirstLabelAt (before ++ (name ++ ':' :: rest)) before.length
      (before.length + name.length + 1) ↔ ¬ HasLabel before := by
  have hlabel : LabelAt (before ++ (name ++ ':' :: rest)) before.length
      (before.length + name.length + 1) := labelAt_of_word hbefore hname hrest
  constructor
  · rintro ⟨-, hfirst⟩ ⟨c, blank, hc, hblank, front, after, hsplit⟩
    have hlast : ∃ d ∈ (front ++ [c]).getLast?, isVisible d = true := ⟨c, by simp, hc⟩
    obtain ⟨start, word, hstart, hends, hword⟩ := exists_last_word hlast
    have hother : LabelAt (before ++ (name ++ ':' :: rest)) start.length
        (start.length + word.length + 1) := by
      have hline : before ++ (name ++ ':' :: rest) =
          start ++ (word ++ ':' :: (blank :: (after ++ (name ++ ':' :: rest)))) := by
        rw [← List.append_assoc start, ← hstart, ← hsplit]
        simp
      rw [hline]
      exact labelAt_of_word hends hword ⟨blank, rfl, hblank⟩
    have hle := hfirst _ _ hother
    have hlength := congrArg List.length hstart
    have hwhole := congrArg List.length hsplit
    simp only [List.length_append, List.length_cons, List.length_nil] at hlength hwhole
    omega
  · intro hnone
    refine ⟨hlabel, fun other otherStop hother => ?_⟩
    by_contra hlt
    -- A label that ended earlier would end before the word, since a blank stands where it ends.
    have hends : otherStop < before.length := by
      by_contra hge
      have hvisible := hlabel.visible otherStop (by omega) (by omega)
      have hblank := hother.ends
      rw [visibleAt, Option.any_eq_true] at hvisible
      rw [blankAt, Option.any_eq_true] at hblank
      obtain ⟨c, hc, hcvisible⟩ := hvisible
      obtain ⟨d, hd, hdblank⟩ := hblank
      obtain rfl := Option.some.inj (hc.symm.trans hd)
      rw [isVisible, hdblank] at hcvisible
      cases hcvisible
    obtain ⟨start, word, tail, hsplit, hstart, hstop, -, hword, blank, hhead, hblank⟩ :=
      hother.exists_word
    obtain ⟨tail, rfl⟩ := List.head?_eq_some_iff.1 (Option.mem_def.1 hhead)
    have hwhole : start ++ (word ++ [':', blank]) <+: before ++ (name ++ ':' :: rest) :=
      ⟨tail, by rw [hsplit]; simp⟩
    have hprefix : start ++ (word ++ [':', blank]) <+: before := by
      refine List.prefix_of_prefix_length_le hwhole (List.prefix_append _ _) ?_
      simp only [List.length_append, List.length_cons, List.length_nil]
      omega
    exact hnone ((Parameter.has_label_of_word hword hblank []).mono
      ((List.suffix_append start _).isInfix.trans hprefix.isInfix))

/-! ## The rule -/

/-- Between a label and the last comma there are blanks and a type. -/
theorem typeBetween_iff {before between after type : List Char} (hne : between ≠ []) :
    TypeBetween (before ++ (between ++ after)) before.length (before.length + between.length) type ↔
      ∃ gap, between = gap ++ type ∧ (∀ c ∈ gap, isBlank c = true) ∧ IsType type := by
  have hlength := List.length_pos_iff.2 hne
  have hbetween := slice_append before between after
  constructor
  · rintro (⟨v, hlow, hhigh, hvisible, hblank⟩ | ⟨hblank⟩)
    · refine ⟨_, ?_, forall_mem_slice hblank, Or.inl ?_⟩
      · rw [slice_append_slice _ hlow (Nat.le_of_lt hhigh), hbetween]
      · rw [visibleAt, ← head?_slice _ hhigh] at hvisible
        exact (Option.any_eq_true _ _).1 hvisible
    · have hlast := hblank (before.length + between.length - 1) (by omega) (by omega)
      refine ⟨slice (before ++ (between ++ after)) before.length
        (before.length + between.length - 1), ?_, forall_mem_slice fun i hlow hhigh => ?_,
        Or.inr ?_⟩
      · rw [slice_append_slice _ (by omega) (by omega), hbetween]
      · exact hblank i hlow (by omega)
      · obtain ⟨c, hc, hcblank⟩ := (Option.any_eq_true _ _).1 hlast
        refine ⟨c, hcblank, ?_⟩
        rw [slice, Nat.sub_sub_self (by omega), List.take_one, List.head?_drop, hc]
        rfl
  · rintro ⟨gap, rfl, hgap, htype⟩
    have hslice : slice (before ++ (gap ++ type ++ after)) (before.length + gap.length)
        (before.length + (gap ++ type).length) = type := by
      simpa [Nat.add_assoc] using slice_append (before ++ gap) type after
    have hlast : before.length + gap.length < before.length + (gap ++ type).length := by
      have htypeLength := List.length_pos_iff.2 htype.ne_nil
      rw [List.length_append]
      omega
    rcases htype with ⟨c, hhead, hvisible⟩ | ⟨c, hcblank, rfl⟩
    · have hrule : TypeBetween (before ++ (gap ++ type ++ after)) before.length
          (before.length + (gap ++ type).length)
          (slice (before ++ (gap ++ type ++ after)) (before.length + gap.length)
            (before.length + (gap ++ type).length)) := by
        refine .visible _ (Nat.le_add_right _ _) hlast ?_ fun i hlow hhigh => ?_
        · rw [visibleAt, ← head?_slice _ hlast, hslice, Option.mem_def.1 hhead, Option.any_some,
            hvisible]
        · rw [List.append_assoc]
          exact any_getElem?_middle before (type ++ after) hgap hlow hhigh
      rwa [hslice] at hrule
    · have hall : ∀ d ∈ gap ++ [c], isBlank d = true := by
        simpa [or_imp, forall_and] using ⟨hgap, hcblank⟩
      have hrule : TypeBetween (before ++ (gap ++ [c] ++ after)) before.length
          (before.length + (gap ++ [c]).length) _ :=
        .blank fun i hlow hhigh => any_getElem?_middle before after hall hlow hhigh
      have hprevious : before.length + (gap ++ [c]).length - 1 = before.length + gap.length := by
        rw [List.length_append, List.length_singleton]
        omega
      rwa [hprevious, hslice] at hrule

/-- Where a comma stands behind a label, the text between the two is what follows the label up to
the comma. -/
theorem exists_between {start rest front after : List Char}
    (h : start ++ rest = front ++ ',' :: after) (hroom : start.length ≤ front.length) :
    ∃ between, rest = between ++ ',' :: after ∧ start.length + between.length = front.length := by
  have hstart : start <+: front ++ ',' :: after := ⟨rest, h⟩
  obtain ⟨between, rfl⟩ : start <+: front :=
    List.prefix_of_prefix_length_le hstart (List.prefix_append _ _) hroom
  refine ⟨between, ?_, List.length_append.symm⟩
  rwa [List.append_assoc, List.append_cancel_left_eq] at h

/-- Behind a label a type is set off by a blank: one that starts with a blank is nothing but that
blank, so it leaves room for another. -/
theorem gap_ne_nil {gap type : List Char} (hlength : 2 ≤ (gap ++ type).length)
    (hblank : ∃ blank ∈ (gap ++ type).head?, isBlank blank = true) (htype : IsType type) :
    gap ≠ [] := by
  rintro rfl
  obtain ⟨c, hc, hcblank⟩ := hblank
  rcases htype with ⟨d, hd, hvisible⟩ | ⟨d, -, rfl⟩
  · obtain rfl := Option.some.inj ((Option.mem_def.1 hc).symm.trans hd)
    rw [isVisible, hcblank] at hvisible
    cases hvisible
  · simp at hlength

/-- A line that is split has the parts of a line that declares the parameter. -/
theorem SplitAt.exists_parts {line : List Char} {parameter : Parameter}
    (h : SplitAt line parameter) :
    ∃ parts : ParameterLine, parts.text = line ∧ parts.parameter = parameter := by
  obtain ⟨start, stop, last, hlabel, hcomma, hroom, hname, htype⟩ := h
  obtain ⟨before, name, rest, rfl, rfl, rfl, hbefore, hword, hrest⟩ :=
    hlabel.toLabelAt.exists_word
  obtain ⟨front, after, hsplit, rfl, hafter⟩ := lastCommaAt_iff.1 hcomma
  have hlength : (before ++ (name ++ [':'])).length = before.length + name.length + 1 := by
    simp [Nat.add_assoc]
  have hstart : before ++ (name ++ ':' :: rest) = before ++ (name ++ [':']) ++ rest := by simp
  rw [hstart] at hsplit
  obtain ⟨between, rfl, hbetween⟩ := exists_between hsplit (by omega)
  have hne : between ≠ [] := by
    rintro rfl
    simp only [List.length_nil] at hbetween
    omega
  rw [hstart, ← hlength, ← hbetween, typeBetween_iff hne] at htype
  obtain ⟨gap, hgap, hgapBlank, hshape⟩ := htype
  have hblank : ∃ blank ∈ between.head?, isBlank blank = true := by
    obtain ⟨c, hc, hcblank⟩ := hrest
    rw [List.head?_append, List.head?_eq_some_head hne, Option.some_or,
      ← List.head?_eq_some_head hne] at hc
    exact ⟨c, hc, hcblank⟩
  have hlong : 2 ≤ between.length := by omega
  rw [hgap] at hblank hlong
  have hgapNe := gap_ne_nil hlong hblank hshape
  have hunlabelled := (firstLabelAt_iff hbefore hword hrest).1 hlabel
  refine ⟨⟨before, name, gap, parameter.type.toList, after, hbefore, hunlabelled, hword, hgapNe,
    hgapBlank, hshape, hafter⟩, ?_, ?_⟩
  · simp [ParameterLine.text, hgap]
  · have hslice := slice_append before name (':' :: (between ++ ',' :: after))
    rw [Nat.add_sub_cancel, hslice] at hname
    obtain ⟨parameterName, parameterType⟩ := parameter
    show Parameter.mk (String.ofList name) (String.ofList parameterType.toList) = _
    rw [← hname, String.ofList_toList, String.ofList_toList]

/-- A line that declares a parameter is split into its parts. -/
theorem ParameterLine.splitAt (parts : ParameterLine) : SplitAt parts.text parts.parameter := by
  obtain ⟨before, name, gap, type, after, hends, hnone, hname, hgap, hgapBlank, hshape, hcomma⟩ :=
    parts
  have hgapLength := List.length_pos_iff.2 hgap
  have htypeLength := List.length_pos_iff.2 hshape.ne_nil
  have hrest : ∃ blank ∈ (gap ++ type ++ ',' :: after).head?, isBlank blank = true := by
    obtain ⟨blank, gap, rfl⟩ := List.exists_cons_of_ne_nil hgap
    exact ⟨blank, rfl, hgapBlank blank List.mem_cons_self⟩
  have hstart : before ++ (name ++ ':' :: (gap ++ type ++ ',' :: after)) =
      before ++ (name ++ [':']) ++ (gap ++ type ++ ',' :: after) := by simp
  have hstop : (before ++ (name ++ [':'])).length = before.length + name.length + 1 := by
    simp [Nat.add_assoc]
  have hlast := lastCommaAt_iff.2
    ⟨before ++ (name ++ [':']) ++ (gap ++ type), after, rfl, rfl, hcomma⟩
  rw [List.append_assoc, ← hstart, List.length_append, hstop] at hlast
  refine ⟨before.length, before.length + name.length + 1,
    before.length + name.length + 1 + (gap ++ type).length,
    (firstLabelAt_iff hends hname hrest).2 hnone, hlast, ?_, ?_, ?_⟩
  · rw [List.length_append]
    omega
  · rw [ParameterLine.text, Nat.add_sub_cancel, slice_append]
    exact String.toList_ofList
  · have hne : gap ++ type ≠ [] := by simp [hgap]
    rw [ParameterLine.text, hstart, ← hstop, typeBetween_iff hne]
    exact ⟨gap, by rw [ParameterLine.parameter, String.toList_ofList], hgapBlank, by
      rwa [ParameterLine.parameter, String.toList_ofList]⟩

/-- A line is split into a name and a type exactly if it has the parts of a line that declares
them. -/
theorem splitAt_iff {line : List Char} {parameter : Parameter} :
    SplitAt line parameter ↔
      ∃ parts : ParameterLine, parts.text = line ∧ parts.parameter = parameter := by
  constructor
  · exact SplitAt.exists_parts
  · rintro ⟨parts, rfl, rfl⟩
    exact parts.splitAt

/-- A line is read as a parameter exactly if it is split into the parameter's name and type. -/
theorem Parameter.ofLine?_iff_splitAt {line : List Char} {parameter : Parameter} :
    Parameter.ofLine? line = some parameter ↔ SplitAt line parameter := by
  rw [Parameter.ofLine?_eq_some_iff, splitAt_iff]

/-- There is always a type between two positions of a line. -/
theorem exists_typeBetween {line : List Char} (stop : Nat) {last : Nat}
    (hbound : last ≤ line.length) : ∃ type, TypeBetween line stop last type := by
  by_cases hall : ∀ i, stop ≤ i → i < last → blankAt line i = true
  · exact ⟨_, .blank hall⟩
  · -- The type starts at the first position without a blank.
    have hsome : ∃ i, stop ≤ i ∧ i < last ∧ blankAt line i = false := by
      by_contra hnone
      refine hall fun i hlow hhigh => ?_
      by_contra hblank
      exact hnone ⟨i, hlow, hhigh, by simpa using hblank⟩
    obtain ⟨hlow, hhigh, hvisible⟩ := Nat.find_spec hsome
    refine ⟨_, .visible (Nat.find hsome) hlow hhigh ?_ fun i hi hbefore => ?_⟩
    · rw [blankAt, List.getElem?_eq_getElem (by omega), Option.any_some] at hvisible
      rw [visibleAt, List.getElem?_eq_getElem (by omega), Option.any_some, isVisible, hvisible,
        Bool.not_false]
    · by_contra hblank
      exact Nat.find_min hsome hbefore ⟨hi, by omega, by simpa using hblank⟩

/-- A line declares a parameter exactly if it has a label and its last comma stands at least two
characters behind the end of the first one. -/
theorem Parameter.isSome_ofLine?_iff {line : List Char} :
    (Parameter.ofLine? line).isSome ↔
      ∃ start stop last,
        FirstLabelAt line start stop ∧ LastCommaAt line last ∧ stop + 2 ≤ last := by
  rw [Option.isSome_iff_exists]
  constructor
  · rintro ⟨parameter, hparameter⟩
    obtain ⟨start, stop, last, hlabel, hcomma, hroom, -⟩ := ofLine?_iff_splitAt.1 hparameter
    exact ⟨start, stop, last, hlabel, hcomma, hroom⟩
  · rintro ⟨start, stop, last, hlabel, hcomma, hroom⟩
    have hbound := (List.getElem?_eq_some_iff.1 hcomma.comma).1
    obtain ⟨type, htype⟩ := exists_typeBetween stop (Nat.le_of_lt hbound)
    refine ⟨⟨String.ofList (slice line start (stop - 1)), String.ofList type⟩,
      ofLine?_iff_splitAt.2 ⟨start, stop, last, hlabel, hcomma, hroom, ?_, ?_⟩⟩
    · rw [String.toList_ofList]
    · rwa [String.toList_ofList]

end CallTable
