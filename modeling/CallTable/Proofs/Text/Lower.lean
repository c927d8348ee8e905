import CallTable.Text.Lower
import Mathlib.Data.List.Chain

/-!
# Lowercase, position by position

Lowercasing goes through a text once and asks of a capital sigma what stands on both sides of it.
`IsLowercase` says what has to come out without that walk: a text is put together from one form for
each character, the form that the tables of the standard list for the character or, for a capital
sigma, the one that the nearest characters around it call for. By `isLowercase_iff` there is exactly
one such text, and lowercasing finds it.
-/

namespace CallTable.Text

/-! ## The rules of the standard -/

/-- The character lies in one of the ranges of a table. -/
def InTable (ranges : List (Nat × Nat)) (c : Char) : Prop :=
  ∃ range ∈ ranges, range.1 ≤ c.toNat ∧ c.toNat ≤ range.2

/-- The first character of the text that is not ignorable is cased. -/
def StartsCased (text : List Char) : Prop :=
  ∃ ignored c rest, text = ignored ++ c :: rest ∧
    (∀ d ∈ ignored, InTable caseIgnorableRanges d) ∧
    ¬ InTable caseIgnorableRanges c ∧ InTable casedRanges c

/-- The last character of the text that is not ignorable is cased. -/
def EndsCased (text : List Char) : Prop :=
  StartsCased text.reverse

/-- The character is one of the capitals of the run. -/
structure CapitalRun.Lists (run : CapitalRun) (c : Char) : Prop where
  first_le : run.first ≤ c.toNat
  le_last : c.toNat ≤ run.last
  stride_dvd : run.stride ∣ c.toNat - run.first

/-- What a character becomes between two texts. In ASCII the tables agree with `Char.toLower`. They
leave out the dotted capital, which becomes two characters, and do not tell the two forms of a sigma
apart. -/
inductive Lowers (before after : List Char) : Char → List Char → Prop where
  | ascii {c : Char} (toNat_lt : c.toNat < 0x80) : Lowers before after c [c.toLower]
  | dotted : Lowers before after '\u0130' ['i', '\u0307']
  | finalSigma (ends : EndsCased before) (stops : ¬ StartsCased after) :
      Lowers before after 'Σ' ['ς']
  | sigma (not_final : EndsCased before → StartsCased after) : Lowers before after 'Σ' ['σ']
  | capital {c : Char} {run : CapitalRun} (ne_sigma : c ≠ 'Σ') (run_mem : run ∈ capitalRuns)
      (lists : run.Lists c) : Lowers before after c [Char.ofNat (run.image + (c.toNat - run.first))]
  | other {c : Char} (ne_dotted : c ≠ '\u0130')
      (not_lists : ∀ run ∈ capitalRuns, ¬ run.Lists c) : Lowers before after c [c]

/-- The forms are what the characters of a text become that stands behind another one. -/
structure AreForms (before text : List Char) (forms : List (List Char)) : Prop where
  length_eq : forms.length = text.length
  lowers : ∀ i c form, text[i]? = some c → forms[i]? = some form →
    Lowers (before ++ text.take i) (text.drop (i + 1)) c form

/-- The second text is the first in lowercase. -/
def IsLowercase (text lowered : List Char) : Prop :=
  ∃ forms, AreForms [] text forms ∧ forms.flatten = lowered

/-! ## Tables -/

theorem inRanges_iff {ranges : List (Nat × Nat)} {c : Char} :
    inRanges ranges c.toNat = true ↔ InTable ranges c := by
  simp [inRanges, InTable]

theorem CapitalRun.contains_iff {run : CapitalRun} {c : Char} :
    run.contains c.toNat = true ↔ run.Lists c := by
  simp only [contains, Bool.and_eq_true, decide_eq_true_eq, beq_iff_eq, and_assoc]
  constructor
  · rintro ⟨hfirst, hlast, hstride⟩
    exact ⟨hfirst, hlast, Nat.dvd_of_mod_eq_zero hstride⟩
  · rintro ⟨hfirst, hlast, hstride⟩
    exact ⟨hfirst, hlast, Nat.mod_eq_zero_of_dvd hstride⟩

/-- The second run lies behind the first. -/
def CapitalRun.Precedes (run other : CapitalRun) : Prop :=
  run.last < other.first ∧ other.first ≤ other.last

instance (run other : CapitalRun) : Decidable (run.Precedes other) :=
  inferInstanceAs (Decidable (_ ∧ _))

instance : Trans CapitalRun.Precedes CapitalRun.Precedes CapitalRun.Precedes where
  trans h h' := ⟨Nat.lt_of_lt_of_le h.1 (Nat.le_of_lt (Nat.lt_of_le_of_lt h.2 h'.1)), h'.2⟩

/-- The runs of capitals are in ascending order and do not overlap. -/
theorem pairwise_capitalRuns : capitalRuns.Pairwise CapitalRun.Precedes := by
  have hchain : capitalRuns.IsChain CapitalRun.Precedes := by decide +kernel
  exact hchain.pairwise

/-- No two runs list the same capital. -/
theorem CapitalRun.eq_of_lists {run other : CapitalRun} {c : Char} (hrun : run ∈ capitalRuns)
    (hother : other ∈ capitalRuns) (h : run.Lists c) (h' : other.Lists c) : run = other := by
  obtain ⟨i, hi, rfl⟩ := List.getElem_of_mem hrun
  obtain ⟨j, hj, rfl⟩ := List.getElem_of_mem hother
  have hordered := List.pairwise_iff_getElem.1 pairwise_capitalRuns
  rcases Nat.lt_trichotomy i j with hlt | rfl | hlt
  · have hbehind := (hordered i j hi hj hlt).1
    exact absurd (Nat.le_trans h'.first_le h.le_last) (Nat.not_le.2 hbehind)
  · rfl
  · have hbehind := (hordered j i hj hi hlt).1
    exact absurd (Nat.le_trans h.first_le h'.le_last) (Nat.not_le.2 hbehind)

/-- The search through the runs finds the one that lists a capital. -/
theorem find?_capitalRuns {run : CapitalRun} {c : Char} (hrun : run ∈ capitalRuns)
    (h : run.Lists c) : capitalRuns.find? (·.contains c.toNat) = some run := by
  cases hfound : capitalRuns.find? (·.contains c.toNat) with
  | none => exact absurd (CapitalRun.contains_iff.2 h) (List.find?_eq_none.1 hfound run hrun)
  | some other =>
      have hother := List.mem_of_find?_eq_some hfound
      have hcontains := List.find?_some hfound
      rw [CapitalRun.eq_of_lists hother hrun (CapitalRun.contains_iff.1 hcontains) h]

/-- The dotted capital is in no run. -/
theorem CapitalRun.not_lists_dotted {run : CapitalRun} (hrun : run ∈ capitalRuns) :
    ¬ run.Lists '\u0130' := by
  have hnone : ∀ run ∈ capitalRuns, run.contains 0x130 = false := by decide +kernel
  rw [← contains_iff]
  simpa using hnone run hrun

/-- The capital sigma is in a run. -/
theorem exists_lists_sigma : ∃ run ∈ capitalRuns, run.Lists 'Σ' := by
  have hsome : ∃ run ∈ capitalRuns, run.contains 0x3A3 = true := by decide +kernel
  obtain ⟨run, hrun, hcontains⟩ := hsome
  exact ⟨run, hrun, CapitalRun.contains_iff.1 hcontains⟩

/-! ## Characters -/

theorem lowerChar_dotted : lowerChar '\u0130' = ['i', '\u0307'] :=
  if_pos rfl

/-- A capital of a run becomes the letter that stands at its place among the images. -/
theorem lowerChar_of_lists {run : CapitalRun} {c : Char} (hrun : run ∈ capitalRuns)
    (h : run.Lists c) : lowerChar c = [Char.ofNat (run.image + (c.toNat - run.first))] := by
  have hdotted : c ≠ '\u0130' := by
    rintro rfl
    exact CapitalRun.not_lists_dotted hrun h
  rw [lowerChar, if_neg hdotted, find?_capitalRuns hrun h]

/-- A character that is in no run stays. -/
theorem lowerChar_of_not_lists {c : Char} (hdotted : c ≠ '\u0130')
    (h : ∀ run ∈ capitalRuns, ¬ run.Lists c) : lowerChar c = [c] := by
  have hsearch : capitalRuns.find? (·.contains c.toNat) = none :=
    List.find?_eq_none.2 fun run hrun hcontains => h run hrun (CapitalRun.contains_iff.1 hcontains)
  rw [lowerChar, if_neg hdotted, hsearch]

/-- Of the characters of ASCII, the tables lower the letters. -/
theorem lowerChar_ascii {c : Char} (h : c.toNat < 0x80) : lowerChar c = [c.toLower] := by
  by_cases hcapital : 0x41 ≤ c.toNat ∧ c.toNat ≤ 0x5A
  · have hall : ∀ code < 0x5B, 0x41 ≤ code →
        lowerChar (Char.ofNat code) = [(Char.ofNat code).toLower] := by decide +kernel
    simpa using hall c.toNat (by omega) hcapital.1
  · have hall : ∀ code < 0x80, ¬ (0x41 ≤ code ∧ code ≤ 0x5A) →
        (Char.ofNat code).toLower = Char.ofNat code := by decide +kernel
    have hstays : c.toLower = c := by simpa using hall c.toNat h hcapital
    have hdotted : c ≠ '\u0130' := by
      rintro rfl
      exact absurd h (by decide)
    have hruns : ∀ run ∈ capitalRuns,
        0x41 ≤ run.first ∧ (run.last ≤ 0x5A ∨ 0x80 ≤ run.first) := by decide +kernel
    have hnone : ∀ run ∈ capitalRuns, ¬ run.Lists c := by
      rintro run hrun ⟨hfirst, hlast, -⟩
      have hrange := hruns run hrun
      omega
    rw [lowerChar_of_not_lists hdotted hnone, hstays]

/-- What counts of a text is found behind everything ignorable. -/
theorem meetsCased_iff {text : List Char} : meetsCased text = true ↔ StartsCased text := by
  rw [meetsCased]
  constructor
  · intro h
    cases hrest : text.dropWhile isCaseIgnorable with
    | nil => simp [hrest] at h
    | cons c rest =>
        have hne : text.dropWhile isCaseIgnorable ≠ [] := by simp [hrest]
        have hstop := List.head_dropWhile_not isCaseIgnorable hne
        simp only [hrest, List.head?_cons, Option.any_some, List.head_cons] at h hstop
        refine ⟨text.takeWhile isCaseIgnorable, c, rest, ?_, ?_, ?_, inRanges_iff.1 h⟩
        · rw [← hrest, List.takeWhile_append_dropWhile]
        · exact fun d hd => inRanges_iff.1 (List.all_eq_true.1 List.all_takeWhile d hd)
        · rw [← inRanges_iff]
          exact Bool.eq_false_iff.1 hstop
  · rintro ⟨ignored, c, rest, rfl, hignored, hstop, hcased⟩
    have hskip : ∀ d ∈ ignored, isCaseIgnorable d = true :=
      fun d hd => inRanges_iff.2 (hignored d hd)
    have hhere : isCaseIgnorable c = false :=
      Bool.eq_false_iff.2 fun hc => hstop (inRanges_iff.1 hc)
    rw [List.dropWhile_append_of_pos hskip, List.dropWhile_cons_of_neg (by simp [hhere]),
      List.head?_cons, Option.any_some]
    exact inRanges_iff.2 hcased

/-- A character becomes one form, which the walk over a text gives it. -/
theorem lowers_iff {before after form : List Char} {c : Char} :
    Lowers before after c form ↔
      form = if c = 'Σ' then
          if meetsCased before.reverse && !meetsCased after then ['ς'] else ['σ']
        else lowerChar c := by
  have hsides : (meetsCased before.reverse && !meetsCased after) = true ↔
      EndsCased before ∧ ¬ StartsCased after := by
    rw [Bool.and_eq_true, meetsCased_iff, Bool.not_eq_true', Bool.eq_false_iff, ne_eq,
      meetsCased_iff, EndsCased]
  constructor
  · intro h
    cases h with
    | ascii hc =>
        have hne : c ≠ 'Σ' := by
          rintro rfl
          exact absurd hc (by decide)
        rw [if_neg hne, lowerChar_ascii hc]
    | dotted => rw [if_neg (by decide), lowerChar_dotted]
    | finalSigma hends hstops => rw [if_pos rfl, if_pos (hsides.2 ⟨hends, hstops⟩)]
    | sigma hgoes => rw [if_pos rfl, if_neg fun h => (hsides.1 h).2 (hgoes (hsides.1 h).1)]
    | capital hne hrun hlists => rw [if_neg hne, lowerChar_of_lists hrun hlists]
    | other hdotted hnone =>
        have hne : c ≠ 'Σ' := by
          rintro rfl
          obtain ⟨run, hrun, hlists⟩ := exists_lists_sigma
          exact hnone run hrun hlists
        rw [if_neg hne, lowerChar_of_not_lists hdotted hnone]
  · rintro rfl
    by_cases hsigma : c = 'Σ'
    · rw [if_pos hsigma, hsigma]
      split
      · next h => exact .finalSigma (hsides.1 h).1 (hsides.1 h).2
      · next h => exact .sigma fun hends =>
          Classical.byContradiction fun hstops => h (hsides.2 ⟨hends, hstops⟩)
    · rw [if_neg hsigma]
      by_cases hdotted : c = '\u0130'
      · rw [hdotted, lowerChar_dotted]
        exact .dotted
      · by_cases hlisted : ∃ run ∈ capitalRuns, run.Lists c
        · obtain ⟨run, hrun, hlists⟩ := hlisted
          rw [lowerChar_of_lists hrun hlists]
          exact .capital hsigma hrun hlists
        · have hnone : ∀ run ∈ capitalRuns, ¬ run.Lists c :=
            fun run hrun hlists => hlisted ⟨run, hrun, hlists⟩
          rw [lowerChar_of_not_lists hdotted hnone]
          exact .other hdotted hnone

/-! ## Texts -/

theorem areForms_nil_iff {before : List Char} {forms : List (List Char)} :
    AreForms before [] forms ↔ forms = [] := by
  constructor
  · intro h
    exact List.eq_nil_of_length_eq_zero h.length_eq
  · rintro rfl
    exact ⟨rfl, by simp⟩

/-- The forms of a text are that of its first character and those of the others. -/
theorem areForms_cons_iff {before text : List Char} {c : Char} {forms : List (List Char)} :
    AreForms before (c :: text) forms ↔ ∃ form others, forms = form :: others ∧
      Lowers before text c form ∧ AreForms (before ++ [c]) text others := by
  constructor
  · rintro ⟨hlength, hlowers⟩
    obtain ⟨form, others, rfl⟩ := List.exists_cons_of_length_eq_add_one hlength
    refine ⟨form, others, rfl, by simpa using hlowers 0 c form rfl rfl, ?_, ?_⟩
    · simpa using hlength
    · intro i d other hd hother
      simpa using hlowers (i + 1) d other hd hother
  · rintro ⟨form, others, rfl, hfirst, hlength, hlowers⟩
    refine ⟨by simpa using hlength, fun i d other hd hother => ?_⟩
    cases i with
    | zero =>
        obtain rfl : c = d := Option.some.inj hd
        obtain rfl : form = other := Option.some.inj hother
        simpa using hfirst
    | succ i => simpa using hlowers i d other hd hother

/-- The forms of a text make up what the walk over it gives. -/
theorem exists_areForms_iff {before text lowered : List Char} :
    (∃ forms, AreForms before text forms ∧ forms.flatten = lowered) ↔
      lowered = lowerAfter before.reverse text := by
  induction text generalizing before lowered with
  | nil => simp [areForms_nil_iff, lowerAfter, eq_comm]
  | cons c text ih =>
      have hbehind : (before ++ [c]).reverse = c :: before.reverse := by simp
      have hothers := @ih (before ++ [c])
      rw [hbehind] at hothers
      simp only [areForms_cons_iff, lowers_iff, lowerAfter]
      constructor
      · rintro ⟨_, ⟨form, others, rfl, rfl, hforms⟩, rfl⟩
        rw [List.flatten_cons, hothers.1 ⟨others, hforms, rfl⟩]
      · rintro rfl
        obtain ⟨others, hforms, hflatten⟩ := hothers.2 rfl
        exact ⟨_, ⟨_, others, rfl, rfl, hforms⟩, by rw [List.flatten_cons, hflatten]⟩

/-- Exactly one text is another one in lowercase, and lowercasing finds it. -/
theorem isLowercase_iff {text lowered : List Char} :
    IsLowercase text lowered ↔ lowered = lowercase text :=
  exists_areForms_iff

example : lowercase "ὈΔΥΣΣΕΎΣ.".toList = "ὀδυσσεύς.".toList := by decide +kernel

end CallTable.Text
