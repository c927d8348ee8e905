import CallTable.Proofs.Identifier.Cut
import CallTable.Proofs.Text.Lower
import Mathlib.Data.List.Induction
import Mathlib.Tactic.ByContra

/-!
# Names position by position

The words of a name are found by a scan, so where a word starts depends on where the one before it
ended. What the scan keeps can nevertheless be told of each position by the characters next to it:
a capital stays if a lowercase letter follows, and a lowercase letter stays if any letter precedes
or a lowercase letter follows. So a name is respelled as the kept characters, with an underscore
wherever characters between two of them are lost or the second is a capital, and the form of the
result follows. The positions are those of the name cut at every `UID` and joined by `uid`, as
`IsUidCut` has it, and where nothing stays, that text in lowercase is the result, as `IsLowercase`
has it.
-/

namespace CallTable.Identifier

open Text

/-! ## Positions -/

/-- A letter stands at the position. -/
def letterAt (text : List Char) (i : Nat) : Bool :=
  text[i]?.any Char.isAlpha

/-- A capital stands at the position. -/
def capitalAt (text : List Char) (i : Nat) : Bool :=
  text[i]?.any Char.isUpper

/-- A lowercase letter stands at the position. -/
def lowerAt (text : List Char) (i : Nat) : Bool :=
  text[i]?.any Char.isLower

/-- The character at the position stays: it is a capital that a lowercase letter follows, or a
lowercase letter that follows any letter or that a lowercase letter follows. -/
def isKept (text : List Char) (i : Nat) : Bool :=
  (capitalAt text i && lowerAt text (i + 1)) ||
    (lowerAt text i && ((decide (0 < i) && letterAt text (i - 1)) || lowerAt text (i + 1)))

/-- The positions of the characters that stay, in order. -/
def keptPositions (text : List Char) : List Nat :=
  (List.range text.length).filter (isKept text)

/-- The character at the position, in lowercase. -/
def loweredAt (text : List Char) (i : Nat) : List Char :=
  (text[i]?.map Char.toLower).toList

/-- What stands between two characters that stay: an underscore if they are not next to each other
or the second is a capital. -/
def separatorAt (text : List Char) (i j : Nat) : List Char :=
  if j ≠ i + 1 ∨ capitalAt text j = true then ['_'] else []

/-- The characters at the positions in lowercase, with what stands between them. -/
def spell (text : List Char) : List Nat → List Char
  | [] => []
  | [i] => loweredAt text i
  | i :: j :: positions => loweredAt text i ++ separatorAt text i j ++ spell text (j :: positions)

/-! ## Where the scan stands -/

/-- A scan may start between the two texts: no word goes on from the first into the second. -/
def Separate (before text : List Char) : Prop :=
  before.getLast?.any Char.isAlpha = true → text.head?.any Char.isLower = false

/-- The positions of the second text that stay, counted from the start of the first. -/
def keptAfter (before text : List Char) : List Nat :=
  (List.range' before.length text.length).filter (isKept (before ++ text))

theorem lowerAt_append_length (before text : List Char) :
    lowerAt (before ++ text) before.length = text.head?.any Char.isLower := by
  rw [lowerAt, List.getElem?_append_right (Nat.le_refl _), Nat.sub_self, List.head?_eq_getElem?]

/-- A position is kept according to the character there and its two neighbours. -/
theorem isKept_append_cons (before : List Char) (c : Char) (text : List Char) :
    isKept (before ++ c :: text) before.length =
      ((c.isUpper && text.head?.any Char.isLower) ||
        (c.isLower && (before.getLast?.any Char.isAlpha || text.head?.any Char.isLower))) := by
  have hhere : (before ++ c :: text)[before.length]? = some c := by simp
  have hnext : lowerAt (before ++ c :: text) (before.length + 1) = text.head?.any Char.isLower := by
    have hlower := lowerAt_append_length (before ++ [c]) text
    rwa [List.append_assoc, List.singleton_append, List.length_append] at hlower
  have hprevious : (decide (0 < before.length) &&
      letterAt (before ++ c :: text) (before.length - 1)) = before.getLast?.any Char.isAlpha := by
    cases before using List.reverseRecOn with
    | nil => rfl
    | append_singleton before d => simp [letterAt]
  rw [isKept, hnext, hprevious, capitalAt, lowerAt, hhere, Option.any_some, Option.any_some]

/-- No word stands at the head of a text exactly if no letter with a lowercase letter behind it
does. -/
theorem readWord?_cons_eq_none_iff {c : Char} {text : List Char} :
    readWord? (c :: text) = none ↔
      (c.isAlpha = true → text.head?.any Char.isLower = false) := by
  have htail : text.takeWhile Char.isLower ≠ [] ↔ text.head?.any Char.isLower = true := by
    cases text with
    | nil => simp
    | cons d text => by_cases hd : d.isLower = true <;> simp [hd]
  simp only [readWord?, ite_eq_right_iff, reduceCtorEq, imp_false, htail, not_and,
    Bool.not_eq_true]

/-- A word is a letter and at least one lowercase letter, and no lowercase letter follows it. -/
theorem exists_letters_of_readWord? {text found rest : List Char}
    (h : readWord? text = some (found, rest)) :
    ∃ c tail, found = c :: tail ∧ text = c :: (tail ++ rest) ∧ c.isAlpha = true ∧ tail ≠ [] ∧
      (∀ d ∈ tail, d.isLower = true) ∧ rest.head?.any Char.isLower = false := by
  cases text with
  | nil => cases h
  | cons c text =>
    simp only [readWord?, Option.ite_none_right_eq_some, Option.some.injEq, Prod.mk.injEq] at h
    obtain ⟨⟨hc, htail⟩, rfl, rfl⟩ := h
    refine ⟨c, _, rfl, by rw [List.takeWhile_append_dropWhile], hc, htail,
      List.all_eq_true.1 List.all_takeWhile, ?_⟩
    cases hrest : text.dropWhile Char.isLower with
    | nil => rfl
    | cons d rest =>
      have hne : text.dropWhile Char.isLower ≠ [] := by simp [hrest]
      have hhead := List.head_dropWhile_not Char.isLower hne
      simpa [hrest] using hhead

/-- A character at which no word stands is lost, and the scan may start behind it. -/
theorem isKept_of_readWord?_eq_none {before text : List Char} {c : Char}
    (hseparate : Separate before (c :: text)) (h : readWord? (c :: text) = none) :
    isKept (before ++ c :: text) before.length = false ∧ Separate (before ++ [c]) text := by
  have hnext := readWord?_cons_eq_none_iff.1 h
  refine ⟨?_, by simpa [Separate] using hnext⟩
  rw [isKept_append_cons]
  by_cases hcapital : c.isUpper = true
  · rw [hnext (isAlpha_of_isUpper hcapital), isLower_eq_false_of_isUpper hcapital]
    simp
  · by_cases hlower : c.isLower = true
    · have hprevious : before.getLast?.any Char.isAlpha = false := by
        by_contra hletter
        have hhead := hseparate (by simpa using hletter)
        simp [hlower] at hhead
      rw [hnext (isAlpha_of_isLower hlower), hprevious]
      simp
    · simp [hcapital, hlower]

/-- The first position of the second text stays or is lost, and the others are those of the rest. -/
theorem keptAfter_cons (before : List Char) (c : Char) (text : List Char) :
    keptAfter before (c :: text) =
      (if isKept (before ++ c :: text) before.length = true then [before.length] else []) ++
        keptAfter (before ++ [c]) text := by
  rw [keptAfter, List.length_cons, List.range'_succ, List.filter_cons, keptAfter,
    List.length_append, List.length_singleton, List.append_assoc, List.singleton_append]
  split <;> rfl

/-- The lowercase letters behind a letter stay. -/
theorem keptAfter_lower (before : List Char) {tail : List Char} (rest : List Char)
    (hbefore : before.getLast?.any Char.isAlpha = true) (htail : ∀ d ∈ tail, d.isLower = true) :
    keptAfter before (tail ++ rest) =
      List.range' before.length tail.length ++ keptAfter (before ++ tail) rest := by
  induction tail generalizing before with
  | nil => simp
  | cons d tail ih =>
    obtain ⟨hd, htail⟩ := List.forall_mem_cons.1 htail
    have hkept : isKept (before ++ d :: (tail ++ rest)) before.length = true := by
      rw [isKept_append_cons, hd, hbefore]
      simp
    have hfurther := ih (before ++ [d]) (by simp [isAlpha_of_isLower hd]) htail
    rw [List.cons_append, keptAfter_cons, if_pos hkept, hfurther, List.length_cons,
      List.range'_succ]
    simp

/-- The characters of a word stay. -/
theorem keptAfter_word {before rest tail : List Char} {c : Char} (hc : c.isAlpha = true)
    (hne : tail ≠ []) (htail : ∀ d ∈ tail, d.isLower = true) :
    keptAfter before (c :: (tail ++ rest)) =
      List.range' before.length (tail.length + 1) ++ keptAfter (before ++ c :: tail) rest := by
  have hkept : isKept (before ++ c :: (tail ++ rest)) before.length = true := by
    obtain ⟨d, tail, rfl⟩ := List.exists_cons_of_ne_nil hne
    have hd := htail d List.mem_cons_self
    rw [isKept_append_cons]
    rcases Bool.or_eq_true_iff.1 hc with hcapital | hlower
    · simp [hcapital, hd]
    · simp [hlower, hd]
  have hfurther := keptAfter_lower (before ++ [c]) rest (by simp [hc]) htail
  rw [keptAfter_cons, if_pos hkept, hfurther, List.range'_succ]
  simp

/-! ## Spelling -/

theorem spell_cons_cons (text : List Char) (i j : Nat) (positions : List Nat) :
    spell text (i :: j :: positions) =
      loweredAt text i ++ separatorAt text i j ++ spell text (j :: positions) :=
  rfl

/-- The characters of a run are spelled in a row if no capital interrupts it, and what is spelled
after them is set off by an underscore. -/
theorem spell_run {text : List Char} (start : Nat) {count : Nat} {positions : List Nat}
    (hrun : ∀ i, start < i → i ≤ start + count → capitalAt text i = false)
    (hpositions : ∀ j ∈ positions.head?, separatorAt text (start + count) j = ['_']) :
    spell text (List.range' start (count + 1) ++ positions) =
      (List.range' start (count + 1)).flatMap (loweredAt text) ++
        if positions = [] then [] else '_' :: spell text positions := by
  induction count generalizing start with
  | zero =>
    cases positions with
    | nil => simp [spell]
    | cons j positions =>
      have hseparator : separatorAt text start j = ['_'] := hpositions j (by simp)
      simp [spell_cons_cons, hseparator]
  | succ count ih =>
    have hnone : separatorAt text start (start + 1) = [] := by
      simp [separatorAt, hrun (start + 1) (by omega) (by omega)]
    have hfurther := ih (start + 1) (fun i hlow hhigh => hrun i (by omega) (by omega))
      (by rwa [Nat.add_assoc, Nat.add_comm 1])
    rw [List.range'_succ, List.range'_succ, List.cons_append, List.cons_append, spell_cons_cons,
      hnone, ← List.cons_append, ← List.range'_succ, hfurther]
    simp

/-- The characters of a part of a text, in lowercase. -/
theorem flatMap_loweredAt (before part rest : List Char) :
    (List.range' before.length part.length).flatMap (loweredAt (before ++ (part ++ rest))) =
      part.map Char.toLower := by
  induction part generalizing before with
  | nil => rfl
  | cons c part ih =>
    have hfurther := ih (before ++ [c])
    rw [List.length_append, List.length_singleton, List.append_assoc, List.singleton_append]
      at hfurther
    rw [List.length_cons, List.range'_succ, List.flatMap_cons, List.cons_append, hfurther]
    simp [loweredAt]

/-- Of a text that starts without a lowercase letter, the first character that stays is set off from
whatever stands right before the text. -/
theorem separatorAt_keptAfter (before : List Char) {rest : List Char}
    (hrest : rest.head?.any Char.isLower = false) (i : Nat) (hi : i + 1 = before.length) :
    ∀ j ∈ (keptAfter before rest).head?, separatorAt (before ++ rest) i j = ['_'] := by
  intro j hj
  obtain ⟨hrange, hkept⟩ := List.mem_filter.1 (List.mem_of_mem_head? hj)
  rw [separatorAt, if_pos]
  by_cases hnext : j = i + 1
  · -- What stays right behind a word is not in lowercase, so it is a capital.
    right
    have hlower : lowerAt (before ++ rest) j = false := by
      rw [hnext, hi, lowerAt_append_length, hrest]
    simp only [isKept, hlower, Bool.false_and, Bool.or_false, Bool.and_eq_true] at hkept
    exact hkept.1
  · exact Or.inl hnext

/-- Joining parts sets off what follows the first of them. -/
theorem intercalate_cons (separator : Char) (first : List Char) (parts : List (List Char)) :
    [separator].intercalate (first :: parts) =
      first ++ if parts = [] then [] else separator :: [separator].intercalate parts := by
  cases parts with
  | nil => simp
  | cons second parts => simp [List.intercalate_cons_cons]

/-- What stays behind a place where the scan may start is spelled as the words that it finds. -/
theorem spell_keptAfter (text : List Char) :
    ∀ before, Separate before text → (keptAfter before text = [] ↔ word.all text = []) ∧
      spell (before ++ text) (keptAfter before text) =
        ['_'].intercalate ((word.all text).map (·.map Char.toLower)) := by
  refine word.all_induction (motive := fun text all => ∀ before, Separate before text →
    (keptAfter before text = [] ↔ all = []) ∧ spell (before ++ text) (keptAfter before text) =
      ['_'].intercalate (all.map (·.map Char.toLower))) ?_ ?_ ?_ text
  · intro before _
    simp [keptAfter, spell]
  · intro text rest found hread ih before _
    obtain ⟨c, tail, rfl, rfl, hc, hne, htail, hrest⟩ := exists_letters_of_readWord? hread
    obtain ⟨hempty, hspell⟩ := ih (before ++ c :: tail) fun _ => hrest
    have hwhole : before ++ c :: (tail ++ rest) = before ++ c :: tail ++ rest := by simp
    -- The letters behind the first are in lowercase, so nothing is put between two of them.
    have hrun : ∀ i, before.length < i → i ≤ before.length + tail.length →
        capitalAt (before ++ c :: (tail ++ rest)) i = false := by
      intro i hlow hhigh
      obtain ⟨k, rfl⟩ := Nat.exists_eq_add_of_lt hlow
      have hk : k < tail.length := by omega
      have hletter : (before ++ c :: (tail ++ rest))[before.length + k + 1]? = some tail[k] := by
        rw [List.getElem?_append_right (by omega),
          show before.length + k + 1 - before.length = k + 1 by omega, List.getElem?_cons_succ,
          List.getElem?_append_left hk, List.getElem?_eq_getElem hk]
      rw [capitalAt, hletter, Option.any_some, Bool.eq_false_iff]
      intro hcapital
      have hsmall := htail _ (List.getElem_mem hk)
      rw [isLower_eq_false_of_isUpper hcapital] at hsmall
      cases hsmall
    have hoff := separatorAt_keptAfter (before ++ c :: tail) hrest
      (before.length + tail.length) (by simp; omega)
    rw [← hwhole] at hoff hspell
    have hletters := flatMap_loweredAt before (c :: tail) rest
    rw [List.length_cons, List.cons_append] at hletters
    rw [keptAfter_word hc hne htail]
    refine ⟨by simp, ?_⟩
    rw [spell_run before.length hrun hoff, hletters, hspell,
      List.map_cons (l := word.all rest), intercalate_cons]
    simp [hempty]
  · intro c text hread ih before hseparate
    obtain ⟨hlost, hnext⟩ := isKept_of_readWord?_eq_none hseparate hread
    have hfurther := ih (before ++ [c]) hnext
    rw [List.append_assoc, List.singleton_append] at hfurther
    rwa [keptAfter_cons, hlost, if_neg Bool.false_ne_true, List.nil_append]

/-- A name with a character that stays is spelled as the positions of its characters tell. -/
theorem spell_keptPositions (name : List Char) :
    (keptPositions (lowerUid name) = [] ↔ words name = []) ∧
      spell (lowerUid name) (keptPositions (lowerUid name)) = ['_'].intercalate (words name) := by
  have hstart : keptAfter [] (lowerUid name) = keptPositions (lowerUid name) := by
    rw [keptAfter, keptPositions, List.range_eq_range']
    rfl
  have hscan := spell_keptAfter (lowerUid name) [] fun h => absurd h (by simp)
  rw [hstart, List.nil_append, ← words] at hscan
  exact ⟨hscan.1.trans List.map_eq_nil_iff.symm, hscan.2⟩

/-! ## What is spelled -/

/-- A word in lowercase has at least two letters. -/
theorem isLower_of_mem_words {name lowered : List Char} (h : lowered ∈ words name) :
    2 ≤ lowered.length ∧ ∀ c ∈ lowered, c.isLower = true := by
  obtain ⟨found, hfound, rfl⟩ := List.mem_map.1 h
  have hletters : 2 ≤ found.length ∧ ∀ c ∈ found, c.isAlpha = true := by
    refine word.forall_mem_all (P := fun found => 2 ≤ found.length ∧ ∀ c ∈ found,
      c.isAlpha = true) ?_ (lowerUid name) found hfound
    intro text rest found hread
    obtain ⟨c, tail, rfl, -, hc, hne, htail, -⟩ := exists_letters_of_readWord? hread
    have hlength := List.length_pos_iff.2 hne
    refine ⟨by rw [List.length_cons]; omega, List.forall_mem_cons.2 ⟨hc, fun d hd => ?_⟩⟩
    exact isAlpha_of_isLower (htail d hd)
  refine ⟨by rw [List.length_map]; exact hletters.1, List.forall_mem_map.2 fun c hc => ?_⟩
  exact isLower_toLower (hletters.2 c hc)

/-- Words in lowercase that underscores join are found again. -/
theorem all_intercalate {parts : List (List Char)}
    (h : ∀ part ∈ parts, 2 ≤ part.length ∧ ∀ c ∈ part, c.isLower = true) :
    word.all (['_'].intercalate parts) = parts := by
  induction parts with
  | nil => rw [List.intercalate_nil, Form.all]
  | cons first parts ih =>
    obtain ⟨⟨hlength, hlower⟩, hparts⟩ := List.forall_mem_cons.1 h
    obtain ⟨c, tail, rfl⟩ := List.exists_cons_of_length_pos (Nat.lt_of_lt_of_le Nat.two_pos hlength)
    obtain ⟨hc, htail⟩ := List.forall_mem_cons.1 hlower
    have hne : tail ≠ [] := by
      rintro rfl
      simp at hlength
    rw [intercalate_cons]
    split
    · next hnone =>
      have hread := read?_letters [] (isAlpha_of_isLower hc) hne htail rfl
      rw [List.cons_append, word.all_of_some hread, hnone, Form.all]
    · have hread := read?_letters ('_' :: ['_'].intercalate parts)
        (isAlpha_of_isLower hc) hne htail rfl
      have hskip : word.read? ('_' :: ['_'].intercalate parts) = none := by
        show readWord? ('_' :: ['_'].intercalate parts) = none
        exact readWord?_cons_eq_none_iff.2 fun hletter => absurd hletter (by decide)
      rw [List.cons_append, word.all_of_some hread, word.all_of_none hskip, ih hparts]

/-- Lowercasing leaves words in lowercase as they are. -/
theorem map_toLower_of_isLower {parts : List (List Char)}
    (h : ∀ part ∈ parts, ∀ c ∈ part, c.isLower = true) :
    parts.map (·.map Char.toLower) = parts := by
  refine List.map_congr_left (g := id) (fun part hpart => ?_) |>.trans (List.map_id parts)
  refine (List.map_congr_left (g := id) fun c hc => ?_).trans (List.map_id part)
  exact toLower_of_isLower (h part hpart c hc)

/-- A name that has a word is respelled as its words. -/
theorem snakeCase_of_words {name : List Char} (h : words name ≠ []) :
    snakeCase name = ['_'].intercalate (words name) := by
  rw [snakeCase]
  split
  · next hnone => exact absurd hnone h
  · rfl

/-- The words of a name are found again in what the name is respelled as. -/
theorem words_intercalate_words (name : List Char) :
    words (['_'].intercalate (words name)) = words name := by
  have hlower : ∀ part ∈ words name, 2 ≤ part.length ∧ ∀ c ∈ part, c.isLower = true :=
    fun part hpart => isLower_of_mem_words hpart
  have hcapital : 'U' ∉ ['_'].intercalate (words name) :=
    not_mem_intercalate (by decide) fun part hpart hmem =>
      absurd ((hlower part hpart).2 _ hmem) (by decide)
  rw [words, lowerUid_of_not_mem hcapital, all_intercalate hlower]
  exact map_toLower_of_isLower fun part hpart => (hlower part hpart).2

/-- Respelling a name that has a word keeps its words. -/
theorem words_snakeCase {name : List Char} (h : words name ≠ []) :
    words (snakeCase name) = words name := by
  rw [snakeCase_of_words h, words_intercalate_words]

/-- A name that has a word is respelled a second time as itself. -/
theorem snakeCase_snakeCase {name : List Char} (h : words name ≠ []) :
    snakeCase (snakeCase name) = snakeCase name := by
  have hagain := words_snakeCase h
  have hsome : words (snakeCase name) ≠ [] := by rwa [hagain]
  rw [snakeCase_of_words hsome, hagain, snakeCase_of_words h]

/-! ## What is lost -/

/-- A character that stays is a letter. -/
theorem letterAt_of_isKept {text : List Char} {i : Nat} (h : isKept text i = true) :
    letterAt text i = true := by
  rw [letterAt]
  cases hc : text[i]? with
  | none => simp [isKept, capitalAt, lowerAt, hc] at h
  | some c =>
    rw [Option.any_some]
    simp only [isKept, capitalAt, lowerAt, hc, Option.any_some, Bool.or_eq_true,
      Bool.and_eq_true] at h
    rcases h with ⟨hcapital, -⟩ | ⟨hlower, -⟩
    · exact isAlpha_of_isUpper hcapital
    · exact isAlpha_of_isLower hlower

/-- The underscores left out, the letters at the positions are what is spelled. -/
theorem filter_spell {text : List Char} {positions : List Nat}
    (h : ∀ i ∈ positions, letterAt text i = true) :
    (spell text positions).filter (· ≠ '_') = positions.flatMap (loweredAt text) := by
  have hletter : ∀ i, letterAt text i = true →
      (loweredAt text i).filter (· ≠ '_') = loweredAt text i := by
    intro i hi
    refine List.filter_eq_self.2 fun d hd => ?_
    simp only [loweredAt, Option.mem_toList, Option.map_eq_some_iff] at hd
    obtain ⟨c, hc, rfl⟩ := hd
    have hlower : c.toLower.isLower = true := isLower_toLower (by simpa [letterAt, hc] using hi)
    rw [decide_eq_true_eq]
    intro hunderscore
    rw [hunderscore] at hlower
    cases hlower
  have hseparator : ∀ i j, (separatorAt text i j).filter (· ≠ '_') = [] := by
    intro i j
    rw [separatorAt]
    split <;> rfl
  induction positions with
  | nil => rfl
  | cons i positions ih =>
    obtain ⟨hi, hpositions⟩ := List.forall_mem_cons.1 h
    cases positions with
    | nil => rw [spell, hletter i hi, List.flatMap_singleton]
    | cons j positions =>
      rw [spell_cons_cons, List.filter_append, List.filter_append, hletter i hi, hseparator,
        ih hpositions, List.append_nil, ← List.flatMap_cons]

/-- A character that does not stay is no letter, a capital that no lowercase letter follows, or a
lowercase letter that no letter precedes and no lowercase letter follows. -/
theorem lost_of_isKept_eq_false {text : List Char} {i : Nat} (h : isKept text i = false) :
    letterAt text i = false ∨ (capitalAt text i = true ∧ lowerAt text (i + 1) = false) ∨
      (lowerAt text i = true ∧ (0 < i → letterAt text (i - 1) = false) ∧
        lowerAt text (i + 1) = false) := by
  have hsplit : letterAt text i = (capitalAt text i || lowerAt text i) := by
    rw [letterAt, capitalAt, lowerAt]
    cases text[i]? <;> rfl
  rw [hsplit]
  simp only [isKept, Bool.or_eq_false_iff, Bool.and_eq_false_iff, decide_eq_false_iff_not] at h
  grind

/-! ## The main result -/

/-- A name is cut at every `UID`, which can be done in one way, and joined by `uid` instead; the
positions of that text tell how the name is respelled. If no character stays, the result is the text
in lowercase. Otherwise the characters that stay are spelled in lowercase and in order, with an
underscore between two of them exactly if they are not next to each other or the second is a
capital. In that case the result consists of words of at least two lowercase letters that single
underscores join; its letters are those that stay, and every character that does not is no letter, a
capital that no lowercase letter follows or a lowercase letter by itself; and respelling the result
changes nothing. -/
theorem snakeCase_eq_positions (name : List Char) :
    ∃ gaps, (∀ cut, IsUidCut name cut ↔ cut = gaps) ∧
      let text := "uid".toList.intercalate gaps
      let positions := keptPositions text
      (positions = [] → ∀ lowered, IsLowercase text lowered ↔ lowered = snakeCase name) ∧
      (positions ≠ [] →
        snakeCase name = spell text positions ∧
        (∃ parts, parts ≠ [] ∧ (∀ part ∈ parts, 2 ≤ part.length ∧ ∀ c ∈ part, c.isLower = true) ∧
          snakeCase name = ['_'].intercalate parts) ∧
        (snakeCase name).filter (· ≠ '_') = positions.flatMap (loweredAt text) ∧
        (∀ i < text.length, i ∉ positions →
          letterAt text i = false ∨ (capitalAt text i = true ∧ lowerAt text (i + 1) = false) ∨
            (lowerAt text i = true ∧ (0 < i → letterAt text (i - 1) = false) ∧
              lowerAt text (i + 1) = false)) ∧
        snakeCase (snakeCase name) = snakeCase name) := by
  obtain ⟨gaps, hcut, htext⟩ := exists_cut_lowerUid name
  refine ⟨gaps, hcut, ?_⟩
  intro text positions
  obtain ⟨hempty, hspell⟩ := spell_keptPositions name
  rw [htext] at hempty hspell
  refine ⟨fun hnone lowered => ?_, fun hsome => ?_⟩
  · rw [snakeCase, hempty.1 hnone, htext]
    exact isLowercase_iff
  · have hwords : words name ≠ [] := fun hnone => hsome (hempty.2 hnone)
    have hresult : snakeCase name = spell text positions := by
      rw [snakeCase_of_words hwords, hspell]
    refine ⟨hresult, ⟨words name, hwords, fun part hpart => isLower_of_mem_words hpart,
      snakeCase_of_words hwords⟩, ?_, ?_, snakeCase_snakeCase hwords⟩
    · rw [hresult]
      exact filter_spell fun i hi => letterAt_of_isKept (List.mem_filter.1 hi).2
    · intro i hi hlost
      refine lost_of_isKept_eq_false ?_
      rw [Bool.eq_false_iff]
      exact fun hkept => hlost (List.mem_filter.2 ⟨List.mem_range.2 hi, hkept⟩)

end CallTable.Identifier
