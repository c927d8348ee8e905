import CallTable.Identifier
import CallTable.Text.Blank

/-!
# Names made of tokens

A name in mixed case is an optional word in lowercase and then tokens: a capital with the lowercase
letters after it, or `GUID` with those after it. Respelling a token makes it a word, and where one
token ends the next one starts, so the words of such a name are its tokens. `snakeCase_text` states
what follows for the name of a wrapper.
-/

namespace CallTable.Identifier

open Text

/-- A token of a name: a capital and at least one lowercase letter, or `GUID` and any number of
them. -/
inductive IsToken : List Char → Prop where
  | capital {c : Char} {rest : List Char} (isUpper : c.isUpper = true) (rest_ne_nil : rest ≠ [])
      (rest_isLower : ∀ d ∈ rest, d.isLower = true) : IsToken (c :: rest)
  | guid {rest : List Char} (rest_isLower : ∀ d ∈ rest, d.isLower = true) :
      IsToken ('G' :: 'U' :: 'I' :: 'D' :: rest)

/-- The text is a token, as a computation. -/
def isToken : List Char → Bool
  | 'G' :: 'U' :: 'I' :: 'D' :: rest => rest.all Char.isLower
  | c :: rest => c.isUpper && !rest.isEmpty && rest.all Char.isLower
  | [] => false

/-- The computation finds exactly the tokens. -/
theorem isToken_iff {token : List Char} : isToken token = true ↔ IsToken token := by
  constructor
  · intro h
    unfold isToken at h
    split at h
    · exact .guid (List.all_eq_true.1 h)
    · simp only [Bool.and_eq_true, Bool.not_eq_true', List.isEmpty_eq_false_iff] at h
      exact .capital h.1.1 h.1.2 (List.all_eq_true.1 h.2)
    · cases h
  · intro h
    cases h with
    | @capital c rest hc hne hrest =>
        have hcapital : (c.isUpper && !rest.isEmpty && rest.all Char.isLower) = true := by
          simpa [hc, hne] using hrest
        unfold isToken
        split
        · next heq =>
          obtain ⟨rfl, rfl⟩ := List.cons.inj heq
          exact absurd (hrest 'U' List.mem_cons_self) (by decide)
        · next heq =>
          obtain ⟨rfl, rfl⟩ := List.cons.inj heq
          exact hcapital
        · next heq => cases heq
    | guid hrest => exact List.all_eq_true.2 hrest

instance (token : List Char) : Decidable (IsToken token) :=
  decidable_of_iff (isToken token = true) isToken_iff

/-- A name in mixed case: a word of at least two lowercase letters, which may be missing, and then
tokens. -/
structure MixedName where
  lead : List Char
  tokens : List (List Char)
  lead_isLower : ∀ c ∈ lead, c.isLower = true
  lead_length : lead.length ≠ 1
  tokens_isToken : ∀ token ∈ tokens, IsToken token

namespace MixedName

/-- The name as it is written. -/
def text (name : MixedName) : List Char :=
  name.lead ++ name.tokens.flatten

/-- The parts of the name that are words, as they are written. -/
def parts (name : MixedName) : List (List Char) :=
  if name.lead = [] then name.tokens else name.lead :: name.tokens

/-- The name as lowercase words joined by underscores. -/
def lowered (name : MixedName) : List Char :=
  ['_'].intercalate (name.parts.map (·.map Char.toLower))

end MixedName

/-! ## Letters -/

theorem isUpper_iff {c : Char} : c.isUpper = true ↔ 65 ≤ c.toNat ∧ c.toNat ≤ 90 := by
  have hdef : c.isUpper = decide (65 ≤ c.val ∧ c.val ≤ 90) := rfl
  simp [hdef, UInt32.le_iff_toNat_le, ← Char.toNat_val]

theorem isLower_iff {c : Char} : c.isLower = true ↔ 97 ≤ c.toNat ∧ c.toNat ≤ 122 := by
  have hdef : c.isLower = (decide (97 ≤ c.val) && decide (c.val ≤ 122)) := rfl
  simp [hdef, UInt32.le_iff_toNat_le, ← Char.toNat_val]

/-- No letter is both a capital and a lowercase letter. -/
theorem isLower_eq_false_of_isUpper {c : Char} (h : c.isUpper = true) : c.isLower = false := by
  rw [Bool.eq_false_iff]
  intro hlower
  have hcapital := isUpper_iff.1 h
  have hsmall := isLower_iff.1 hlower
  omega

theorem isAlpha_iff {c : Char} :
    c.isAlpha = true ↔ 65 ≤ c.toNat ∧ c.toNat ≤ 90 ∨ 97 ≤ c.toNat ∧ c.toNat ≤ 122 := by
  rw [← isUpper_iff, ← isLower_iff]
  exact Bool.or_eq_true_iff

/-- Letters of ASCII are visible. -/
theorem isVisible_of_isAlpha {c : Char} (h : c.isAlpha = true) : isVisible c = true := by
  have hcode := isAlpha_iff.1 h
  rw [← isBlank_eq_false_iff]
  simp only [isBlank, Bool.or_eq_false_iff, Bool.and_eq_false_iff, decide_eq_false_iff_not,
    beq_eq_false_iff_ne]
  omega

/-- A letter in lowercase is a lowercase letter. -/
theorem isLower_toLower {c : Char} (h : c.isAlpha = true) : c.toLower.isLower = true := by
  have hall : ∀ code < 0x80, (Char.ofNat code).isAlpha = true →
      (Char.ofNat code).toLower.isLower = true := by decide +kernel
  have hcode := isAlpha_iff.1 h
  simpa using hall c.toNat (by omega) (by simpa using h)

/-- A lowercase letter stays in lowercase. -/
theorem toLower_of_isLower {c : Char} (h : c.isLower = true) : c.toLower = c := by
  have hall : ∀ code < 0x80, (Char.ofNat code).isLower = true →
      (Char.ofNat code).toLower = Char.ofNat code := by decide +kernel
  have hcode := isLower_iff.1 h
  simpa using hall c.toNat (by omega) (by simpa using h)

theorem isAlpha_of_isLower {c : Char} (h : c.isLower = true) : c.isAlpha = true :=
  Bool.or_eq_true_iff.2 (Or.inr h)

theorem isAlpha_of_isUpper {c : Char} (h : c.isUpper = true) : c.isAlpha = true :=
  Bool.or_eq_true_iff.2 (Or.inl h)

/-! ## Respelling -/

/-- A character that does not start `UID` stays. -/
theorem lowerUid_cons {c : Char} {text : List Char} (h : c = 'U' → text.head? ≠ some 'I') :
    lowerUid (c :: text) = c :: lowerUid text := by
  rw [lowerUid]
  rintro rest rfl rfl
  exact h rfl rfl

/-- A text in which no `UID` can start is respelled as itself. -/
theorem lowerUid_of_not_mem {text : List Char} (h : 'U' ∉ text) : lowerUid text = text := by
  fun_induction lowerUid text with
  | case1 => rfl
  | case2 rest ih => simp at h
  | case3 c rest _ ih => simp_all

/-- Lowercase letters stay. -/
theorem lowerUid_lower_append {run : List Char} (h : ∀ c ∈ run, c.isLower = true)
    (text : List Char) : lowerUid (run ++ text) = run ++ lowerUid text := by
  induction run with
  | nil => rfl
  | cons c run ih =>
      obtain ⟨hc, hrun⟩ := List.forall_mem_cons.1 h
      have hne : c = 'U' → (run ++ text).head? ≠ some 'I' := by
        rintro rfl
        exact absurd hc (by decide)
      rw [List.cons_append, lowerUid_cons hne, ih hrun, List.cons_append]

/-- A capital stays with the lowercase letters after it. -/
theorem lowerUid_capital_append {c : Char} {rest : List Char} (hne : rest ≠ [])
    (hrest : ∀ d ∈ rest, d.isLower = true) (text : List Char) :
    lowerUid (c :: rest ++ text) = c :: rest ++ lowerUid text := by
  obtain ⟨d, rest, rfl⟩ := List.exists_cons_of_ne_nil hne
  have hd : (d :: rest ++ text).head? ≠ some 'I' := by
    rw [List.cons_append, List.head?_cons, ne_eq, Option.some.injEq]
    rintro rfl
    exact absurd (hrest _ List.mem_cons_self) (by decide)
  rw [List.cons_append, lowerUid_cons fun _ => hd, lowerUid_lower_append hrest]
  rfl

/-- A token is respelled as a word that starts with a capital, whatever follows it, and only the
case of its letters changes. -/
theorem exists_respelled {token : List Char} (h : IsToken token) :
    ∃ c rest, c.isUpper = true ∧ rest ≠ [] ∧ (∀ d ∈ rest, d.isLower = true) ∧
      (∀ text, lowerUid (token ++ text) = c :: rest ++ lowerUid text) ∧
      (c :: rest).map Char.toLower = token.map Char.toLower := by
  cases h with
  | @capital c rest hc hne hrest =>
      exact ⟨c, rest, hc, hne, hrest, lowerUid_capital_append hne hrest, rfl⟩
  | @guid rest hrest =>
      refine ⟨'G', 'u' :: 'i' :: 'd' :: rest, by decide, by simp, ?_, fun text => ?_, rfl⟩
      · simpa [or_imp, forall_and] using hrest
      · simp [lowerUid, lowerUid_lower_append hrest]

/-! ## Reading words -/

/-- A letter, lowercase letters and something that starts without one are read as a word and the
rest. -/
theorem read?_letters {c : Char} {tail : List Char} (more : List Char) (hc : c.isAlpha = true)
    (hne : tail ≠ [])
    (htail : ∀ d ∈ tail, d.isLower = true) (hstop : more.head?.any Char.isLower = false) :
    word.read? (c :: (tail ++ more)) = some (c :: tail, more) := by
  show readWord? (c :: (tail ++ more)) = _
  rw [readWord?, takeWhile_append_of_stop htail hstop, dropWhile_append_of_stop htail hstop,
    if_pos ⟨hc, hne⟩]

/-- What is respelled as a word and something that starts without a lowercase letter has that word
as its first. -/
theorem words_of_lowerUid_eq {text rest more : List Char} {c : Char}
    (htext : lowerUid text = c :: rest ++ lowerUid more) (hc : c.isAlpha = true)
    (hne : rest ≠ []) (hrest : ∀ d ∈ rest, d.isLower = true)
    (hstop : (lowerUid more).head?.any Char.isLower = false) :
    words text = (c :: rest).map Char.toLower :: words more := by
  rw [words, htext, List.cons_append, word.all_of_some (read?_letters _ hc hne hrest hstop),
    List.map_cons, ← words]

/-- Tokens start without a lowercase letter. -/
theorem head_lowerUid_flatten {tokens : List (List Char)}
    (h : ∀ token ∈ tokens, IsToken token) :
    (lowerUid tokens.flatten).head?.any Char.isLower = false := by
  cases tokens with
  | nil => rfl
  | cons token tokens =>
      obtain ⟨c, rest, hc, -, -, hspell, -⟩ := exists_respelled (h token List.mem_cons_self)
      rw [List.flatten_cons, hspell, List.cons_append, List.head?_cons, Option.any_some]
      exact isLower_eq_false_of_isUpper hc

/-- The words of tokens in a row are the tokens in lowercase. -/
theorem words_flatten {tokens : List (List Char)} (h : ∀ token ∈ tokens, IsToken token) :
    words tokens.flatten = tokens.map (·.map Char.toLower) := by
  induction tokens with
  | nil => rw [words, List.flatten_nil, lowerUid, Form.all, List.map_nil]
  | cons token tokens ih =>
      obtain ⟨htoken, h⟩ := List.forall_mem_cons.1 h
      obtain ⟨c, rest, hc, hne, hrest, hspell, hlower⟩ := exists_respelled htoken
      rw [List.flatten_cons, words_of_lowerUid_eq (hspell _) (isAlpha_of_isUpper hc) hne hrest
        (head_lowerUid_flatten h), ih h, hlower, List.map_cons]

namespace MixedName

/-- The words of a name are its parts in lowercase. -/
theorem words_text (name : MixedName) : words name.text = name.parts.map (·.map Char.toLower) := by
  obtain ⟨lead, tokens, hlead, hlength, htokens⟩ := name
  rcases lead with - | ⟨c, rest⟩
  · exact words_flatten htokens
  · -- A single letter would not be read as a word.
    have hne : rest ≠ [] := by
      rintro rfl
      exact hlength rfl
    obtain ⟨hc, hrest⟩ := List.forall_mem_cons.1 hlead
    have hspell := lowerUid_lower_append hlead tokens.flatten
    show words (c :: rest ++ tokens.flatten) = _
    rw [words_of_lowerUid_eq hspell (isAlpha_of_isLower hc) hne hrest
      (head_lowerUid_flatten htokens), words_flatten htokens]
    rfl

/-- A name with at least one part becomes its parts in lowercase, joined by underscores. -/
theorem snakeCase_text (name : MixedName) (h : name.parts ≠ []) :
    snakeCase name.text = name.lowered := by
  rw [snakeCase, words_text, lowered]
  split
  · next hnone => exact absurd (List.map_eq_nil_iff.1 hnone) h
  · rfl

/-- A name is made of letters. -/
theorem isAlpha_of_mem_text (name : MixedName) : ∀ c ∈ name.text, c.isAlpha = true := by
  intro c hc
  rcases List.mem_append.1 hc with hlead | htokens
  · exact isAlpha_of_isLower (name.lead_isLower c hlead)
  · obtain ⟨token, htoken, hc⟩ := List.mem_flatten.1 htokens
    cases name.tokens_isToken token htoken with
    | capital hcapital _ hrest =>
        rcases List.mem_cons.1 hc with rfl | hc
        · exact isAlpha_of_isUpper hcapital
        · exact isAlpha_of_isLower (hrest c hc)
    | guid hrest =>
        simp only [List.mem_cons] at hc
        rcases hc with rfl | rfl | rfl | rfl | hc
        · decide
        · decide
        · decide
        · decide
        · exact isAlpha_of_isLower (hrest c hc)

theorem closer_not_mem_text (name : MixedName) : ')' ∉ name.text := fun h =>
  absurd (name.isAlpha_of_mem_text _ h) (by decide)

/-- A name with at least one part is a word. -/
theorem isWord_text (name : MixedName) (h : name.parts ≠ []) : IsWord name.text := by
  refine ⟨fun hnone => ?_, fun c hc => isVisible_of_isAlpha (name.isAlpha_of_mem_text c hc)⟩
  have hwords := name.words_text
  rw [hnone, words, lowerUid, Form.all] at hwords
  exact h (List.map_eq_nil_iff.1 hwords.symm)

end MixedName

end CallTable.Identifier
