import CallTable.Proofs.Text.Reader
import CallTable.Toml.Quoted

/-!
# Strings read back

Every text, in the form that the writer takes for it, is read back as it is. Escapes and characters
that stand for themselves are gathered one by one. Inside tripled quotes the writer leaves at most
two quotes in a row, which the reader takes as they stand; at the end they join the three that
close the string, and the reader gives them back from a row of up to five.
-/

namespace CallTable.Toml.Quoted

open Text Reader

/-! ## Characters between double quotes -/

/-- Four digits write every number below 128, in capitals. -/
theorem hexDigits_small : ∀ code < 128,
    ((hexDigits 4 code).map Char.toUpper).length = 4 ∧
      ((hexDigits 4 code).map Char.toUpper).all isHexDigit ∧
      number 16 ((hexDigits 4 code).map Char.toUpper) = code := by
  decide +kernel

/-- Control characters have small codes. -/
theorem toNat_lt_of_isControl {c : Char} (h : isControl c) : c.toNat < 128 := by
  simp only [isControl, isPrintable, Bool.and_eq_true, Bool.not_eq_true', Bool.or_eq_false_iff,
    Bool.and_eq_false_iff, decide_eq_false_iff_not, decide_eq_true_eq] at h
  omega

theorem codePoint_hexDigits {c : Char} (h : c.toNat < 128) (rest : List Char) :
    codePoint 4 ((hexDigits 4 c.toNat).map Char.toUpper ++ rest) = some (c, rest) := by
  obtain ⟨hlength, hall, hnumber⟩ := hexDigits_small c.toNat h
  have hdigits := exactly_append hall rest
  rw [hlength] at hdigits
  have hvalid : c.toNat.isValidChar := c.valid
  unfold codePoint
  rw [bind_of_some hdigits, hnumber, if_pos hvalid, Char.ofNat_toNat]
  rfl

theorem escape_hex (text : List Char) : escape ('u' :: text) = codePoint 4 text :=
  rfl

/-- A character between double quotes stands for itself, or an escape stands for it. -/
theorem escapeBasic_cases (c : Char) :
    (escapeBasic c = [c] ∧ isPrintable c ∧ c ≠ '"' ∧ c ≠ '\\') ∨
      ∃ name, escapeBasic c = '\\' :: name ∧ ∀ rest, escape (name ++ rest) = some (c, rest) := by
  unfold escapeBasic
  split
  case h_8 _ _ _ hfeed _ _ hquote hslash =>
    by_cases hcontrol : isControl c
    · right
      refine ⟨'u' :: (hexDigits 4 c.toNat).map Char.toUpper, if_pos hcontrol, fun rest => ?_⟩
      rw [List.cons_append, escape_hex]
      exact codePoint_hexDigits (toNat_lt_of_isControl hcontrol) rest
    · left
      have hprintable : isPrintable c := by
        have hne : c ≠ '\n' := hfeed
        simpa [isControl, hne] using hcontrol
      exact ⟨if_neg hcontrol, hprintable, hquote, hslash⟩
  all_goals exact .inr ⟨_, rfl, fun _ => rfl⟩

theorem escapeBasic_ne_nil (c : Char) : escapeBasic c ≠ [] := by
  obtain ⟨h, _⟩ | ⟨name, h, _⟩ := escapeBasic_cases c
  · simp [h]
  · simp [h]

/-- No spelling starts with a quote or with a line end. -/
theorem head_escapeBasic {c : Char} :
    (escapeBasic c).head? ≠ some '"' ∧ (escapeBasic c).head? ≠ some '\n' ∧
      (escapeBasic c).head? ≠ some '\r' := by
  obtain ⟨h, hprintable, hquote, _⟩ | ⟨name, h, _⟩ := escapeBasic_cases c
  · rw [h]
    refine ⟨by simpa using hquote, ?_, ?_⟩
    · intro hhead
      cases hhead
      exact absurd hprintable (by decide)
    · intro hhead
      cases hhead
      exact absurd hprintable (by decide)
  · rw [h]
    simp

theorem plainBasic_backslash (text : List Char) : plainBasic ('\\' :: text) = none :=
  row_of_stopsAt (.cons rfl _)

theorem plainBasic_quote (text : List Char) : plainBasic ('"' :: text) = none :=
  row_of_stopsAt (.cons rfl _)

theorem escaped_of_escape {name rest : List Char} {c : Char} (h : escape name = some (c, rest)) :
    escaped ('\\' :: name) = some ([c], rest) := by
  unfold escaped
  rw [bind_of_some (char_cons '\\' name), bind_of_some h]
  rfl

/-- A reader that takes what stands for itself first, and escapes next, takes the spelling of every
character. -/
theorem spells_escapeBasic (c : Char) {other : Reader (List Char)}
    (hother : ∀ text found rest, escaped text = some (found, rest) →
      other text = some (found, rest)) :
    Spells (plainBasic <|> other) c (escapeBasic c) := by
  obtain ⟨hspelling, hprintable, hquote, hslash⟩ | ⟨name, hspelling, hescape⟩ :=
    escapeBasic_cases c
  · rw [hspelling]
    apply spells_row
    simp [hprintable, hquote, hslash]
  · rw [hspelling]
    intro rest
    have hread : (plainBasic <|> other) ('\\' :: name ++ rest) = some ([c], rest) := by
      rw [List.cons_append, orElse_of_none (plainBasic_backslash _)]
      exact hother _ _ _ (escaped_of_escape (hescape rest))
    exact gather_of_some hread (by simp only [List.length_append, List.length_cons]; omega)

/-! ## Strings on one line -/

theorem many_of_gather {reader : Reader (List Char)} {text found rest : List Char}
    (h : gather reader text = (found, rest)) :
    ∃ pieces, many reader text = some (pieces, rest) ∧ pieces.flatten = found := by
  refine ⟨(manyFrom reader text).1, ?_, congrArg Prod.fst h⟩
  have hrest : (manyFrom reader text).2 = rest := congrArg Prod.snd h
  rw [← hrest]
  rfl

theorem basic_encodeAs (text rest : List Char) :
    basic (encodeAs .basic text ++ rest) = some (text, rest) := by
  have hstop : (plainBasic <|> escaped) ('"' :: rest) = none := by
    rw [orElse_of_none (plainBasic_quote rest)]
    exact bind_of_none (char_of_ne (by simp)) _
  obtain ⟨pieces, hmany, hpieces⟩ := many_of_gather
    (gather_flatMap (fun c _ => spells_escapeBasic c fun _ _ _ h => h) hstop)
  have htext : encodeAs .basic text ++ rest =
      '"' :: (text.flatMap escapeBasic ++ '"' :: rest) := by
    simp [encodeAs]
  rw [htext]
  unfold basic
  rw [bind_of_some (char_cons '"' _), bind_of_some hmany, bind_of_some (char_cons '"' rest),
    hpieces]
  rfl

theorem literal_encodeAs {text : List Char} (hprintable : ∀ c ∈ text, isPrintable c)
    (hquote : '\'' ∉ text) (rest : List Char) :
    literal (encodeAs .literal text ++ rest) = some (text, rest) := by
  have hrun : run (fun c => isPrintable c && c ≠ '\'') (text ++ '\'' :: rest) =
      some (text, '\'' :: rest) := by
    apply run_append
    · rw [List.all_eq_true]
      intro c hc
      have hne : c ≠ '\'' := fun heq => hquote (heq ▸ hc)
      simp [hprintable c hc, hne]
    · exact .cons rfl rest
  have htext : encodeAs .literal text ++ rest = '\'' :: (text ++ '\'' :: rest) := by
    simp [encodeAs]
  rw [htext]
  unfold literal
  rw [bind_of_some (char_cons '\'' _), bind_of_some hrun, bind_of_some (char_cons '\'' rest)]
  rfl

/-! ## Strings of several lines -/

/-- A text and what stands for it inside tripled quotes: spellings of its characters that do not
start with the quote, and one or two quotes in a row for themselves. -/
inductive Inside (reader : Reader (List Char)) (quote : Char) : List Char → List Char → Prop
  | nil : Inside reader quote [] []
  | character {c : Char} {spelling text body : List Char} : Spells reader c spelling →
      spelling ≠ [] → spelling.head? ≠ some quote → Inside reader quote text body →
      Inside reader quote (c :: text) (spelling ++ body)
  | quotes {count : Nat} {text body : List Char} : 1 ≤ count → count ≤ 2 →
      body.head? ≠ some quote → Inside reader quote text body →
      Inside reader quote (List.replicate count quote ++ text)
        (List.replicate count quote ++ body)

/-- What is gathered after an inner row of up to two quotes. -/
theorem takeWhile_quotes {quote : Char} (count : Nat) {rest : List Char}
    (h : rest.head? ≠ some quote) :
    (List.replicate count quote ++ rest).takeWhile (· = quote) = List.replicate count quote := by
  rw [List.takeWhile_append_of_pos (by simp)]
  cases rest with
  | nil => simp
  | cons c rest =>
    have hne : c ≠ quote := by simpa using h
    simp [hne]

theorem looseQuotes_replicate {quote : Char} {count : Nat} (hpos : 1 ≤ count) (hle : count ≤ 2)
    {rest : List Char} (h : rest.head? ≠ some quote) :
    looseQuotes quote (List.replicate count quote ++ rest) =
      some (List.replicate count quote, rest) := by
  unfold looseQuotes
  simp only [takeWhile_quotes count h, List.length_replicate]
  rw [if_pos ⟨hpos, hle⟩, List.drop_left' (List.length_replicate ..)]

/-- Three or more quotes in a row are not inside a string. -/
theorem looseQuotes_eq_none {quote : Char} {count : Nat} (hcount : 3 ≤ count)
    {rest : List Char} (h : rest.head? ≠ some quote) :
    looseQuotes quote (List.replicate count quote ++ rest) = none := by
  unfold looseQuotes
  simp only [takeWhile_quotes count h, List.length_replicate]
  rw [if_neg (by omega)]

theorem closingQuotes_replicate {quote : Char} {count : Nat} (hle : count ≤ 2)
    {rest : List Char} (h : rest.head? ≠ some quote) :
    closingQuotes quote (List.replicate (count + 3) quote ++ rest) =
      some (List.replicate count quote, rest) := by
  unfold closingQuotes
  simp only [takeWhile_quotes (count + 3) h, List.length_replicate]
  rw [Nat.min_eq_right (by omega), if_pos (by omega), Nat.add_sub_cancel,
    List.drop_left' (List.length_replicate ..)]

theorem Inside.eq_nil {reader : Reader (List Char)} {quote : Char} {text : List Char}
    (h : Inside reader quote text []) : text = [] := by
  generalize hbody : ([] : List Char) = body at h
  cases h with
  | nil => rfl
  | character _ hne _ _ => exact absurd (List.append_eq_nil_iff.1 hbody.symm).1 hne
  | quotes hpos _ _ _ =>
    have hlength := congrArg List.length hbody
    simp only [List.length_append, List.length_replicate, List.length_nil] at hlength
    omega

/-- What stands inside tripled quotes is gathered up to the quotes at its end, and these come back
with the closing quotes. -/
theorem Inside.read {reader : Reader (List Char)} {quote : Char} {text body rest : List Char}
    (h : Inside reader quote text body)
    (hreader : ∀ text, reader (quote :: text) = looseQuotes quote (quote :: text))
    (hrest : rest.head? ≠ some quote) :
    ∃ found last tail,
      gather reader (body ++ (List.replicate 3 quote ++ rest)) = (found, last) ∧
        closingQuotes quote last = some (tail, rest) ∧ text = found ++ tail := by
  have hclosing : ∀ count, gather reader (List.replicate (count + 3) quote ++ rest) =
      ([], List.replicate (count + 3) quote ++ rest) := by
    intro count
    apply gather_of_none
    rw [List.replicate_succ, List.cons_append, hreader, ← List.cons_append, ← List.replicate_succ]
    exact looseQuotes_eq_none (by omega) hrest
  induction h with
  | nil =>
    exact ⟨[], _, [], hclosing 0, closingQuotes_replicate (Nat.zero_le 2) hrest, rfl⟩
  | @character c spelling text body hspells _ _ _ ih =>
    obtain ⟨found, last, tail, hgather, hlast, htext⟩ := ih
    refine ⟨c :: found, last, tail, ?_, hlast, ?_⟩
    · rw [List.append_assoc, hspells, hgather]
    · rw [htext, List.cons_append]
  | @quotes count text body hpos hle hhead hinside ih =>
    cases body with
    | nil =>
      cases hinside.eq_nil
      refine ⟨[], _, _, ?_, closingQuotes_replicate hle hrest, ?_⟩
      · rw [List.append_nil, ← List.append_assoc, List.replicate_append_replicate]
        exact hclosing count
      · simp
    | cons c body =>
      obtain ⟨found, last, tail, hgather, hlast, htext⟩ := ih
      refine ⟨List.replicate count quote ++ found, last, tail, ?_, hlast, ?_⟩
      · have hread : reader (List.replicate count quote ++
            (c :: body ++ (List.replicate 3 quote ++ rest))) =
              some (List.replicate count quote, c :: body ++ (List.replicate 3 quote ++ rest)) := by
          obtain ⟨count, rfl⟩ := Nat.exists_eq_add_of_le' hpos
          rw [List.replicate_succ, List.cons_append, hreader, ← List.cons_append,
            ← List.replicate_succ]
          exact looseQuotes_replicate hpos hle hhead
        rw [List.append_assoc, gather_of_some hread, hgather]
        simp only [List.length_append, List.length_replicate]
        omega
      · rw [htext, List.append_assoc]

/-- A line end is read at a line end only. -/
theorem newline_eq_none {text : List Char} (hfeed : text.head? ≠ some '\n')
    (hreturn : text.head? ≠ some '\r') : newline text = none := by
  unfold newline
  rw [orElse_of_none (word_of_head hfeed)]
  exact word_of_head hreturn

theorem newline_feed (rest : List Char) : newline ('\n' :: rest) = some ((), rest) :=
  orElse_of_some (word_append ['\n'] rest) _

theorem innerNewline_feed (rest : List Char) :
    innerNewline ('\n' :: rest) = some (['\n'], rest) := by
  unfold innerNewline
  rw [bind_of_some (newline_feed rest)]
  rfl

/-- What a long string opens with is read up to the body, if the body takes over the line feeds of
the text and no line end starts it otherwise. -/
theorem optional_newline_openLong {text body : List Char}
    (hbody : '\n' ∉ text → body.head? ≠ some '\n' ∧ body.head? ≠ some '\r') :
    ∃ found, Reader.optional newline ((if text.contains '\n' then ['\n'] else []) ++ body) =
      some (found, body) := by
  by_cases hfeed : '\n' ∈ text
  · rw [if_pos (by simpa using hfeed)]
    exact ⟨_, optional_of_some (newline_feed body)⟩
  · rw [if_neg (by simpa using hfeed), List.nil_append]
    obtain ⟨hfirst, hsecond⟩ := hbody hfeed
    exact ⟨_, optional_of_none (newline_eq_none hfirst hsecond)⟩

/-- Reads a string between tripled quotes. -/
def long (quote : Char) (piece : Reader (List Char)) : Reader (List Char) := do
  Reader.word [quote, quote, quote]
  discard (Reader.optional newline)
  let pieces ← Reader.many piece
  return pieces.flatten ++ (← closingQuotes quote)

/-- What stands inside tripled quotes for a text is read as the text. -/
theorem long_inside {piece : Reader (List Char)} {quote : Char} {text body rest : List Char}
    (h : Inside piece quote text body)
    (hpiece : ∀ text, piece (quote :: text) = looseQuotes quote (quote :: text))
    (hbody : '\n' ∉ text → (body ++ (List.replicate 3 quote ++ rest)).head? ≠ some '\n' ∧
      (body ++ (List.replicate 3 quote ++ rest)).head? ≠ some '\r')
    (hrest : rest.head? ≠ some quote) :
    long quote piece (openLong quote text ++ body ++ List.replicate 3 quote ++ rest) =
      some (text, rest) := by
  obtain ⟨found, last, tail, hgather, hclosing, htext⟩ := h.read hpiece hrest
  obtain ⟨pieces, hmany, hpieces⟩ := many_of_gather hgather
  obtain ⟨_, hopen⟩ := optional_newline_openLong hbody
  have hwhole : openLong quote text ++ body ++ List.replicate 3 quote ++ rest =
      [quote, quote, quote] ++ ((if text.contains '\n' then ['\n'] else []) ++
        (body ++ (List.replicate 3 quote ++ rest))) := by
    simp [openLong, List.replicate_succ]
  rw [hwhole]
  unfold long
  rw [bind_of_some (word_append [quote, quote, quote] _), bind_of_some (discard_of_some hopen),
    bind_of_some hmany, bind_of_some hclosing, hpieces, htext]
  rfl

/-! ### Between double quotes -/

/-- The pieces of a long string between double quotes, after what stands for itself. -/
def longBasicOther : Reader (List Char) :=
  escaped <|> continuation <|> innerNewline <|> looseQuotes '"'

theorem escaped_eq_none {text : List Char} (h : text.head? ≠ some '\\') : escaped text = none :=
  bind_of_none (char_of_ne h) _

theorem longBasic_piece_quote (text : List Char) :
    (plainBasic <|> longBasicOther) ('"' :: text) = looseQuotes '"' ('"' :: text) := by
  unfold longBasicOther continuation innerNewline
  rw [orElse_of_none (plainBasic_quote text), orElse_of_none (escaped_eq_none (by simp)),
    orElse_of_none (bind_of_none (char_of_ne (by simp)) _),
    orElse_of_none (bind_of_none (newline_eq_none (by simp) (by simp)) _)]

theorem spells_feed_longBasic : Spells (plainBasic <|> longBasicOther) '\n' ['\n'] := by
  intro rest
  have hplain : plainBasic ('\n' :: rest) = none :=
    row_of_stopsAt (.cons rfl _)
  have hread : (plainBasic <|> longBasicOther) ('\n' :: rest) = some (['\n'], rest) := by
    unfold longBasicOther continuation
    rw [orElse_of_none hplain, orElse_of_none (escaped_eq_none (by simp)),
      orElse_of_none (bind_of_none (char_of_ne (by simp)) _)]
    exact orElse_of_some (innerNewline_feed rest) _
  exact gather_of_some hread (Nat.lt_succ_self _)

/-- Up to two quotes before a body that does not start with one, or none. -/
theorem Inside.prepend {reader : Reader (List Char)} {quote : Char} {count : Nat}
    {text body : List Char} (hle : count ≤ 2) (hhead : body.head? ≠ some quote)
    (h : Inside reader quote text body) :
    Inside reader quote (List.replicate count quote ++ text)
      (List.replicate count quote ++ body) := by
  cases count with
  | zero => exact h
  | succ count => exact .quotes (Nat.succ_le_succ (Nat.zero_le count)) hle hhead h

theorem head?_append_ne {c : Char} {first second : List Char} (hne : first ≠ [])
    (h : first.head? ≠ some c) : (first ++ second).head? ≠ some c := by
  obtain ⟨d, first, rfl⟩ := List.exists_cons_of_ne_nil hne
  exact h

/-- The escaped text stands inside the quotes for the text; the quotes that stand before it, two at
most, are counted. -/
theorem inside_escapeLong (count : Nat) (hcount : count ≤ 2) (text : List Char) :
    Inside (plainBasic <|> longBasicOther) '"' (List.replicate count '"' ++ text)
      (List.replicate count '"' ++ escapeLong count text) := by
  have hspells : ∀ c, Spells (plainBasic <|> longBasicOther) c (escapeBasic c) :=
    fun c => spells_escapeBasic c fun _ _ _ h => orElse_of_some h _
  induction text generalizing count with
  | nil => exact Inside.nil.prepend hcount (by simp [escapeLong])
  | cons c text ih =>
    unfold escapeLong
    split
    · contradiction
    · rename_i heq
      cases heq
      exact (Inside.character spells_feed_longBasic (by simp) (by simp)
        (ih 0 (Nat.zero_le 2))).prepend hcount (by simp)
    · rename_i heq
      cases heq
      split
      · have hnext := ih (count + 1) (by omega)
        simpa only [List.replicate_succ', List.append_assoc, List.singleton_append] using hnext
      · exact (Inside.character (hspells '"') (by simp [escapeBasic]) (by simp [escapeBasic])
          (ih 0 (Nat.zero_le 2))).prepend hcount (by simp)
    · rename_i heq
      cases heq
      have hhead := (head_escapeBasic (c := c)).1
      have hne := escapeBasic_ne_nil c
      exact (Inside.character (hspells c) hne hhead (ih 0 (Nat.zero_le 2))).prepend hcount
        (head?_append_ne hne hhead)

theorem head_escapeLong {text : List Char} (rest : List Char) (h : '\n' ∉ text) :
    (escapeLong 0 text ++ (List.replicate 3 '"' ++ rest)).head? ≠ some '\n' ∧
      (escapeLong 0 text ++ (List.replicate 3 '"' ++ rest)).head? ≠ some '\r' := by
  cases text with
  | nil => simp [escapeLong, List.replicate_succ]
  | cons c text =>
    unfold escapeLong
    split
    · contradiction
    · rename_i heq
      cases heq
      exact absurd (List.mem_cons_self ..) h
    · rename_i heq
      cases heq
      simp
    · rename_i heq
      cases heq
      obtain ⟨_, hfeed, hreturn⟩ := head_escapeBasic (c := c)
      rw [List.append_assoc]
      exact ⟨head?_append_ne (escapeBasic_ne_nil c) hfeed,
        head?_append_ne (escapeBasic_ne_nil c) hreturn⟩

theorem longBasic_encodeAs (text : List Char) {rest : List Char} (hrest : rest.head? ≠ some '"') :
    longBasic (encodeAs .longBasic text ++ rest) = some (text, rest) :=
  long_inside (inside_escapeLong 0 (Nat.zero_le 2) text) longBasic_piece_quote
    (head_escapeLong rest) hrest

/-! ### Between single quotes -/

/-- The pieces of a long string between single quotes, after what stands for itself. -/
def longLiteralOther : Reader (List Char) :=
  innerNewline <|> looseQuotes '\''

theorem longLiteral_piece_quote (text : List Char) :
    (plainLiteral <|> longLiteralOther) ('\'' :: text) = looseQuotes '\'' ('\'' :: text) := by
  have hplain : plainLiteral ('\'' :: text) = none :=
    row_of_stopsAt (.cons rfl _)
  unfold longLiteralOther innerNewline
  rw [orElse_of_none hplain,
    orElse_of_none (bind_of_none (newline_eq_none (by simp) (by simp)) _)]

theorem spells_longLiteral {c : Char} (hcontrol : isControl c = false) (hquote : c ≠ '\'') :
    Spells (plainLiteral <|> longLiteralOther) c [c] := by
  by_cases hfeed : c = '\n'
  · subst hfeed
    intro rest
    have hplain : plainLiteral ('\n' :: rest) = none :=
      row_of_stopsAt (.cons rfl _)
    have hread : (plainLiteral <|> longLiteralOther) ('\n' :: rest) = some (['\n'], rest) := by
      unfold longLiteralOther
      rw [orElse_of_none hplain]
      exact orElse_of_some (innerNewline_feed rest) _
    exact gather_of_some hread (Nat.lt_succ_self _)
  · apply spells_row
    have hprintable : isPrintable c := by simpa [isControl, hfeed] using hcontrol
    simp [hprintable, hquote]

theorem hasTriple_of_append {quote : Char} (first : List Char) {second : List Char}
    (h : hasTriple quote (first ++ second) = false) : hasTriple quote second = false := by
  induction first with
  | nil => exact h
  | cons c first ih =>
    rw [List.cons_append, hasTriple, Bool.or_eq_false_iff] at h
    exact ih h.2

/-- A text without control characters stands for itself where no three quotes stand in a row, the
ones that stand before it counted. -/
theorem inside_longLiteral (count : Nat) (hcount : count ≤ 2) {text : List Char}
    (hcontrol : ∀ c ∈ text, isControl c = false)
    (htriple : hasTriple '\'' (List.replicate count '\'' ++ text) = false) :
    Inside (plainLiteral <|> longLiteralOther) '\'' (List.replicate count '\'' ++ text)
      (List.replicate count '\'' ++ text) := by
  induction text generalizing count with
  | nil => exact Inside.nil.prepend hcount (by simp)
  | cons c text ih =>
    obtain ⟨hc, htext⟩ := List.forall_mem_cons.1 hcontrol
    by_cases hquote : c = '\''
    · subst hquote
      have hmore : List.replicate count '\'' ++ '\'' :: text =
          List.replicate (count + 1) '\'' ++ text := by
        rw [List.replicate_succ', List.append_assoc, List.singleton_append]
      rw [hmore] at htriple ⊢
      have hless : count ≠ 2 := by
        intro htwo
        subst htwo
        simp [List.replicate_succ, hasTriple] at htriple
      exact ih (count + 1) (by omega) htext htriple
    · have hrest : hasTriple '\'' text = false :=
        hasTriple_of_append (List.replicate count '\'' ++ [c]) (by simpa using htriple)
      exact (Inside.character (spells_longLiteral hc hquote) (by simp)
        (by simpa using hquote) (ih 0 (Nat.zero_le 2) htext hrest)).prepend hcount
          (by simpa using hquote)

theorem longLiteral_encodeAs {text rest : List Char} (hcontrol : ∀ c ∈ text, isControl c = false)
    (htriple : hasTriple '\'' text = false) (hrest : rest.head? ≠ some '\'') :
    longLiteral (encodeAs .longLiteral text ++ rest) = some (text, rest) := by
  have hhead : '\n' ∉ text →
      (text ++ (List.replicate 3 '\'' ++ rest)).head? ≠ some '\n' ∧
        (text ++ (List.replicate 3 '\'' ++ rest)).head? ≠ some '\r' := by
    intro hfeed
    cases text with
    | nil => simp [List.replicate_succ]
    | cons c text =>
      have hreturn : c ≠ '\r' := by
        intro heq
        exact absurd (hcontrol c (List.mem_cons_self ..)) (by rw [heq]; decide)
      have hne : c ≠ '\n' := fun heq => hfeed (heq ▸ List.mem_cons_self ..)
      simp [hne, hreturn]
  exact long_inside (inside_longLiteral 0 (Nat.zero_le 2) hcontrol htriple)
    longLiteral_piece_quote hhead hrest

/-! ## The form that the writer takes -/

/-- A text between single quotes is not empty and has nothing that needs an escape there. -/
theorem of_form_eq_literal {text : List Char} (h : form text = .literal) :
    text ≠ [] ∧ (∀ c ∈ text, isPrintable c) ∧ '\'' ∉ text := by
  unfold form at h
  simp only at h
  split at h
  · cases h
  · rename_i hbasic
    split at h
    · rename_i hliteral
      simp only [Bool.and_eq_true, Bool.not_eq_true', List.any_eq_false, List.contains_eq_mem,
        decide_eq_false_iff_not] at hliteral hbasic
      obtain ⟨⟨hclean, hfeed⟩, hquote⟩ := hliteral
      refine ⟨?_, ?_, hquote⟩
      · intro hempty
        subst hempty
        simp at hbasic
      · intro c hc
        have hne : c ≠ '\n' := fun heq => hfeed (heq ▸ hc)
        simpa [isControl, hne] using hclean c hc
    · split at h
      · cases h
      · split at h
        · cases h
        · split at h <;> cases h

/-- A text between tripled single quotes has no control characters and no three of the quotes in a
row. -/
theorem of_form_eq_longLiteral {text : List Char} (h : form text = .longLiteral) :
    (∀ c ∈ text, isControl c = false) ∧ hasTriple '\'' text = false := by
  unfold form at h
  simp only at h
  split at h
  · cases h
  · split at h
    · cases h
    · split at h
      · cases h
      · split at h
        · rename_i hlong
          simpa using hlong
        · split at h <;> cases h

theorem longBasic_eq_none {text : List Char} (h : ¬ ['"', '"', '"'] <+: text) :
    longBasic text = none :=
  bind_of_none (word_of_mismatch h) _

theorem longLiteral_eq_none {text : List Char} (h : ¬ ['\'', '\'', '\''] <+: text) :
    longLiteral text = none :=
  bind_of_none (word_of_mismatch h) _

/-- Without a quote no string is read. -/
theorem any_eq_none {text : List Char} (hdouble : text.head? ≠ some '"')
    (hsingle : text.head? ≠ some '\'') : any text = none := by
  unfold any longBasic longLiteral basic literal
  rw [orElse_of_none (bind_of_none (word_of_head hdouble) _),
    orElse_of_none (bind_of_none (word_of_head hsingle) _),
    orElse_of_none (bind_of_none (char_of_ne hdouble) _)]
  exact bind_of_none (char_of_ne hsingle) _

/-- A string on one line between double quotes does not start like one of several lines. -/
theorem not_prefix_encodeAs_basic (text : List Char) {rest : List Char}
    (hrest : rest.head? ≠ some '"') : ¬ ['"', '"', '"'] <+: encodeAs .basic text ++ rest := by
  cases text with
  | nil =>
    cases rest with
    | nil => simp [encodeAs]
    | cons c rest =>
      have hne : c ≠ '"' := by simpa using hrest
      simp [encodeAs, Ne.symm hne]
  | cons c text =>
    obtain ⟨d, spelling, hspelling⟩ := List.exists_cons_of_ne_nil (escapeBasic_ne_nil c)
    have hhead := (head_escapeBasic (c := c)).1
    rw [hspelling] at hhead
    have hne : d ≠ '"' := by simpa using hhead
    simp [encodeAs, hspelling, Ne.symm hne]

/-- A string is read back in the form that the writer takes, before anything that does not start
with a quote. -/
theorem any_encodeAs (text : List Char) {rest : List Char} (hdouble : rest.head? ≠ some '"')
    (hsingle : rest.head? ≠ some '\'') :
    any (encodeAs (form text) text ++ rest) = some (text, rest) := by
  unfold any
  cases hform : form text with
  | basic =>
    have hlong := not_prefix_encodeAs_basic text hdouble
    have hother : ¬ ['\'', '\'', '\''] <+: encodeAs .basic text ++ rest := by
      simp [encodeAs]
    rw [orElse_of_none (longBasic_eq_none hlong), orElse_of_none (longLiteral_eq_none hother)]
    exact orElse_of_some (basic_encodeAs text rest) _
  | literal =>
    obtain ⟨hne, hprintable, hquote⟩ := of_form_eq_literal hform
    have hlong : ¬ ['"', '"', '"'] <+: encodeAs .literal text ++ rest := by
      simp [encodeAs]
    have hother : ¬ ['\'', '\'', '\''] <+: encodeAs .literal text ++ rest := by
      obtain ⟨c, text, rfl⟩ := List.exists_cons_of_ne_nil hne
      have hc : c ≠ '\'' := fun heq => hquote (heq ▸ List.mem_cons_self ..)
      simp [encodeAs, Ne.symm hc]
    have hbasic : basic (encodeAs .literal text ++ rest) = none :=
      bind_of_none (char_of_ne (by simp [encodeAs])) _
    rw [orElse_of_none (longBasic_eq_none hlong), orElse_of_none (longLiteral_eq_none hother),
      orElse_of_none hbasic]
    exact literal_encodeAs hprintable hquote rest
  | longBasic => exact orElse_of_some (longBasic_encodeAs text hdouble) _
  | longLiteral =>
    obtain ⟨hcontrol, htriple⟩ := of_form_eq_longLiteral hform
    have hlong : ¬ ['"', '"', '"'] <+: encodeAs .longLiteral text ++ rest := by
      simp [encodeAs, openLong, List.replicate_succ]
    rw [orElse_of_none (longBasic_eq_none hlong)]
    exact orElse_of_some (longLiteral_encodeAs hcontrol htriple hsingle) _

end CallTable.Toml.Quoted
