import CallTable.Proofs.Toml.Quoted
import CallTable.Toml.Document
import CallTable.Toml.Sheet

/-!
# Plain values read back

A string or a list of strings is read back as a value, before the end of a line or of an item. A
list is written in three ways: closed where it opens, with one item on the same line, or with each
item on a line of its own and a comma behind every one.
-/

namespace CallTable.Toml

open Text Reader

/-! ## Blanks and line ends -/

theorem blanks_append (row : List Char) {rest : List Char} (hrow : row.all isInlineBlank)
    (hrest : StopsAt isInlineBlank rest) : blanks (row ++ rest) = some ((), rest) :=
  discard_of_some (run_append hrow hrest)

theorem blanks_of_stopsAt {text : List Char} (h : StopsAt isInlineBlank text) :
    blanks text = some ((), text) :=
  blanks_append [] rfl h

theorem comment_eq_none (text : List Char) (h : text.head? ≠ some '#') : comment text = none :=
  bind_of_none (char_of_ne h) _

/-- One step over what may stand between the items of an array. -/
def fillerStep : Reader Unit :=
  discard (Reader.row isInlineBlank) <|> do
    discard (Reader.optional comment)
    Quoted.newline

theorem filler_eq (text : List Char) :
    filler text = some ((), (manyFrom fillerStep text).2) :=
  discard_of_some rfl

/-- A text that starts with neither a blank nor a comment nor a line end has no filler. -/
theorem manyFrom_fillerStep_of_head {c : Char} (hblank : isInlineBlank c = false)
    (hcomment : c ≠ '#') (hfeed : c ≠ '\n') (hreturn : c ≠ '\r') (rest : List Char) :
    manyFrom fillerStep (c :: rest) = ([], c :: rest) := by
  apply manyFrom_of_none
  have hrow : Reader.row isInlineBlank (c :: rest) = none :=
    row_of_stopsAt (.cons hblank _)
  have hoptional := optional_of_none (comment_eq_none (c :: rest) (by simpa using hcomment))
  unfold fillerStep
  rw [orElse_of_none (discard_of_none hrow), bind_of_some (discard_of_some hoptional)]
  exact Quoted.newline_eq_none (by simpa using hfeed) (by simpa using hreturn)

theorem fillerStep_feed (rest : List Char) : fillerStep ('\n' :: rest) = some ((), rest) := by
  have hrow : Reader.row isInlineBlank ('\n' :: rest) = none :=
    row_of_stopsAt (.cons rfl _)
  have hoptional := optional_of_none (comment_eq_none ('\n' :: rest) (by simp))
  unfold fillerStep
  rw [orElse_of_none (discard_of_none hrow), bind_of_some (discard_of_some hoptional)]
  exact Quoted.newline_feed rest

/-- The margin of an item on a line of its own. -/
def itemMargin : List Char := "    ".toList

theorem fillerStep_margin {rest : List Char} (h : StopsAt isInlineBlank rest) :
    fillerStep (itemMargin ++ rest) = some ((), rest) :=
  orElse_of_some (discard_of_some
    (row_append ' ' [' ', ' ', ' '] rfl rfl h)) _

/-- What stands before an item of an array: nothing, or a line end and a margin. -/
def IsBeforeItem (before : List Char) : Prop :=
  before = [] ∨ before = '\n' :: itemMargin

/-- What stands before an item is passed over. -/
theorem filler_before {before : List Char} (hbefore : IsBeforeItem before) {c : Char}
    (hblank : isInlineBlank c = false) (hcomment : c ≠ '#') (hfeed : c ≠ '\n')
    (hreturn : c ≠ '\r') (rest : List Char) :
    filler (before ++ c :: rest) = some ((), c :: rest) := by
  have hhead := manyFrom_fillerStep_of_head hblank hcomment hfeed hreturn rest
  cases hbefore with
  | inl hempty =>
    rw [hempty, List.nil_append, filler_eq, hhead]
  | inr hline =>
    have hstop : StopsAt isInlineBlank (c :: rest) := .cons hblank rest
    rw [hline, List.cons_append, filler_eq,
      manyFrom_of_some (fillerStep_feed _) (Nat.lt_succ_self _),
      manyFrom_of_some (fillerStep_margin hstop) (by simp [itemMargin]), hhead]

/-- A comma and a closing bracket are no filler, alone or on a line of their own. -/
theorem filler_stop {c : Char} (h : c = ',' ∨ c = ']') (rest : List Char) :
    filler (c :: rest) = some ((), c :: rest) ∧
      filler ('\n' :: c :: rest) = some ((), c :: rest) := by
  have hhead : manyFrom fillerStep (c :: rest) = ([], c :: rest) := by
    cases h with
    | inl hcomma =>
      subst hcomma
      exact manyFrom_fillerStep_of_head rfl (by decide) (by decide) (by decide) rest
    | inr hclose =>
      subst hclose
      exact manyFrom_fillerStep_of_head rfl (by decide) (by decide) (by decide) rest
  constructor
  · rw [filler_eq, hhead]
  · rw [filler_eq, manyFrom_of_some (fillerStep_feed _) (Nat.lt_succ_self _), hhead]

/-! ## Values -/

/-- The character can start a value that has no parts. -/
def startsScalar (c : Char) : Bool :=
  c.isDigit || c ∈ ['"', '\'', '+', '-', 't', 'f', 'i', 'n']

section
variable {text : List Char} (h : StopsAt startsScalar text)
include h

theorem stopsAt_isDigit : StopsAt Char.isDigit text := by
  intro c hc
  have hstart := h c hc
  rw [startsScalar, Bool.or_eq_false_iff] at hstart
  exact hstart.1

theorem wholeDigits_eq_none : Number.wholeDigits text = none := by
  unfold Number.wholeDigits Number.digits
  rw [orElse_of_none (bind_of_none (char_of_ne (h.head_ne rfl)) _)]
  exact bind_of_none (one_of_stopsAt (stopsAt_isDigit h)) _

/-- Where no sign stands, none is read. -/
theorem isNegative_of_stopsAt : Number.isNegative text = some (false, text) := by
  have hsign : StopsAt (fun c => c = '+' || c = '-') text := by
    intro c hc
    have hplus : c ≠ '+' := fun heq => h.head_ne rfl (heq ▸ hc)
    have hminus : c ≠ '-' := fun heq => h.head_ne rfl (heq ▸ hc)
    simp [hplus, hminus]
  unfold Number.isNegative
  rw [bind_of_some (optional_of_none (one_of_stopsAt hsign))]
  rfl

theorem float_eq_none : Number.float text = none := by
  have hscaled : Number.scaled text = none := by
    unfold Number.scaled
    rw [bind_of_some (isNegative_of_stopsAt h)]
    exact bind_of_none (wholeDigits_eq_none h) _
  have hspecial : Number.special text = none := by
    unfold Number.special
    rw [bind_of_some (discard_of_some (isNegative_of_stopsAt h)),
      orElse_of_none (word_of_head (h.head_ne rfl))]
    exact word_of_head (h.head_ne rfl)
  unfold Number.float
  apply bind_of_none
  unfold spelled
  rw [orElse_of_none hscaled, hspecial]
  rfl

theorem integer_eq_none : Number.integer text = none := by
  have hbase : ∀ letter base isMember, Number.inBase letter base isMember text = none :=
    fun _ _ _ => bind_of_none (word_of_head (h.head_ne rfl)) _
  have hdecimal : Number.decimal text = none := by
    unfold Number.decimal
    rw [bind_of_some (isNegative_of_stopsAt h)]
    exact bind_of_none (wholeDigits_eq_none h) _
  unfold Number.integer
  apply bind_of_none
  rw [orElse_of_none (hbase _ _ _), orElse_of_none (hbase _ _ _), orElse_of_none (hbase _ _ _)]
  exact hdecimal

theorem moment_eq_none : Moment.moment text = none := by
  have hbetween : ∀ width low high, width ≠ 0 →
      Moment.between width low high text = none :=
    fun _ _ _ hwidth => bind_of_none (exactly_of_stopsAt hwidth (stopsAt_isDigit h)) _
  have hdate : Moment.dateTime text = none :=
    bind_of_none (bind_of_none (hbetween 4 0 9999 (by decide)) _) _
  have htime : Moment.time text = none :=
    bind_of_none (discard_of_none (hbetween 2 0 23 (by decide))) _
  unfold Moment.moment
  apply bind_of_none
  unfold spelled
  rw [orElse_of_none hdate, htime]
  rfl

/-- Without such a character nothing is read. -/
theorem scalar_eq_none : scalar text = none := by
  have hstring := Quoted.any_eq_none (h.head_ne rfl) (h.head_ne rfl)
  unfold scalar
  rw [orElse_of_none (bind_of_none hstring _),
    orElse_of_none (bind_of_none (word_of_head (h.head_ne rfl)) _),
    orElse_of_none (bind_of_none (word_of_head (h.head_ne rfl)) _),
    orElse_of_none (moment_eq_none h), orElse_of_none (float_eq_none h)]
  exact integer_eq_none h

end

/-- The characters behind the values of a sheet: the end of a line, of an item or of an array. -/
def EndsValue (rest : List Char) : Prop :=
  rest.head? = some '\n' ∨ rest.head? = some ',' ∨ rest.head? = some ']'

theorem EndsValue.head_ne {rest : List Char} (h : EndsValue rest) :
    rest.head? ≠ some '"' ∧ rest.head? ≠ some '\'' := by
  obtain h | h | h := h <;> rw [h] <;> decide

/-- A string is a value at any depth. -/
theorem value_encode (depth : Nat) (text : String) {rest : List Char} (hrest : EndsValue rest) :
    value depth ((Quoted.encode text).toList ++ rest) = some (.text text, rest) := by
  have hscalar : scalar ((Quoted.encode text).toList ++ rest) = some (.text text, rest) := by
    unfold scalar
    apply orElse_of_some
    rw [Quoted.encode, String.toList_ofList,
      bind_of_some (Quoted.any_encodeAs text.toList hrest.head_ne.1 hrest.head_ne.2),
      String.ofList_toList]
    rfl
  cases depth with
  | zero => exact hscalar
  | succ depth => exact orElse_of_some hscalar _

/-- No value starts with a closing bracket. -/
theorem value_close (depth : Nat) (rest : List Char) : value depth (']' :: rest) = none := by
  have hscalar : scalar (']' :: rest) = none := scalar_eq_none (.cons (by decide) rest)
  cases depth with
  | zero => exact hscalar
  | succ depth =>
    unfold value array inlineTable
    rw [orElse_of_none hscalar, orElse_of_none (bind_of_none (char_of_ne (by simp)) _)]
    exact bind_of_none (char_of_ne (by simp)) _

/-- An encoded string starts with a quote. -/
theorem exists_encode (text : String) : ∃ c rest, (Quoted.encode text).toList = c :: rest ∧
    (c = '"' ∨ c = '\'') := by
  rw [Quoted.encode, String.toList_ofList]
  cases Quoted.form text.toList with
  | basic => exact ⟨_, _, rfl, .inl rfl⟩
  | literal => exact ⟨_, _, rfl, .inr rfl⟩
  | longBasic => exact ⟨_, _, rfl, .inl rfl⟩
  | longLiteral => exact ⟨_, _, rfl, .inr rfl⟩

/-! ## Arrays -/

/-- Reads an item of an array with the filler around it. -/
def arrayItem (value : Reader Value) : Reader Value := do
  filler
  let item ← value
  filler
  return item

/-- What stands behind an item of an array: the comma or the closing bracket, and the rest. -/
def IsBehindItem (text : List Char) : Prop :=
  ∃ c rest, text = c :: rest ∧ (c = ',' ∨ c = ']')

theorem arrayItem_encode (depth : Nat) {before : List Char} (hbefore : IsBeforeItem before)
    (text : String) {behind : List Char} (hbehind : IsBehindItem behind) :
    arrayItem (value depth) (before ++ ((Quoted.encode text).toList ++ behind)) =
      some (.text text, behind) := by
  obtain ⟨quote, spelling, hspelling, hquote⟩ := exists_encode text
  obtain ⟨c, rest, rfl, hc⟩ := hbehind
  have hends : EndsValue (c :: rest) := by
    cases hc with
    | inl hcomma => exact .inr (.inl (congrArg some hcomma))
    | inr hclose => exact .inr (.inr (congrArg some hclose))
  have hfiller : filler (before ++ ((Quoted.encode text).toList ++ c :: rest)) =
      some ((), (Quoted.encode text).toList ++ c :: rest) := by
    rw [hspelling, List.cons_append]
    cases hquote with
    | inl hdouble =>
      subst hdouble
      exact filler_before hbefore rfl (by decide) (by decide) (by decide) _
    | inr hsingle =>
      subst hsingle
      exact filler_before hbefore rfl (by decide) (by decide) (by decide) _
  unfold arrayItem
  rw [bind_of_some hfiller, bind_of_some (value_encode depth text hends),
    bind_of_some (filler_stop hc rest).1]
  rfl

/-- Where an array closes there is no item, on the same line or on the next. -/
theorem arrayItem_close (depth : Nat) (rest : List Char) :
    arrayItem (value depth) (']' :: rest) = none ∧
      arrayItem (value depth) ('\n' :: ']' :: rest) = none := by
  obtain ⟨hsame, hnext⟩ := filler_stop (.inr rfl : ']' = ',' ∨ ']' = ']') rest
  unfold arrayItem
  constructor
  · rw [bind_of_some hsame]
    exact bind_of_none (value_close depth rest) _
  · rw [bind_of_some hnext]
    exact bind_of_none (value_close depth rest) _

/-- An array without items closes where it opens. -/
theorem array_nil (depth : Nat) (rest : List Char) :
    array (value depth) ('[' :: ']' :: rest) = some (.array false [], rest) := by
  have hitems : Reader.separated (Reader.char ',') (arrayItem (value depth)) (']' :: rest) =
      some ([], ']' :: rest) := by
    unfold separated
    rw [bind_of_some (optional_of_none (arrayItem_close depth rest).1)]
    rfl
  unfold arrayItem at hitems
  unfold array
  rw [bind_of_some (char_cons '[' _), bind_of_some hitems]
  show (filler >>= fun _ => _) _ = _
  rw [bind_of_some (filler_stop (.inr rfl) rest).1, bind_of_some (char_cons ']' rest)]
  rfl

/-- What stands behind the last item of an array: nothing, or a comma and a line end. -/
def IsAfterItems (after : List Char) : Prop :=
  after = [] ∨ after = [',', '\n']

/-- An array with items is read with what may stand behind the last of them. -/
theorem array_of_separated {depth : Nat} {text rest after : List Char} {first : Value}
    {others : List Value} (hafter : IsAfterItems after)
    (hitems : Reader.separated (Reader.char ',') (arrayItem (value depth)) text =
      some (first :: others, after ++ ']' :: rest)) :
    array (value depth) ('[' :: text) = some (.array false (first :: others), rest) := by
  have hclose := filler_stop (.inr rfl : ']' = ',' ∨ ']' = ']') rest
  unfold arrayItem at hitems
  unfold array
  rw [bind_of_some (char_cons '[' _), bind_of_some hitems]
  show (discard (Reader.optional (Reader.char ',')) >>= fun _ => filler >>= fun _ => _) _ = _
  cases hafter with
  | inl hempty =>
    subst hempty
    rw [List.nil_append, bind_of_some (discard_of_some (optional_of_none (char_of_ne (by simp)))),
      bind_of_some hclose.1, bind_of_some (char_cons ']' rest)]
    rfl
  | inr hline =>
    subst hline
    rw [List.cons_append, bind_of_some (discard_of_some (optional_of_some (char_cons ',' _))),
      List.singleton_append, bind_of_some hclose.2, bind_of_some (char_cons ']' rest)]
    rfl

/-- Items with a comma between any two are read up to the end of the array. -/
theorem separated_items (depth : Nat) {before after : List Char} (hbefore : IsBeforeItem before)
    (hafter : IsAfterItems after) (first : String) (others : List String) (rest : List Char) :
    Reader.separated (Reader.char ',') (arrayItem (value depth))
        (before ++ ((Quoted.encode first).toList ++
          (others.flatMap (fun item => ',' :: (before ++ (Quoted.encode item).toList)) ++
            (after ++ ']' :: rest)))) =
      some (.text first :: others.map .text, after ++ ']' :: rest) := by
  have hend : IsBehindItem (after ++ ']' :: rest) := by
    cases hafter with
    | inl hempty => exact ⟨']', rest, by rw [hempty, List.nil_append], .inr rfl⟩
    | inr hline => exact ⟨',', '\n' :: ']' :: rest, by rw [hline]; rfl, .inl rfl⟩
  have hstop : (do Reader.char ','; arrayItem (value depth)) (after ++ ']' :: rest) = none := by
    cases hafter with
    | inl hempty =>
      subst hempty
      exact bind_of_none (char_of_ne (by simp)) _
    | inr hline =>
      subst hline
      rw [List.cons_append, bind_of_some (char_cons ',' _)]
      exact (arrayItem_close depth rest).2
  have hmany : manyFrom (do Reader.char ','; arrayItem (value depth))
      (others.flatMap (fun item => ',' :: (before ++ (Quoted.encode item).toList)) ++
        (after ++ ']' :: rest)) = (others.map Value.text, after ++ ']' :: rest) := by
    apply manyFrom_flatMap IsBehindItem
    · intro item _ behind hbehind
      rw [List.cons_append, bind_of_some (char_cons ',' _), List.append_assoc]
      exact arrayItem_encode depth hbefore item hbehind
    · simp
    · intro item _ text
      exact ⟨',', _, rfl, .inl rfl⟩
    · exact hend
    · exact manyFrom_of_none hstop
  have hbehind : IsBehindItem
      (others.flatMap (fun item => ',' :: (before ++ (Quoted.encode item).toList)) ++
        (after ++ ']' :: rest)) := by
    cases others with
    | nil => exact hend
    | cons item others => exact ⟨',', _, rfl, .inl rfl⟩
  unfold separated
  rw [bind_of_some (optional_of_some (arrayItem_encode depth hbefore first hbehind))]
  show (many _ >>= _) _ = _
  rw [bind_of_some (many_of_manyFrom hmany)]
  rfl

/-! ## Values of sheets -/

/-- The value that a plain value stands for. -/
def Plain.toValue : Plain → Value
  | .text value => .text value
  | .texts items => .array false (items.map .text)

/-- A separator behind every item is one before every item but the first, and one at the end. -/
theorem flatMap_append_separator {α β : Type} (write : α → List β) (separator : List β) (first : α)
    (others : List α) :
    (first :: others).flatMap (fun item => write item ++ separator) =
      write first ++ (others.flatMap (fun item => separator ++ write item) ++ separator) := by
  induction others generalizing first with
  | nil => simp
  | cons next others ih =>
    rw [List.flatMap_cons, ih next, List.flatMap_cons]
    simp only [List.append_assoc]

/-- The lines of a list of strings, with the commas moved to the front of the items. -/
theorem render_texts (first second : String) (others : List String) :
    (Plain.texts (first :: second :: others)).render.toList =
      '[' :: ('\n' :: itemMargin ++ ((Quoted.encode first).toList ++
        ((second :: others).flatMap
          (fun item => ',' :: ('\n' :: itemMargin ++ (Quoted.encode item).toList)) ++
            ([',', '\n'] ++ [']'])))) := by
  have hlines := flatMap_append_separator
    (fun item : String => itemMargin ++ (Quoted.encode item).toList) [',', '\n'] first
      (second :: others)
  simp only [List.append_assoc] at hlines
  have htext : (Plain.texts (first :: second :: others)).render.toList =
      '[' :: '\n' :: ((first :: second :: others).flatMap
        (fun item => itemMargin ++ ((Quoted.encode item).toList ++ [',', '\n'])) ++ [']']) := by
    simp [Plain.render, itemMargin, String.toList_join, List.flatMap_map]
  rw [htext, hlines]
  simp

/-- A plain value is read back. -/
theorem value_render (depth : Nat) (plain : Plain) {rest : List Char} (hrest : EndsValue rest) :
    value (depth + 1) (plain.render.toList ++ rest) = some (plain.toValue, rest) := by
  have hscalar : ∀ text, scalar ('[' :: text) = none :=
    fun text => scalar_eq_none (.cons (by decide) text)
  cases plain with
  | text text => exact value_encode (depth + 1) text hrest
  | texts items =>
    unfold value
    cases items with
    | nil =>
      show (scalar <|> array (value depth) <|> inlineTable (value depth)) ('[' :: ']' :: rest) = _
      rw [orElse_of_none (hscalar _)]
      exact orElse_of_some (array_nil depth rest) _
    | cons first others =>
      cases others with
      | nil =>
        have htext : (Plain.texts [first]).render.toList ++ rest =
            '[' :: ([] ++ ((Quoted.encode first).toList ++ ([] ++ ([] ++ ']' :: rest)))) := by
          simp [Plain.render]
        rw [htext, orElse_of_none (hscalar _)]
        exact orElse_of_some (array_of_separated (.inl rfl)
          (separated_items depth (.inl rfl) (.inl rfl) first [] rest)) _
      | cons second others =>
        rw [render_texts, List.cons_append, orElse_of_none (hscalar _)]
        simp only [List.append_assoc, List.singleton_append]
        exact orElse_of_some (array_of_separated (.inr rfl)
          (separated_items depth (.inr rfl) (.inr rfl) first (second :: others) rest)) _

end CallTable.Toml
