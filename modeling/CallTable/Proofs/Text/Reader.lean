import CallTable.Text.Reader

/-!
# Readers on a text

What a reader made of smaller readers does with a text, in terms of what the smaller ones do with
it. `gather` puts the pieces that a repeated reader finds into one text: a run of characters may be
read in one piece or in many, and only what is gathered counts.
-/

namespace CallTable.Text.Reader

variable {α β : Type} {text rest : List Char} {found : α}

/-! ## One reader after another -/

theorem bind_apply (reader : Reader α) (next : α → Reader β) (text : List Char) :
    (reader >>= next) text =
      match reader text with
      | none => none
      | some (found, rest) => next found rest := by
  show (reader text).bind (fun reached => next reached.1 reached.2) = _
  cases reader text <;> rfl

theorem bind_of_some {reader : Reader α} (h : reader text = some (found, rest))
    (next : α → Reader β) : (reader >>= next) text = next found rest := by
  rw [bind_apply, h]

theorem bind_of_none {reader : Reader α} (h : reader text = none) (next : α → Reader β) :
    (reader >>= next) text = none := by
  rw [bind_apply, h]

theorem orElse_apply (first second : Reader α) (text : List Char) :
    (first <|> second) text =
      match first text with
      | none => second text
      | some read => some read := by
  show (first text <|> second text) = _
  cases first text <;> rfl

theorem orElse_of_some {first : Reader α} (h : first text = some (found, rest))
    (second : Reader α) : (first <|> second) text = some (found, rest) := by
  rw [orElse_apply, h]

theorem orElse_of_none {first : Reader α} (h : first text = none) (second : Reader α) :
    (first <|> second) text = second text := by
  rw [orElse_apply, h]

theorem discard_apply (reader : Reader α) (text : List Char) :
    discard reader text = (reader text).map fun read => ((), read.2) := by
  show (reader text).bind (fun read => some ((), read.2)) = _
  cases reader text <;> rfl

theorem discard_of_some {reader : Reader α} (h : reader text = some (found, rest)) :
    discard reader text = some ((), rest) := by
  rw [discard_apply, h]
  rfl

theorem discard_of_none {reader : Reader α} (h : reader text = none) :
    discard reader text = none := by
  rw [discard_apply, h]
  rfl

theorem optional_of_some {reader : Reader α} (h : reader text = some (found, rest)) :
    optional reader text = some (some found, rest) := by
  apply orElse_of_some
  show (reader text).bind (fun read => some (some read.1, read.2)) = _
  rw [h]
  rfl

theorem optional_of_none {reader : Reader α} (h : reader text = none) :
    optional reader text = some (none, text) := by
  unfold optional
  rw [orElse_of_none]
  · rfl
  · show (reader text).bind (fun read => some (some read.1, read.2)) = _
    rw [h]
    rfl

/-! ## Characters -/

theorem word_append (word rest : List Char) :
    Reader.word word (word ++ rest) = some ((), rest) := by
  unfold Reader.word
  rw [afterWord?_eq_some_iff.2 rfl]
  rfl

theorem word_of_mismatch {word : List Char} (h : ¬ word <+: text) :
    Reader.word word text = none := by
  unfold Reader.word
  rw [afterWord?_eq_none_iff.2 h]
  rfl

theorem char_cons (c : Char) (rest : List Char) : char c (c :: rest) = some ((), rest) := by
  have hone : one (· = c) (c :: rest) = some (c, rest) := by simp [one]
  exact discard_of_some hone

theorem word_of_head {c : Char} {word : List Char} (h : text.head? ≠ some c) :
    Reader.word (c :: word) text = none := by
  apply word_of_mismatch
  intro hprefix
  obtain ⟨rest, rfl⟩ := hprefix
  exact h rfl

theorem char_of_ne {c : Char} (h : text.head? ≠ some c) : char c text = none := by
  apply discard_of_none
  cases text with
  | nil => rfl
  | cons d text =>
    have hne : d ≠ c := by simpa using h
    simp [one, hne]

/-- No character of the class stands at the head of the text. -/
def StopsAt (isMember : Char → Bool) (text : List Char) : Prop :=
  ∀ c ∈ text.head?, isMember c = false

theorem StopsAt.cons {isMember : Char → Bool} {c : Char} (h : isMember c = false)
    (rest : List Char) : StopsAt isMember (c :: rest) := by
  intro d hd
  cases hd
  exact h

theorem StopsAt.head_ne {isMember : Char → Bool} (h : StopsAt isMember text) {c : Char}
    (hc : isMember c) : text.head? ≠ some c := by
  intro hhead
  have hfalse := h c hhead
  rw [hc] at hfalse
  cases hfalse

theorem one_of_stopsAt {isMember : Char → Bool} (h : StopsAt isMember text) :
    one isMember text = none := by
  cases text with
  | nil => rfl
  | cons c text =>
    have hc : isMember c = false := h c rfl
    simp [one, hc]

theorem run_append {isMember : Char → Bool} {row : List Char} (hrow : row.all isMember)
    (hrest : StopsAt isMember rest) : run isMember (row ++ rest) = some (row, rest) := by
  have hall : ∀ c ∈ row, isMember c := List.all_eq_true.1 hrow
  have htake : rest.takeWhile isMember = [] ∧ rest.dropWhile isMember = rest := by
    cases rest with
    | nil => exact ⟨rfl, rfl⟩
    | cons c rest =>
      have hc : isMember c = false := hrest c rfl
      simp [hc]
  unfold run
  rw [List.takeWhile_append_of_pos hall, List.dropWhile_append_of_pos hall, htake.1, htake.2,
    List.append_nil]

theorem row_append {isMember : Char → Bool} (first : Char) (row : List Char)
    (hfirst : isMember first) (hrow : row.all isMember) (hrest : StopsAt isMember rest) :
    Reader.row isMember (first :: row ++ rest) = some (first :: row, rest) := by
  have hone : one isMember (first :: (row ++ rest)) = some (first, row ++ rest) := by
    simp [one, hfirst]
  unfold Reader.row
  rw [List.cons_append, bind_of_some hone, bind_of_some (run_append hrow hrest)]
  rfl

theorem row_of_stopsAt {isMember : Char → Bool} (h : StopsAt isMember text) :
    Reader.row isMember text = none :=
  bind_of_none (one_of_stopsAt h) _

/-- A row of a fixed length does not start with a character of another class. -/
theorem exactly_of_stopsAt {isMember : Char → Bool} {count : Nat} (hcount : count ≠ 0)
    (h : StopsAt isMember text) : exactly count isMember text = none := by
  unfold exactly
  rw [if_neg]
  intro hfound
  obtain ⟨count, rfl⟩ := Nat.exists_eq_succ_of_ne_zero hcount
  cases text with
  | nil => simp at hfound
  | cons c text =>
    have hc : isMember c = false := h c rfl
    simp [hc] at hfound

theorem exactly_append {isMember : Char → Bool} {found : List Char} (h : found.all isMember)
    (rest : List Char) :
    exactly found.length isMember (found ++ rest) = some (found, rest) := by
  unfold exactly
  simp only [List.take_left, List.drop_left]
  rw [if_pos ⟨trivial, h⟩]

/-! ## Repeating -/

theorem manyFrom_of_none {reader : Reader α} (h : reader text = none) :
    manyFrom reader text = ([], text) := by
  unfold manyFrom
  rw [h]

/-- Nothing is read from the end of a text. -/
theorem manyFrom_nil (reader : Reader α) : manyFrom reader [] = ([], []) := by
  unfold manyFrom
  split
  · rfl
  · simp

theorem many_of_manyFrom {reader : Reader α} {found : List α}
    (h : manyFrom reader text = (found, rest)) : many reader text = some (found, rest) := by
  unfold many
  rw [h]

theorem manyFrom_of_some {reader : Reader α} (h : reader text = some (found, rest))
    (hlength : rest.length < text.length) :
    manyFrom reader text = (found :: (manyFrom reader rest).1, (manyFrom reader rest).2) := by
  rw [manyFrom, h]
  simp [hlength]

/-- A reader that reads every written item, whatever follows of the kind that follows items, reads
them all, up to something that it does not read. -/
theorem manyFrom_flatMap (follows : List Char → Prop) {reader : Reader α}
    {write : β → List Char} {value : β → α} {items : List β}
    (hread : ∀ item ∈ items, ∀ rest, follows rest →
      reader (write item ++ rest) = some (value item, rest))
    (hwrite : ∀ item ∈ items, write item ≠ [])
    (hfollows : ∀ item ∈ items, ∀ rest, follows (write item ++ rest))
    (hrest : follows rest) (hstop : manyFrom reader rest = ([], rest)) :
    manyFrom reader (items.flatMap write ++ rest) = (items.map value, rest) := by
  induction items with
  | nil => exact hstop
  | cons item items ih =>
    have hnext : follows (items.flatMap write ++ rest) := by
      cases items with
      | nil => exact hrest
      | cons next items =>
        rw [List.flatMap_cons, List.append_assoc]
        exact hfollows next (by simp) _
    have hlength : 0 < (write item).length :=
      List.length_pos_iff.2 (hwrite item (List.mem_cons_self ..))
    rw [List.flatMap_cons, List.append_assoc,
      manyFrom_of_some (hread item (List.mem_cons_self ..) _ hnext)
        (by simp only [List.length_append]; omega),
      ih (fun item h => hread item (List.mem_cons_of_mem _ h))
        (fun item h => hwrite item (List.mem_cons_of_mem _ h))
        (fun item h => hfollows item (List.mem_cons_of_mem _ h))]
    rfl

/-- What a repeated reader finds, as one text, and the rest. -/
def gather (reader : Reader (List Char)) (text : List Char) : List Char × List Char :=
  ((manyFrom reader text).1.flatten, (manyFrom reader text).2)

theorem gather_of_none {reader : Reader (List Char)} (h : reader text = none) :
    gather reader text = ([], text) := by
  unfold gather
  rw [manyFrom_of_none h]
  rfl

/-- The spelling of a character as a repeated reader takes it: whatever stands behind it, the
character is gathered and then what is gathered from there. -/
def Spells (reader : Reader (List Char)) (c : Char) (spelling : List Char) : Prop :=
  ∀ rest, gather reader (spelling ++ rest) = (c :: (gather reader rest).1, (gather reader rest).2)

theorem gather_of_some {reader : Reader (List Char)} {piece : List Char}
    (h : reader text = some (piece, rest)) (hlength : rest.length < text.length) :
    gather reader text = (piece ++ (gather reader rest).1, (gather reader rest).2) := by
  unfold gather
  rw [manyFrom_of_some h hlength]
  rfl

/-- A character of a class spells itself where rows of the class are read first: it goes into the
row that starts behind it, or is a row alone. -/
theorem spells_row {isMember : Char → Bool} {c : Char} (h : isMember c)
    (other : Reader (List Char)) : Spells (Reader.row isMember <|> other) c [c] := by
  intro rest
  have hrow : ∀ first text, isMember first →
      (Reader.row isMember <|> other) (first :: text) =
        some (first :: text.takeWhile isMember, text.dropWhile isMember) := by
    intro first text hfirst
    apply orElse_of_some
    have hone : one isMember (first :: text) = some (first, text) := by simp [one, hfirst]
    exact bind_of_some hone _
  have hshorter : ∀ text : List Char, (text.dropWhile isMember).length < text.length + 1 :=
    fun text => Nat.lt_succ_of_le (List.dropWhile_suffix isMember).length_le
  rw [List.singleton_append, gather_of_some (hrow c rest h) (hshorter rest)]
  cases rest with
  | nil => rfl
  | cons d rest =>
    by_cases hd : isMember d
    · rw [gather_of_some (hrow d rest hd) (hshorter rest)]
      simp [hd]
    · simp [hd]

/-- A text that is spelled character by character is gathered as it is. -/
theorem gather_flatMap {reader : Reader (List Char)} {spelling : Char → List Char}
    (hspells : ∀ c ∈ text, Spells reader c (spelling c)) (hstop : reader rest = none) :
    gather reader (text.flatMap spelling ++ rest) = (text, rest) := by
  induction text with
  | nil => exact gather_of_none hstop
  | cons c text ih =>
    rw [List.flatMap_cons, List.append_assoc, hspells c (List.mem_cons_self ..),
      ih fun c h => hspells c (List.mem_cons_of_mem _ h)]

end CallTable.Text.Reader
