/-!
# Lines

A dump may end its lines with a line feed or with a carriage return and a line feed. Reading
starts from the text in which the second ending has become the first, so that a carriage return
that stands elsewhere in a line is the only one left.
-/

namespace CallTable.Text

/-- The text with each carriage return that stands before a line feed removed. -/
def unifyLineEnds : List Char → List Char
  | [] => []
  | '\r' :: '\n' :: rest => '\n' :: unifyLineEnds rest
  | c :: rest => c :: unifyLineEnds rest

/-- The lines of a text, without the line feeds between them. -/
def lines (text : List Char) : List (List Char) :=
  text.splitOn '\n'

/-- A text that can stand as a line whichever way lines end: it holds no line feed, and no carriage
return at its end would be taken for a part of the line's end. -/
structure IsLine (line : List Char) : Prop where
  feed_not_mem : '\n' ∉ line
  getLast?_ne : line.getLast? ≠ some '\r'

/-- The text of lines, each of them ended by a line feed. -/
def ofLines (lines : List (List Char)) : List Char :=
  lines.flatMap (· ++ ['\n'])

theorem ofLines_cons (line : List Char) (lines : List (List Char)) :
    ofLines (line :: lines) = line ++ '\n' :: ofLines lines := by
  simp [ofLines]

theorem ofLines_append (first second : List (List Char)) :
    ofLines (first ++ second) = ofLines first ++ ofLines second := by
  simp [ofLines]

/-- A text without carriage returns has nothing to unify. -/
theorem unifyLineEnds_of_not_mem {text : List Char} (h : '\r' ∉ text) :
    unifyLineEnds text = text := by
  fun_induction unifyLineEnds text with
  | case1 => rfl
  | case2 rest ih => simp at h
  | case3 c rest _ ih => simp_all

/-- A character that does not begin the second ending stays. -/
theorem unifyLineEnds_cons {c : Char} {text : List Char}
    (h : c = '\r' → text.head? ≠ some '\n') :
    unifyLineEnds (c :: text) = c :: unifyLineEnds text := by
  rw [unifyLineEnds]
  rintro rest rfl rfl
  exact h rfl rfl

/-- Unifying the ends leaves a text without line feeds alone, unless its last carriage return stands
before a line feed. -/
theorem unifyLineEnds_append {line : List Char} (hfeed : '\n' ∉ line) {rest : List Char}
    (hlast : line.getLast? = some '\r' → rest.head? ≠ some '\n') :
    unifyLineEnds (line ++ rest) = line ++ unifyLineEnds rest := by
  induction line with
  | nil => rfl
  | cons c line ih =>
    simp only [List.mem_cons, not_or] at hfeed
    have hstay : c = '\r' → (line ++ rest).head? ≠ some '\n' := by
      rintro rfl
      cases line with
      | nil => simpa using hlast
      | cons d line => simpa using fun h => hfeed.2 (by simp [h])
    rw [List.cons_append, unifyLineEnds_cons hstay, ih hfeed.2, List.cons_append]
    cases line with
    | nil => simp
    | cons d line => simpa using hlast

/-- A line feed stays. -/
theorem unifyLineEnds_feed (rest : List Char) :
    unifyLineEnds ('\n' :: rest) = '\n' :: unifyLineEnds rest :=
  unifyLineEnds_cons fun h => absurd h (by decide)

/-- Unifying the ends leaves a line that ends in a line feed alone. -/
theorem unifyLineEnds_line {line : List Char} (h : IsLine line) (rest : List Char) :
    unifyLineEnds (line ++ '\n' :: rest) = line ++ '\n' :: unifyLineEnds rest := by
  rw [unifyLineEnds_append h.feed_not_mem fun hlast => absurd hlast h.getLast?_ne,
    unifyLineEnds_feed]

/-- Unifying the ends takes away the carriage return of a line that ends in one and a line feed. -/
theorem unifyLineEnds_line_return {line : List Char} (h : '\n' ∉ line) (rest : List Char) :
    unifyLineEnds (line ++ '\r' :: '\n' :: rest) = line ++ '\n' :: unifyLineEnds rest := by
  rw [unifyLineEnds_append h (by simp), unifyLineEnds]

/-- Unifying the ends works on both sides of a line feed on its own, and the line feed stays. -/
theorem exists_unifyLineEnds_feed (text : List Char) :
    ∃ front, ∀ rest, unifyLineEnds (text ++ '\n' :: rest) = front ++ '\n' :: unifyLineEnds rest := by
  fun_induction unifyLineEnds text with
  | case1 => exact ⟨[], unifyLineEnds_feed⟩
  | case2 text ih =>
    obtain ⟨front, hfront⟩ := ih
    refine ⟨'\n' :: front, fun rest => ?_⟩
    simp only [List.cons_append, unifyLineEnds, hfront]
  | case3 c text hend ih =>
    obtain ⟨front, hfront⟩ := ih
    -- A carriage return in front of the line feed is a part of the end.
    by_cases hlast : c = '\r' ∧ text = []
    · obtain ⟨rfl, rfl⟩ := hlast
      exact ⟨[], fun rest => unifyLineEnds_line_return List.not_mem_nil rest⟩
    · refine ⟨c :: front, fun rest => ?_⟩
      have hstay : c = '\r' → (text ++ '\n' :: rest).head? ≠ some '\n' := by
        rintro rfl
        cases text with
        | nil => simp at hlast
        | cons d text =>
          rw [List.cons_append, List.head?_cons, ne_eq, Option.some.injEq]
          rintro rfl
          exact hend text rfl rfl
      rw [List.cons_append, unifyLineEnds_cons hstay, hfront, List.cons_append]

/-- Unifying the ends leaves lines that end in line feeds alone. -/
theorem unifyLineEnds_ofLines_append {lines : List (List Char)} (h : ∀ line ∈ lines, IsLine line)
    (rest : List Char) :
    unifyLineEnds (ofLines lines ++ rest) = ofLines lines ++ unifyLineEnds rest := by
  induction lines with
  | nil => rfl
  | cons line lines ih =>
    simp only [List.forall_mem_cons] at h
    rw [ofLines_cons, List.append_assoc, List.cons_append, unifyLineEnds_line h.1, ih h.2,
      List.append_assoc, List.cons_append]

/-- Lines that end in line feeds alone have nothing to unify. -/
theorem unifyLineEnds_ofLines {lines : List (List Char)} (h : ∀ line ∈ lines, IsLine line) :
    unifyLineEnds (ofLines lines) = ofLines lines := by
  have hunify := unifyLineEnds_ofLines_append h []
  rwa [List.append_nil, unifyLineEnds, List.append_nil] at hunify

/-- Cutting a text into lines gives back the lines that it starts with. -/
theorem lines_ofLines_append {lines : List (List Char)} (h : ∀ line ∈ lines, '\n' ∉ line)
    (rest : List Char) : Text.lines (ofLines lines ++ rest) = lines ++ Text.lines rest := by
  induction lines with
  | nil => rfl
  | cons line lines ih =>
    simp only [List.forall_mem_cons] at h
    rw [ofLines_cons, List.append_assoc, List.cons_append, Text.lines,
      List.splitOn_append_cons_self_of_not_mem h.1, ← Text.lines, ih h.2, List.cons_append]

end CallTable.Text
