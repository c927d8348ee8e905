import CallTable.Proofs.Toml.Value

/-!
# Sheets read back

The lines of a written sheet are read back one by one: a header, a pair, or an empty line between
two blocks. Keys and names have to be such as need no quotes; the strings may be any.
-/

namespace CallTable.Toml

open Text Reader

/-! ## Keys -/

/-- A key or a name that needs no quotes. -/
structure IsBare (name : String) : Prop where
  ne_empty : name ≠ ""
  all_isBareKey : name.toList.all isBareKey

theorem IsBare.exists_cons {name : String} (h : IsBare name) :
    ∃ first row, name.toList = first :: row ∧ isBareKey first ∧ row.all isBareKey := by
  obtain ⟨first, row, hname⟩ :=
    List.exists_cons_of_ne_nil (mt String.toList_eq_nil_iff.1 h.ne_empty)
  have hall := h.all_isBareKey
  rw [hname, List.all_cons, Bool.and_eq_true] at hall
  exact ⟨first, row, hname, hall.1, hall.2⟩

/-- The characters that start what is not a bare key. -/
theorem IsBare.head_ne {name : String} (h : IsBare name) (rest : List Char) {c : Char}
    (hc : isBareKey c = false) : (name.toList ++ rest).head? ≠ some c := by
  obtain ⟨first, row, hname, hfirst, _⟩ := h.exists_cons
  rw [hname]
  intro hhead
  cases hhead
  rw [hfirst] at hc
  cases hc

theorem IsBare.stopsAt {name : String} (h : IsBare name) (rest : List Char) :
    StopsAt isInlineBlank (name.toList ++ rest) := by
  intro c hc
  by_cases hblank : isInlineBlank c
  · simp only [isInlineBlank, Bool.or_eq_true, decide_eq_true_eq] at hblank
    cases hblank with
    | inl hspace => exact absurd hc (h.head_ne rest (by rw [hspace]; decide))
    | inr htab => exact absurd hc (h.head_ne rest (by rw [htab]; decide))
  · simpa using hblank

theorem keyPart_bare {name : String} (h : IsBare name) {row rest : List Char}
    (hrow : row.all isInlineBlank) (hbare : StopsAt isBareKey (row ++ rest))
    (hblank : StopsAt isInlineBlank rest) :
    keyPart (name.toList ++ (row ++ rest)) = some (name, rest) := by
  obtain ⟨first, tail, hname, hfirst, htail⟩ := h.exists_cons
  have hpart : (Quoted.basic <|> Quoted.literal <|> Reader.row isBareKey)
      (name.toList ++ (row ++ rest)) = some (name.toList, row ++ rest) := by
    unfold Quoted.basic Quoted.literal
    rw [orElse_of_none (bind_of_none (char_of_ne (h.head_ne _ (by decide))) _),
      orElse_of_none (bind_of_none (char_of_ne (h.head_ne _ (by decide))) _), hname]
    exact row_append first tail hfirst htail hbare
  unfold keyPart
  rw [bind_of_some (blanks_of_stopsAt (h.stopsAt _)), bind_of_some hpart,
    bind_of_some (blanks_append row hrow hblank), String.ofList_toList]
  rfl

/-- A bare key is read with the blanks behind it, if no dot follows. -/
theorem key_bare {name : String} (h : IsBare name) (row rest : List Char)
    (hrow : row.all isInlineBlank) (hbare : StopsAt isBareKey (row ++ rest))
    (hblank : StopsAt isInlineBlank rest) (hdot : rest.head? ≠ some '.') :
    key (name.toList ++ (row ++ rest)) = some (⟨[], name⟩, rest) := by
  have hmany : manyFrom (do Reader.char '.'; keyPart) rest = ([], rest) :=
    manyFrom_of_none (bind_of_none (char_of_ne hdot) _)
  unfold key
  rw [bind_of_some (keyPart_bare h hrow hbare hblank), bind_of_some (many_of_manyFrom hmany)]
  rfl

/-! ## Lines -/

theorem lineEnd_feed (rest : List Char) : lineEnd ('\n' :: rest) = some ((), rest) := by
  have hblank : StopsAt isInlineBlank ('\n' :: rest) := .cons rfl rest
  have hcomment := optional_of_none (comment_eq_none ('\n' :: rest) (by simp))
  unfold lineEnd
  rw [bind_of_some (blanks_of_stopsAt hblank), bind_of_some (discard_of_some hcomment)]
  exact orElse_of_some (Quoted.newline_feed rest) _

/-- Reads the header of one more table of an array. -/
def itemHeader : Reader Line := do
  Reader.word ['[', '[']
  let name ← key
  Reader.word [']', ']']
  return .item name

/-- Reads the header of a table. -/
def tableHeader : Reader Line := do
  Reader.char '['
  let name ← key
  Reader.char ']'
  return .table name

/-- Reads the pair of a line. -/
def pairContent : Reader Line := do
  let (name, content) ← pair (value depthLimit)
  return .pair name content

/-- Reads what a line says. -/
def lineContent : Reader Line :=
  itemHeader <|> tableHeader <|> pairContent <|> pure .nothing

/-- A line is its content and its end. -/
theorem line_of_content {text rest : List Char} {content : Line}
    (hblank : StopsAt isInlineBlank text)
    (hcontent : lineContent text = some (content, '\n' :: rest)) :
    line text = some (content, rest) := by
  have hline : line = (blanks >>= fun _ => lineContent >>= fun content =>
    lineEnd >>= fun _ => pure content) := rfl
  rw [hline, bind_of_some (blanks_of_stopsAt hblank), bind_of_some hcontent,
    bind_of_some (lineEnd_feed rest)]
  rfl

/-- The line of a pair. -/
def PlainPair.line (pair : PlainPair) : Line :=
  .pair ⟨[], pair.key⟩ pair.value.toValue

/-- The line of a header. -/
def Section.line (section_ : Section) : Line :=
  if section_.isItem then .item ⟨[], section_.name⟩ else .table ⟨[], section_.name⟩

/-- No blank stands before a value. -/
theorem Plain.stopsAt_render (plain : Plain) (rest : List Char) :
    StopsAt isInlineBlank (plain.render.toList ++ rest) := by
  have htext : ∀ text, StopsAt isInlineBlank ((Quoted.encode text).toList ++ rest) := by
    intro text
    obtain ⟨quote, spelling, hspelling, hquote⟩ := exists_encode text
    rw [hspelling]
    apply StopsAt.cons
    obtain hquote | hquote := hquote <;> rw [hquote] <;> decide
  cases plain with
  | text text => exact htext text
  | texts items =>
    cases items with
    | nil => exact .cons rfl _
    | cons first others =>
      cases others with
      | nil =>
        have hopen : (Plain.texts [first]).render.toList =
            '[' :: ((Quoted.encode first).toList ++ [']']) := by
          simp [Plain.render]
        rw [hopen]
        exact .cons rfl _
      | cons second others =>
        rw [render_texts]
        exact .cons rfl _

theorem line_pair {pair : PlainPair} (h : IsBare pair.key) (rest : List Char) :
    line (pair.render.toList ++ rest) = some (pair.line, rest) := by
  have htext : pair.render.toList ++ rest = pair.key.toList ++
      ([' '] ++ ('=' :: ([' '] ++ (pair.value.render.toList ++ '\n' :: rest)))) := by
    simp [PlainPair.render]
  have hkey := key_bare h [' ']
    ('=' :: ([' '] ++ (pair.value.render.toList ++ '\n' :: rest))) rfl
    (.cons rfl _) (.cons rfl _) (by simp)
  have hvalue : value depthLimit (pair.value.render.toList ++ '\n' :: rest) =
      some (pair.value.toValue, '\n' :: rest) :=
    value_render 78 pair.value (.inl rfl)
  have hblanks := blanks_append [' '] rfl (pair.value.stopsAt_render ('\n' :: rest))
  have hpair : Toml.pair (value depthLimit) (pair.key.toList ++
      ([' '] ++ ('=' :: ([' '] ++ (pair.value.render.toList ++ '\n' :: rest))))) =
        some ((⟨[], pair.key⟩, pair.value.toValue), '\n' :: rest) := by
    unfold Toml.pair
    rw [bind_of_some hkey, bind_of_some (char_cons '=' _), bind_of_some hblanks,
      bind_of_some hvalue]
    rfl
  rw [htext]
  apply line_of_content (h.stopsAt _)
  unfold lineContent itemHeader tableHeader pairContent
  rw [orElse_of_none (bind_of_none (word_of_head (h.head_ne _ (by decide))) _),
    orElse_of_none (bind_of_none (char_of_ne (h.head_ne _ (by decide))) _)]
  apply orElse_of_some
  rw [bind_of_some hpair]
  rfl

theorem key_before_bracket {name : String} (h : IsBare name) (text : List Char) :
    key (name.toList ++ ']' :: text) = some (⟨[], name⟩, ']' :: text) :=
  key_bare h [] (']' :: text) rfl (.cons rfl _) (.cons rfl _) (by simp)

theorem line_item {name : String} (h : IsBare name) (rest : List Char) :
    line (['[', '['] ++ (name.toList ++ ([']', ']'] ++ '\n' :: rest))) =
      some (.item ⟨[], name⟩, rest) := by
  have hkey : key (name.toList ++ ([']', ']'] ++ '\n' :: rest)) =
      some (⟨[], name⟩, [']', ']'] ++ '\n' :: rest) := key_before_bracket h (']' :: '\n' :: rest)
  have hcontent : lineContent (['[', '['] ++ (name.toList ++ ([']', ']'] ++ '\n' :: rest))) =
      some (.item ⟨[], name⟩, '\n' :: rest) := by
    apply orElse_of_some
    unfold itemHeader
    rw [bind_of_some (word_append ['[', '['] _), bind_of_some hkey,
      bind_of_some (word_append [']', ']'] _)]
    rfl
  exact line_of_content (.cons rfl _) hcontent

theorem line_table {name : String} (h : IsBare name) (rest : List Char) :
    line ('[' :: (name.toList ++ ']' :: '\n' :: rest)) = some (.table ⟨[], name⟩, rest) := by
  -- A second bracket would have to start the name.
  have hitem : itemHeader ('[' :: (name.toList ++ ']' :: '\n' :: rest)) = none := by
    apply bind_of_none
    apply word_of_mismatch
    intro hprefix
    obtain ⟨text, htext⟩ := hprefix
    refine h.head_ne (']' :: '\n' :: rest) (c := '[') (by decide) ?_
    rw [← (List.cons.inj htext).2]
    rfl
  apply line_of_content (.cons rfl _)
  unfold lineContent
  rw [orElse_of_none hitem]
  apply orElse_of_some
  unfold tableHeader
  rw [bind_of_some (char_cons '[' _), bind_of_some (key_before_bracket h ('\n' :: rest)),
    bind_of_some (char_cons ']' _)]
  rfl

theorem line_header {section_ : Section} (h : IsBare section_.name) (rest : List Char) :
    line ((if section_.isItem then "[[" ++ section_.name ++ "]]\n"
      else "[" ++ section_.name ++ "]\n").toList ++ rest) = some (section_.line, rest) := by
  unfold Section.line
  by_cases hitem : section_.isItem
  · rw [if_pos hitem, if_pos hitem]
    simpa using line_item h rest
  · rw [if_neg hitem, if_neg hitem]
    simpa using line_table h rest

/-- An empty line says nothing. -/
theorem line_feed (rest : List Char) : line ('\n' :: rest) = some (.nothing, rest) := by
  have hpart : keyPart ('\n' :: rest) = none := by
    unfold keyPart Quoted.basic Quoted.literal
    rw [bind_of_some (blanks_of_stopsAt (.cons rfl _))]
    apply bind_of_none
    rw [orElse_of_none (bind_of_none (char_of_ne (by simp)) _),
      orElse_of_none (bind_of_none (char_of_ne (by simp)) _)]
    exact row_of_stopsAt (.cons rfl _)
  apply line_of_content (.cons rfl _)
  unfold lineContent itemHeader tableHeader pairContent pair key
  rw [orElse_of_none (bind_of_none (word_of_head (by simp)) _),
    orElse_of_none (bind_of_none (char_of_ne (by simp)) _),
    orElse_of_none (bind_of_none (bind_of_none (bind_of_none hpart _) _) _)]
  rfl

/-! ## Sheets -/

/-- The keys of the pairs and the names of the sections need no quotes. -/
structure Sheet.IsBare (sheet : Sheet) : Prop where
  keys : ∀ pair ∈ sheet.pairs, Toml.IsBare pair.key
  names : ∀ section_ ∈ sheet.sections, Toml.IsBare section_.name
  sectionKeys : ∀ section_ ∈ sheet.sections, ∀ pair ∈ section_.pairs, Toml.IsBare pair.key

/-- The lines of a section. -/
def Section.lines (section_ : Section) : List Line :=
  section_.line :: section_.pairs.map PlainPair.line

/-- The lines of a sheet: those of its blocks, and one that says nothing between two blocks. -/
def Sheet.lines (sheet : Sheet) : List Line :=
  let blocks := sheet.sections.map Section.lines
  [Line.nothing].intercalate
    (if sheet.pairs.isEmpty then blocks else sheet.pairs.map PlainPair.line :: blocks)

/-- A text that is read as lines, whatever stands behind it. -/
def ReadsLines (text : List Char) (lines : List Line) : Prop :=
  ∀ rest, manyFrom line (text ++ rest) =
    (lines ++ (manyFrom line rest).1, (manyFrom line rest).2)

namespace ReadsLines

theorem nil : ReadsLines [] [] :=
  fun _ => rfl

theorem append {first second : List Char} {firstLines secondLines : List Line}
    (h : ReadsLines first firstLines) (h' : ReadsLines second secondLines) :
    ReadsLines (first ++ second) (firstLines ++ secondLines) := by
  intro rest
  rw [List.append_assoc, h, h', List.append_assoc]

theorem of_line {text : List Char} {content : Line} (hne : text ≠ [])
    (h : ∀ rest, line (text ++ rest) = some (content, rest)) : ReadsLines text [content] := by
  intro rest
  have hlength := List.length_pos_iff.2 hne
  rw [manyFrom_of_some (h rest) (by simp only [List.length_append]; omega)]
  rfl

theorem feed : ReadsLines ['\n'] [.nothing] :=
  of_line (by simp) line_feed

theorem of_pairs {pairs : List PlainPair} (h : ∀ pair ∈ pairs, IsBare pair.key) :
    ReadsLines (String.join (pairs.map PlainPair.render)).toList (pairs.map PlainPair.line) := by
  rw [String.toList_join, List.flatMap_map]
  induction pairs with
  | nil => exact nil
  | cons pair pairs ih =>
    obtain ⟨hpair, hpairs⟩ := List.forall_mem_cons.1 h
    have hne : pair.render.toList ≠ [] := by simp [PlainPair.render]
    exact (of_line hne (line_pair hpair)).append (ih hpairs)

theorem of_section {section_ : Section} (hname : IsBare section_.name)
    (hpairs : ∀ pair ∈ section_.pairs, IsBare pair.key) :
    ReadsLines section_.render.toList section_.lines := by
  have hheader : ReadsLines (if section_.isItem then "[[" ++ section_.name ++ "]]\n"
      else "[" ++ section_.name ++ "]\n").toList [section_.line] := by
    apply of_line
    · split <;> simp
    · exact line_header hname
  unfold Section.render
  rw [String.toList_append]
  exact hheader.append (of_pairs hpairs)

/-- Blocks with an empty line between any two are read with a line that says nothing between them.
-/
theorem intercalate {α : Type} {write : α → List Char} {lines : α → List Line} {blocks : List α}
    (h : ∀ block ∈ blocks, ReadsLines (write block) (lines block)) :
    ReadsLines (['\n'].intercalate (blocks.map write))
      ([Line.nothing].intercalate (blocks.map lines)) := by
  induction blocks with
  | nil => exact nil
  | cons block blocks ih =>
    obtain ⟨hblock, hblocks⟩ := List.forall_mem_cons.1 h
    cases blocks with
    | nil => simpa using hblock
    | cons next blocks =>
      simp only [List.map_cons, List.intercalate_cons_cons]
      exact (hblock.append feed).append (ih hblocks)

end ReadsLines

/-- The document of a sheet reads as its lines. -/
theorem manyFrom_line_render {sheet : Sheet} (h : sheet.IsBare) :
    manyFrom line sheet.render.toList = (sheet.lines, []) := by
  have hsections : ∀ section_ ∈ sheet.sections,
      ReadsLines section_.render.toList section_.lines :=
    fun section_ hsection => .of_section (h.names _ hsection) (h.sectionKeys _ hsection)
  have hread : ReadsLines sheet.render.toList sheet.lines := by
    have hblocks : ∀ block ∈
        (String.join (sheet.pairs.map PlainPair.render), sheet.pairs.map PlainPair.line) ::
          sheet.sections.map (fun section_ => (section_.render, section_.lines)),
        ReadsLines block.1.toList block.2 := by
      rw [List.forall_mem_cons]
      refine ⟨.of_pairs h.keys, fun block hblock => ?_⟩
      obtain ⟨section_, hsection, rfl⟩ := List.mem_map.1 hblock
      exact hsections section_ hsection
    have hall := ReadsLines.intercalate hblocks
    have hbelow := ReadsLines.intercalate (List.forall_mem_cons.1 hblocks).2
    unfold Sheet.render Sheet.lines
    rw [String.toList_intercalate]
    by_cases hempty : sheet.pairs.isEmpty
    · simpa [hempty, Function.comp_def] using hbelow
    · simpa [hempty, Function.comp_def] using hall
  have hall := hread []
  rw [List.append_nil, manyFrom_nil, List.append_nil] at hall
  exact hall

/-- A sheet starts with a key, with the bracket of a header, or not at all. -/
theorem Sheet.IsBare.head?_render_ne {sheet : Sheet} (h : sheet.IsBare) {c : Char}
    (hbare : isBareKey c = false) (hopen : c ≠ '[') : sheet.render.toList.head? ≠ some c := by
  have hfirst : ∀ (block : List Char) (blocks : List (List Char)),
      ∃ rest, ['\n'].intercalate (block :: blocks) = block ++ rest := by
    intro block blocks
    cases blocks with
    | nil => exact ⟨[], by simp⟩
    | cons next blocks =>
      exact ⟨_, by rw [List.intercalate_cons_cons, List.append_assoc]⟩
  obtain ⟨pairs, sections⟩ := sheet
  unfold Sheet.render
  rw [String.toList_intercalate]
  cases pairs with
  | cons pair pairs =>
    obtain ⟨rest, hrest⟩ := hfirst (String.join ((pair :: pairs).map PlainPair.render)).toList
      ((sections.map Section.render).map String.toList)
    have htext : (String.join ((pair :: pairs).map PlainPair.render)).toList ++ rest =
        pair.key.toList ++ ([' ', '=', ' '] ++ (pair.value.render.toList ++
          '\n' :: ((String.join (pairs.map PlainPair.render)).toList ++ rest))) := by
      simp [String.toList_join, PlainPair.render]
    show (['\n'].intercalate (_ :: _)).head? ≠ _
    rw [hrest, htext]
    exact (h.keys pair (List.mem_cons_self ..)).head_ne _ hbare
  | nil =>
    cases sections with
    | nil => simp
    | cons section_ sections =>
      obtain ⟨rest, hrest⟩ := hfirst section_.render.toList
        ((sections.map Section.render).map String.toList)
      show (['\n'].intercalate (_ :: _)).head? ≠ _
      rw [hrest]
      by_cases hitem : section_.isItem
      · simpa [Section.render, hitem] using Ne.symm hopen
      · simpa [Section.render, hitem] using Ne.symm hopen

/-- The lines of the document of a sheet are read to the end. -/
theorem all?_line_render {sheet : Sheet} (h : sheet.IsBare) :
    (Reader.many line).all? sheet.render.toList = some sheet.lines := by
  unfold all?
  rw [many_of_manyFrom (manyFrom_line_render h)]

end CallTable.Toml
