import CallTable.Proofs.Toml.Sheet

/-!
# Tables built from lines

The lines of a section build its table: a header opens a table, or one more table of an array, at
the end of the document, and the pairs after it go there, each under its key. Sections of tables
under names of their own and sections of items under one name build what their pairs say.
-/

namespace CallTable.Toml

namespace Entries

theorem lookup_eq_none {entries : Entries} {key : String} (h : key ∉ entries.map Prod.fst) :
    entries.lookup key = none := by
  rw [List.lookup_eq_none_iff]
  intro entry hentry
  have hne : key ≠ entry.1 := fun heq => h (heq ▸ List.mem_map_of_mem hentry)
  simpa using hne

theorem lookup_append_self {entries : Entries} {key : String} (h : entries.lookup key = none)
    (value : Value) : (entries ++ [(key, value)]).lookup key = some value := by
  rw [List.lookup_append, h]
  simp

theorem put_append_self {entries : Entries} {key : String} (h : entries.lookup key = none)
    (old value : Value) : (entries ++ [(key, old)]).put key value = entries ++ [(key, value)] := by
  induction entries with
  | nil => simp [put]
  | cons entry entries ih =>
    obtain ⟨name, kept⟩ := entry
    have hname : name ≠ key := by
      intro heq
      subst heq
      simp at h
    have hrest : entries.lookup key = none := by
      simpa [List.lookup_cons, beq_false_of_ne (Ne.symm hname)] using h
    simp [put, hname, ih hrest]

end Entries

/-- The entries that pairs give. -/
def PlainPair.entries (pairs : List PlainPair) : Entries :=
  pairs.map fun pair => (pair.key, pair.value.toValue)

/-- A value that stands last in a table and can be descended into: pairs that follow its header go
to the entries it holds. -/
def Opens (hold : Entries → Value) (name : String) (root : Entries) : Prop :=
  ∀ change inner, Entries.descend change [name] (root ++ [(name, hold inner)]) =
    (change inner).map fun inner => root ++ [(name, hold inner)]

theorem addPair_new {entries : Entries} {key : String} (h : key ∉ entries.map Prod.fst)
    (value : Value) : Entries.addPair key value [] entries = some (entries ++ [(key, value)]) := by
  unfold Entries.addPair
  rw [Entries.lookup_eq_none h]
  rfl

/-- The pairs after a header go to the entries of its table. -/
theorem foldlM_pairs {hold : Entries → Value} {name : String} {root : Entries}
    (hopens : Opens hold name root) {pairs : List PlainPair} {inner : Entries}
    (hkeys : (inner.map Prod.fst ++ pairs.map PlainPair.key).Nodup) :
    (pairs.map PlainPair.line).foldlM Draft.add ⟨root ++ [(name, hold inner)], [name]⟩ =
      some ⟨root ++ [(name, hold (inner ++ PlainPair.entries pairs))], [name]⟩ := by
  induction pairs generalizing inner with
  | nil => simp [PlainPair.entries]
  | cons pair pairs ih =>
    have hnew : pair.key ∉ inner.map Prod.fst := by
      intro hmem
      exact (List.nodup_append.1 hkeys).2.2 _ hmem _ (List.mem_cons_self ..) rfl
    have hadd : Draft.add ⟨root ++ [(name, hold inner)], [name]⟩ pair.line =
        some ⟨root ++ [(name, hold (inner ++ [(pair.key, pair.value.toValue)]))], [name]⟩ := by
      show (do
        let root ← Entries.descend (Entries.addPair pair.key pair.value.toValue []) [name]
          (root ++ [(name, hold inner)])
        some (Draft.mk root [name])) = _
      rw [hopens, addPair_new hnew]
      rfl
    rw [List.map_cons, List.foldlM_cons, hadd]
    show (pairs.map PlainPair.line).foldlM Draft.add _ = _
    rw [ih (by simpa using hkeys)]
    simp [PlainPair.entries]

/-- The table of a header is open to the pairs after it. -/
theorem opens_table {name : String} {root : Entries} (h : root.lookup name = none) :
    Opens (.table .header) name root := by
  intro change inner
  unfold Entries.descend
  rw [Entries.lookup_append_self h]
  show (do
    let inner ← Entries.descend change [] inner
    some (Entries.put name (Value.table .header inner) _)) = _
  unfold Entries.descend
  cases change inner with
  | none => rfl
  | some changed =>
    show some (Entries.put name _ _) = some _
    rw [Entries.put_append_self h]

/-- So is the latest table of an array of tables. -/
theorem opens_item {name : String} {root : Entries} (h : root.lookup name = none)
    (items : List Value) :
    Opens (fun inner => .array true (items ++ [.table .header inner])) name root := by
  intro change inner
  unfold Entries.descend
  rw [Entries.lookup_append_self h]
  simp only [List.getLast?_concat, List.dropLast_concat]
  unfold Entries.descend
  cases change inner with
  | none => rfl
  | some changed =>
    show some (Entries.put name _ _) = some _
    rw [Entries.put_append_self h]

/-- No key of a section is given twice. -/
def Section.HasKeysOnce (section_ : Section) : Prop :=
  (section_.pairs.map PlainPair.key).Nodup

/-- Adds the lines of a section. -/
def Draft.addSection (draft : Draft) (section_ : Section) : Option Draft :=
  section_.lines.foldlM Draft.add draft

/-- The table of a section. -/
def Section.table (section_ : Section) : Value :=
  .table .header (PlainPair.entries section_.pairs)

/-- A section under the header of a table adds the table. -/
theorem addSection_table {section_ : Section} (hitem : section_.isItem = false)
    (hkeys : section_.HasKeysOnce) {root : Entries} (h : root.lookup section_.name = none)
    (here : List String) :
    Draft.addSection ⟨root, here⟩ section_ =
      some ⟨root ++ [(section_.name, section_.table)], [section_.name]⟩ := by
  have hheader : Draft.add ⟨root, here⟩ section_.line =
      some ⟨root ++ [(section_.name, .table .header [])], [section_.name]⟩ := by
    unfold Section.line Draft.add
    rw [if_neg (by simp [hitem])]
    simp only [Entries.descend, Entries.openTable, h]
    rfl
  unfold Draft.addSection Section.lines
  rw [List.foldlM_cons, hheader]
  exact foldlM_pairs (opens_table h) hkeys

/-- A section under the header of an item adds its table to the array, which is made for the first
of them. -/
theorem addSection_item {section_ : Section} (hitem : section_.isItem = true)
    (hkeys : section_.HasKeysOnce) {root entries : Entries} {items : List Value}
    (h : root.lookup section_.name = none)
    (hentries : (entries = root ∧ items = []) ∨
      entries = root ++ [(section_.name, .array true items)]) (here : List String) :
    Draft.addSection ⟨entries, here⟩ section_ =
      some ⟨root ++ [(section_.name, .array true (items ++ [section_.table]))],
        [section_.name]⟩ := by
  have hheader : Draft.add ⟨entries, here⟩ section_.line =
      some ⟨root ++ [(section_.name, .array true (items ++ [.table .header []]))],
        [section_.name]⟩ := by
    unfold Section.line Draft.add
    rw [if_pos hitem]
    obtain ⟨rfl, rfl⟩ | rfl := hentries
    · simp only [Entries.descend, Entries.openItem, h]
      rfl
    · simp only [Entries.descend, Entries.openItem, Entries.lookup_append_self h,
        Entries.put_append_self h]
      rfl
  unfold Draft.addSection Section.lines
  rw [List.foldlM_cons, hheader]
  exact foldlM_pairs (opens_item h items) hkeys

/-- Sections of tables, each under a name of its own, add their tables. -/
theorem foldlM_tables {sections : List Section}
    (hitem : ∀ section_ ∈ sections, section_.isItem = false)
    (hkeys : ∀ section_ ∈ sections, section_.HasKeysOnce) {root : Entries}
    (hnames : (root.map Prod.fst ++ sections.map Section.name).Nodup) (here : List String) :
    ∃ there, sections.foldlM Draft.addSection ⟨root, here⟩ =
      some ⟨root ++ sections.map (fun section_ => (section_.name, section_.table)), there⟩ := by
  induction sections generalizing root here with
  | nil => exact ⟨here, by simp⟩
  | cons section_ sections ih =>
    obtain ⟨hsectionItem, hsectionsItem⟩ := List.forall_mem_cons.1 hitem
    obtain ⟨hsectionKeys, hsectionsKeys⟩ := List.forall_mem_cons.1 hkeys
    have hnew : section_.name ∉ root.map Prod.fst := by
      intro hmem
      exact (List.nodup_append.1 hnames).2.2 _ hmem _ (List.mem_cons_self ..) rfl
    obtain ⟨there, hthere⟩ := ih hsectionsItem hsectionsKeys
      (by simpa using hnames : ((root ++ [(section_.name, section_.table)]).map Prod.fst ++
        sections.map Section.name).Nodup) [section_.name]
    refine ⟨there, ?_⟩
    rw [List.foldlM_cons, addSection_table hsectionItem hsectionKeys (Entries.lookup_eq_none hnew)]
    show sections.foldlM Draft.addSection _ = _
    rw [hthere]
    simp

/-- Sections of items under one name add their tables to its array. -/
theorem foldlM_items {name : String} {sections : List Section}
    (hitem : ∀ section_ ∈ sections, section_.isItem = true ∧ section_.name = name)
    (hkeys : ∀ section_ ∈ sections, section_.HasKeysOnce) {root entries : Entries}
    {items : List Value} (h : root.lookup name = none)
    (hentries : (entries = root ∧ items = [] ∧ sections ≠ []) ∨
      entries = root ++ [(name, .array true items)]) (here : List String) :
    ∃ there, sections.foldlM Draft.addSection ⟨entries, here⟩ =
      some ⟨root ++ [(name, .array true (items ++ sections.map Section.table))], there⟩ := by
  induction sections generalizing entries items here with
  | nil =>
    obtain ⟨_, _, hne⟩ | rfl := hentries
    · exact absurd rfl hne
    · exact ⟨here, by simp⟩
  | cons section_ sections ih =>
    obtain ⟨⟨hsectionItem, rfl⟩, hsectionsItem⟩ := List.forall_mem_cons.1 hitem
    obtain ⟨hsectionKeys, hsectionsKeys⟩ := List.forall_mem_cons.1 hkeys
    have hfirst : (entries = root ∧ items = []) ∨
        entries = root ++ [(section_.name, .array true items)] :=
      hentries.imp_left fun hnone => ⟨hnone.1, hnone.2.1⟩
    obtain ⟨there, hthere⟩ := ih hsectionsItem hsectionsKeys (.inr rfl) [section_.name]
    refine ⟨there, ?_⟩
    rw [List.foldlM_cons, addSection_item hsectionItem hsectionKeys h hfirst]
    show sections.foldlM Draft.addSection _ = _
    rw [hthere]
    simp

/-- Blocks of lines build one after the other; the lines between them add nothing. -/
theorem foldlM_intercalate (blocks : List (List Line)) (draft : Draft) :
    ([Line.nothing].intercalate blocks).foldlM Draft.add draft =
      blocks.foldlM (fun draft block => block.foldlM Draft.add draft) draft := by
  induction blocks generalizing draft with
  | nil => rfl
  | cons block blocks ih =>
    cases blocks with
    | nil => simp
    | cons next blocks =>
      rw [List.intercalate_cons_cons, List.foldlM_append, List.foldlM_append, List.foldlM_cons,
        bind_assoc]
      congr 1
      funext draft
      exact ih draft

theorem foldlM_sections (sections : List Section) (draft : Draft) :
    (sections.map Section.lines).foldlM (fun draft block => block.foldlM Draft.add draft) draft =
      sections.foldlM Draft.addSection draft := by
  rw [List.foldlM_map]
  rfl

end CallTable.Toml
