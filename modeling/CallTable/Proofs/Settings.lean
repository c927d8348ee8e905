import CallTable.Proofs.Files.Saving
import CallTable.Proofs.Toml.Draft
import CallTable.Settings.Storage

/-!
# Settings saved and loaded

The lines of a settings file build the table that the settings are read from: each section gives
its table, the corrections give one array, and an empty list of corrections, written before the
first header, gives an empty array and not the standard corrections. So settings come back as they
are from the text of their file, and from the file itself but for the directory of the two dumps.
-/

namespace CallTable.Settings

open Text Toml

/-! ## The table of a settings file -/

/-- The sections that every settings file has. -/
def fixedSections (settings : Settings) : List Section :=
  let options := settings.options
  [⟨"input", false, [⟨"table", .text settings.table.text⟩,
      ⟨"signatures", .text settings.signatures.text⟩]⟩,
    ⟨"table", false, [⟨"layout", .text (orderName options.order)⟩]⟩,
    ⟨"naming", false, [⟨"member_prefix", .text options.memberPrefix⟩,
      ⟨"namespace", .text options.typeNamespace⟩]⟩,
    ⟨"types", false, [⟨"known", .texts options.known⟩]⟩]

/-- The section of a correction. -/
def correctionSection (correction : Entry) : Section :=
  ⟨"overrides", true, [⟨"pointer_type", .text correction.pointerType⟩,
    ⟨"member", .text correction.member⟩]⟩

theorem sections_toSheet (settings : Settings) :
    settings.toSheet.sections =
      settings.fixedSections ++ settings.options.corrections.map correctionSection :=
  rfl

/-- The keys and names of a settings file. -/
def keyNames : List String :=
  ["input", "table", "naming", "types", "overrides", "signatures", "layout", "member_prefix",
    "namespace", "known", "pointer_type", "member"]

theorem isBare_of_mem_keyNames : ∀ name ∈ keyNames, IsBare name := by
  have hnames : ∀ name ∈ keyNames, name ≠ "" ∧ name.toList.all isBareKey := by decide
  exact fun name hname => ⟨(hnames name hname).1, (hnames name hname).2⟩

theorem names_of_mem_sections {settings : Settings} {section_ : Section}
    (h : section_ ∈ settings.toSheet.sections) :
    section_.name ∈ keyNames ∧ (∀ pair ∈ section_.pairs, pair.key ∈ keyNames) ∧
      section_.HasKeysOnce := by
  rw [sections_toSheet, List.mem_append] at h
  cases h with
  | inl hfixed =>
    simp only [fixedSections, List.mem_cons, List.not_mem_nil, or_false] at hfixed
    obtain rfl | rfl | rfl | rfl := hfixed <;> simp [keyNames, Section.HasKeysOnce]
  | inr hcorrection =>
    obtain ⟨correction, _, rfl⟩ := List.mem_map.1 hcorrection
    simp [correctionSection, keyNames, Section.HasKeysOnce]

theorem isBare_toSheet (settings : Settings) : settings.toSheet.IsBare where
  keys pair hpair := by
    apply isBare_of_mem_keyNames
    unfold toSheet at hpair
    by_cases hempty : settings.options.corrections.isEmpty
    · simp only [hempty, if_true, List.mem_singleton] at hpair
      simp [hpair, keyNames]
    · simp [hempty] at hpair
  names section_ hsection := isBare_of_mem_keyNames _ (names_of_mem_sections hsection).1
  sectionKeys section_ hsection pair hpair :=
    isBare_of_mem_keyNames _ ((names_of_mem_sections hsection).2.1 pair hpair)

/-- The entries that the fixed sections give. -/
def fixedEntries (settings : Settings) : Entries :=
  settings.fixedSections.map fun section_ => (section_.name, section_.table)

/-- The entries of a settings file. The corrections stand last, or first if there are none. -/
def entries (settings : Settings) : Entries :=
  match settings.options.corrections with
  | [] => ("overrides", .array false []) :: settings.fixedEntries
  | corrections => settings.fixedEntries ++
      [("overrides", .array true ((corrections.map correctionSection).map Section.table))]

theorem hasKeysOnce_of_mem {settings : Settings} {section_ : Section}
    (h : section_ ∈ settings.fixedSections ++ settings.options.corrections.map correctionSection) :
    section_.HasKeysOnce := by
  rw [← sections_toSheet] at h
  exact (names_of_mem_sections h).2.2

/-- The fixed sections add their tables to what stands before them, if none of them is there. -/
theorem foldlM_fixedSections (settings : Settings) {root : Entries}
    (h : (root.map Prod.fst ++ settings.fixedSections.map Section.name).Nodup) :
    ∃ there, settings.fixedSections.foldlM Draft.addSection ⟨root, []⟩ =
      some ⟨root ++ settings.fixedEntries, there⟩ := by
  have hitem : ∀ section_ ∈ settings.fixedSections, section_.isItem = false := by
    simp [fixedSections]
  have hkeys : ∀ section_ ∈ settings.fixedSections, section_.HasKeysOnce :=
    fun _ hsection => hasKeysOnce_of_mem (List.mem_append_left _ hsection)
  exact foldlM_tables hitem hkeys h []

/-- Without corrections their empty array stands before the sections. -/
theorem foldlM_lines_of_nil {settings : Settings} (h : settings.options.corrections = []) :
    ∃ there, settings.toSheet.lines.foldlM Draft.add ⟨[], []⟩ =
      some ⟨settings.entries, there⟩ := by
  have hpairs : settings.toSheet.pairs = [⟨"overrides", .texts []⟩] := by
    simp [toSheet, h]
  have hnames : (([("overrides", .array false [])] : Entries).map Prod.fst ++
      settings.fixedSections.map Section.name).Nodup := by
    simp [fixedSections]
  have hentries : settings.entries = ("overrides", .array false []) :: settings.fixedEntries := by
    unfold entries
    rw [h]
  have hstart : [PlainPair.line ⟨"overrides", .texts []⟩].foldlM Draft.add ⟨[], []⟩ =
      some ⟨[("overrides", .array false [])], []⟩ := rfl
  obtain ⟨there, hthere⟩ := settings.foldlM_fixedSections hnames
  refine ⟨there, ?_⟩
  unfold Sheet.lines
  rw [foldlM_intercalate, sections_toSheet, hpairs, hentries, h, List.map_nil, List.append_nil]
  show ([PlainPair.line ⟨"overrides", .texts []⟩] ::
    settings.fixedSections.map Section.lines).foldlM
      (fun draft block => block.foldlM Draft.add draft) _ = _
  rw [List.foldlM_cons, hstart, Option.bind_eq_bind, Option.bind_some, foldlM_sections]
  exact hthere

/-- Corrections stand behind the fixed sections, each in a section of its own. -/
theorem foldlM_lines_of_ne_nil {settings : Settings} (h : settings.options.corrections ≠ []) :
    ∃ there, settings.toSheet.lines.foldlM Draft.add ⟨[], []⟩ =
      some ⟨settings.entries, there⟩ := by
  have hpairs : settings.toSheet.pairs = [] := by
    simp [toSheet, h]
  have hnames : (([] : Entries).map Prod.fst ++
      settings.fixedSections.map Section.name).Nodup := by
    simp [fixedSections]
  have hlookup : ([] ++ settings.fixedEntries).lookup "overrides" = none := by
    simp [fixedEntries, fixedSections]
  have hentries : settings.entries = settings.fixedEntries ++ [("overrides", .array true
      ((settings.options.corrections.map correctionSection).map Section.table))] := by
    unfold entries
    split
    · contradiction
    · rfl
  obtain ⟨between, hbetween⟩ := settings.foldlM_fixedSections hnames
  obtain ⟨there, hthere⟩ := foldlM_items (by simp [correctionSection])
    (fun _ hsection => hasKeysOnce_of_mem (List.mem_append_right _ hsection)) hlookup
    (.inl ⟨rfl, rfl, mt List.map_eq_nil_iff.1 h⟩) between
  refine ⟨there, ?_⟩
  unfold Sheet.lines
  rw [foldlM_intercalate, sections_toSheet, hpairs, hentries]
  show (List.map Section.lines _).foldlM (fun draft block => block.foldlM Draft.add draft)
    (Draft.mk [] []) = _
  rw [foldlM_sections, List.foldlM_append, hbetween]
  exact hthere

/-- The lines of a settings file build its entries. -/
theorem foldlM_lines (settings : Settings) :
    ∃ there, settings.toSheet.lines.foldlM Draft.add ⟨[], []⟩ =
      some ⟨settings.entries, there⟩ := by
  by_cases h : settings.options.corrections = []
  · exact foldlM_lines_of_nil h
  · exact foldlM_lines_of_ne_nil h

theorem ofDocument?_render (settings : Settings) :
    ofDocument? settings.render = some settings.entries := by
  obtain ⟨there, hlines⟩ := settings.foldlM_lines
  have hread : (Reader.many line).all? settings.render.toList = some settings.toSheet.lines :=
    all?_line_render settings.isBare_toSheet
  have hmark : settings.render.toList.head? ≠ some '\uFEFF' :=
    settings.isBare_toSheet.head?_render_ne (by decide) (by decide)
  unfold ofDocument?
  simp only [if_neg hmark, hread]
  show (settings.toSheet.lines.foldlM Draft.add ⟨[], []⟩).bind (fun draft => some draft.root) = _
  rw [hlines]
  rfl

/-! ## Reading the table -/

theorem orderOfName?_orderName (order : ColumnOrder) :
    orderOfName? (orderName order) = some order := by
  cases order <;> decide

theorem texts?_map_text (origin : Bool) (items : List String) :
    (Value.array origin (items.map .text)).texts? = some items := by
  show (items.map Value.text).mapM Value.text? = some items
  induction items with
  | nil => rfl
  | cons item items ih =>
    rw [List.map_cons, List.mapM_cons, ih]
    rfl

theorem corrections?_map_table (origin : Bool) (corrections : List Entry) :
    (Value.array origin ((corrections.map correctionSection).map Section.table)).corrections? =
      some corrections := by
  show ((corrections.map correctionSection).map Section.table).mapM Value.correction? =
    some corrections
  induction corrections with
  | nil => rfl
  | cons correction corrections ih =>
    rw [List.map_cons, List.map_cons, List.mapM_cons, ih]
    rfl

/-- Each fixed section is found under its name. -/
theorem lookup_entries (settings : Settings) {section_ : Section}
    (h : section_ ∈ settings.fixedSections) :
    settings.entries.lookup section_.name = some section_.table := by
  unfold fixedSections at h
  simp only [List.mem_cons, List.not_mem_nil, or_false] at h
  unfold entries fixedEntries fixedSections
  obtain rfl | rfl | rfl | rfl := h <;> split <;> simp [List.lookup_cons]

/-- The corrections are found under theirs, also if there are none. -/
theorem lookup_entries_overrides (settings : Settings) :
    ∃ growing, settings.entries.lookup "overrides" = some (.array growing
      ((settings.options.corrections.map correctionSection).map Section.table)) := by
  unfold entries fixedEntries fixedSections
  split
  · rename_i hempty
    exact ⟨false, by simp [hempty]⟩
  · exact ⟨true, by simp [List.lookup_cons]⟩

/-- The entries of a settings file give the settings. -/
theorem ofEntries?_entries (settings : Settings) : ofEntries? settings.entries = some settings := by
  have hinput := settings.lookup_entries (List.mem_cons_self ..)
  have htable := settings.lookup_entries (List.mem_cons_of_mem _ (List.mem_cons_self ..))
  have hnaming := settings.lookup_entries
    (List.mem_cons_of_mem _ (List.mem_cons_of_mem _ (List.mem_cons_self ..)))
  have htypes := settings.lookup_entries (List.mem_cons_of_mem _
    (List.mem_cons_of_mem _ (List.mem_cons_of_mem _ (List.mem_cons_self ..))))
  obtain ⟨growing, hoverrides⟩ := settings.lookup_entries_overrides
  have hcorrections := corrections?_map_table growing settings.options.corrections
  have hknown := texts?_map_text false settings.options.known
  have horder := orderOfName?_orderName settings.options.order
  simp only [Section.table, PlainPair.entries, List.map_cons, List.map_nil, Plain.toValue]
    at hinput htable hnaming htypes
  unfold ofEntries?
  rw [hinput, htable, hnaming, htypes, hoverrides]
  simp [orStandard, inputs?, layout?, naming?, known?, Value.fields?, Value.text?, Value.order?,
    List.lookup_cons, hcorrections, hknown, horder, -List.map_map]

/-- Settings are read back from the text of their file. -/
theorem ofText?_render (settings : Settings) : ofText? settings.render = some settings := by
  unfold ofText?
  rw [ofDocument?_render]
  exact ofEntries?_entries settings

/-! ## The settings file -/

open FileSystem

/-- Taking paths as relative to a directory leaves what the generator is told. -/
@[simp]
theorem options_resolvePaths (settings : Settings) (base : Path) :
    (settings.resolvePaths base).options = settings.options :=
  rfl

/-- A file that holds the text of settings gives these, with the dumps as seen from its directory.
-/
theorem run_load {tree : Tree} {path base : Path} {settings : Settings}
    (hread : tree.read path = .ok settings.render.toUTF8) (hparent : path.parent? = some base) :
    (load path : StateM Tree (Except FileError Settings)).run tree =
      (.ok (settings.resolvePaths base), tree) := by
  have htext : (readText "config" path : StateM Tree (Except FileError String)).run tree =
      (.ok settings.render, tree) := by
    unfold readText
    rw [Tree.run_bind, Tree.run_readBytes, hread]
    simp only [fromUTF8?_toUTF8]
    rfl
  unfold load
  rw [Tree.run_bind, htext]
  simp only [ofText?_render, hparent]
  rfl

/-- Settings that were saved are loaded as they were, but for the paths of the two dumps, which are
then taken as relative to the directory of the file. Lists that are empty come back empty. -/
theorem load_save {settings : Settings} {path : Path} {tree after : Tree}
    (h : (settings.save path : StateM Tree (Except FileError Unit)).run tree = (.ok (), after)) :
    ∃ base, path.parent? = some base ∧
      (load path : StateM Tree (Except FileError Settings)).run after =
        (.ok (settings.resolvePaths base), after) ∧
      (settings.resolvePaths base).options = settings.options := by
  have hsaved := tree.isSaved_saveText path settings.render
  unfold save at h
  rw [h] at hsaved
  obtain ⟨base, hparent⟩ := Tree.SavesTo.exists_parent? hsaved
  exact ⟨base, hparent, run_load (Tree.SavesTo.read hsaved) hparent, options_resolvePaths _ _⟩

/-- Settings without elementary types and corrections, with a string for each form of the writer. -/
def oddSettings : Settings where
  table := ⟨"/dumps/the \"table\".txt"⟩
  signatures := ⟨"signatures.txt"⟩
  options :=
    { order := .memberFirst
      memberPrefix := "\n it's \"\""
      typeNamespace := "api\\v1"
      known := []
      corrections := [] }

theorem load_save_oddSettings :
    ∃ after : Tree,
      (oddSettings.save ⟨"conf/wrapgen.toml"⟩ : StateM Tree (Except FileError Unit)).run ⟨[], []⟩ =
        (.ok (), after) ∧
      ∃ base, Path.parent? ⟨"conf/wrapgen.toml"⟩ = some base ∧
        (load ⟨"conf/wrapgen.toml"⟩ : StateM Tree (Except FileError Settings)).run after =
          (.ok (oddSettings.resolvePaths base), after) ∧
        (oddSettings.resolvePaths base).options = oddSettings.options := by
  have hsave : ((oddSettings.save ⟨"conf/wrapgen.toml"⟩ :
      StateM Tree (Except FileError Unit)).run ⟨[], []⟩).1.isOk = true := by
    decide +kernel
  cases hrun : (oddSettings.save ⟨"conf/wrapgen.toml"⟩ :
      StateM Tree (Except FileError Unit)).run ⟨[], []⟩ with
  | mk outcome after =>
    rw [hrun] at hsave
    cases outcome with
    | error failure => cases hsave
    | ok => exact ⟨after, rfl, load_save hrun⟩

end CallTable.Settings
