import CallTable.Proofs.Emission
import CallTable.Proofs.Identifier
import CallTable.Proofs.MemberMap.LastEntry
import CallTable.Proofs.Signature.ParameterLine
import CallTable.Proofs.Table.Match

/-!
# Names and types hold no line feed

The texts of a wrapper are taken from both dumps, respelled and qualified. None of them can hold a
line feed: a column of a table is a word, a parameter stands on one line of a list, and respelling
makes no line feed out of other characters. Only the namespace and the members of corrections are
free, so `isLined_of_resolved` asks for nothing else.
-/

namespace CallTable

open Text

/-- The texts of the parameter hold no line feed. -/
structure Parameter.IsLined (parameter : Parameter) : Prop where
  name : '\n' ∉ parameter.name.toList
  type : '\n' ∉ parameter.type.toList

/-- The texts of the wrapper hold no line feed. -/
structure Wrapper.IsLined (wrapper : Wrapper) : Prop where
  name : '\n' ∉ wrapper.name.toList
  member : '\n' ∉ wrapper.member.toList
  parameters : ∀ parameter ∈ wrapper.parameters, parameter.IsLined

/-- The texts that a wrapper may take from the options hold no line feed. The elementary types are
not among them, because a wrapper writes such a type as the dump holds it. -/
structure Options.IsLined (options : Options) : Prop where
  typeNamespace : '\n' ∉ options.typeNamespace.toList
  corrections : ∀ correction ∈ options.corrections, '\n' ∉ correction.member.toList

/-! ## Cutting and joining -/

namespace Text

theorem feed_not_mem_of_mem_words {text word : List Char} (h : word ∈ words text) :
    '\n' ∉ word :=
  fun hc => absurd (eq_false_of_mem_splitOnP (List.mem_filter.1 h).1 _ hc) (by decide)

/-! ## Lowercasing -/

/-- The images of capitals stand behind the controls of ASCII. -/
theorem lt_image_of_mem_capitalRuns : ∀ run ∈ capitalRuns, 10 < run.image := by
  decide +kernel

theorem eq_ten_of_ofNat_eq_feed {code : Nat} (h : Char.ofNat code = '\n') : code = 10 := by
  by_cases hvalid : code.isValidChar
  · rw [Char.ofNat, dif_pos hvalid] at h
    exact congrArg Char.toNat h
  · rw [Char.ofNat, dif_neg hvalid] at h
    cases h

theorem feed_not_mem_lowerChar {c : Char} (h : c ≠ '\n') : '\n' ∉ lowerChar c := by
  rw [lowerChar]
  split
  · decide
  · split
    · next run hrun =>
      -- The lowercase letter is the image of the run or stands behind it.
      have himage := lt_image_of_mem_capitalRuns run (List.mem_of_find?_eq_some hrun)
      rw [List.mem_singleton]
      intro hfeed
      have hcode := eq_ten_of_ofNat_eq_feed hfeed.symm
      omega
    · simpa using h.symm

theorem feed_not_mem_lowerAfter (before : List Char) {text : List Char} (h : '\n' ∉ text) :
    '\n' ∉ lowerAfter before text := by
  induction text generalizing before with
  | nil => exact List.not_mem_nil
  | cons c text ih =>
      rw [List.mem_cons, not_or] at h
      rw [lowerAfter, List.mem_append, not_or]
      refine ⟨?_, ih _ h.2⟩
      split
      · split <;> decide
      · exact feed_not_mem_lowerChar (Ne.symm h.1)

end Text

/-! ## Respelling -/

namespace Identifier

theorem toLower_ne_feed {c : Char} (h : c.isAlpha = true) : c.toLower ≠ '\n' := by
  intro hfeed
  have hlower := isLower_toLower h
  rw [hfeed] at hlower
  cases hlower

theorem feed_not_mem_lowerUid {name : List Char} (h : '\n' ∉ name) : '\n' ∉ lowerUid name := by
  fun_induction lowerUid name with
  | case1 => exact h
  | case2 rest ih => simp_all
  | case3 c rest _ ih => simp_all

/-- A word is made of letters. -/
theorem isAlpha_of_readWord? {text rest found : List Char}
    (h : readWord? text = some (found, rest)) : ∀ c ∈ found, c.isAlpha = true := by
  cases text with
  | nil => cases h
  | cons c text =>
      simp only [readWord?, Option.ite_none_right_eq_some, Option.some.injEq, Prod.mk.injEq] at h
      obtain ⟨⟨hc, -⟩, rfl, -⟩ := h
      exact List.forall_mem_cons.2 ⟨hc, fun d hd =>
        isAlpha_of_isLower (List.all_eq_true.1 List.all_takeWhile d hd)⟩

theorem feed_not_mem_of_mem_words {name lowered : List Char} (h : lowered ∈ words name) :
    '\n' ∉ lowered := by
  obtain ⟨found, hfound, rfl⟩ := List.mem_map.1 h
  have halpha := word.forall_mem_all isAlpha_of_readWord? (lowerUid name) found hfound
  rw [List.mem_map]
  rintro ⟨c, hc, hfeed⟩
  exact toLower_ne_feed (halpha c hc) hfeed

theorem feed_not_mem_snakeCase {name : List Char} (h : '\n' ∉ name) : '\n' ∉ snakeCase name := by
  rw [snakeCase]
  split
  · exact feed_not_mem_lowerAfter [] (feed_not_mem_lowerUid h)
  · exact not_mem_intercalate (by decide) fun lowered => feed_not_mem_of_mem_words

end Identifier

/-! ## Qualifying -/

namespace TypeName

theorem feed_not_mem_of_mem_qualifyLast {space : List Char} {components : List (List Char)}
    (hspace : '\n' ∉ space) (h : ∀ component ∈ components, '\n' ∉ component) :
    ∀ component ∈ qualifyLast space components, '\n' ∉ component := by
  fun_induction qualifyLast space components with
  | case1 => exact h
  | case2 base => simpa [hspace] using h
  | case3 component others hmore ih =>
      rw [List.forall_mem_cons] at h ⊢
      exact ⟨h.1, ih h.2⟩

theorem feed_not_mem_qualify (known : List String) {space raw : String}
    (hspace : '\n' ∉ space.toList) (hraw : '\n' ∉ raw.toList) :
    '\n' ∉ (qualify known space raw).toList := by
  rw [qualify]
  split
  · exact hraw
  · split
    · exact hraw
    · rw [String.toList_ofList]
      exact not_mem_intercalate (by decide)
        (feed_not_mem_of_mem_qualifyLast hspace fun component => feed_not_mem_of_mem_words)

end TypeName

/-! ## Parameters of a dump -/

theorem Parameter.isLined_of_ofLine? {line : List Char} {parameter : Parameter}
    (hline : '\n' ∉ line) (h : ofLine? line = some parameter) : parameter.IsLined :=
  ⟨fun hc => hline ((subset_of_ofLine? h).1 hc), fun hc => hline ((subset_of_ofLine? h).2 hc)⟩

theorem Parameter.IsLined.adapt {options : Options} {parameter : Parameter}
    (hoptions : options.IsLined) (h : parameter.IsLined) : (parameter.adapt options).IsLined := by
  constructor
  · rw [Parameter.adapt, String.toList_ofList]
    exact Identifier.feed_not_mem_snakeCase h.name
  · exact TypeName.feed_not_mem_qualify options.known hoptions.typeNamespace h.type

/-- Every parameter of a signature dump stands on a line. -/
theorem Signature.isLined_of_mem_ofDump {dump : String} {signature : Signature}
    (h : signature ∈ (Signature.ofDump dump).value) :
    ∀ parameter ∈ signature.parameters, parameter.IsLined := by
  obtain ⟨block, -, rfl⟩ := List.mem_map.1 h
  intro parameter hparameter
  obtain ⟨line, hline, hread⟩ := AliasBlock.exists_line_of_mem_parameters hparameter
  exact Parameter.isLined_of_ofLine? (AliasBlock.feed_not_mem_of_mem_lines hline) hread

/-! ## Members of a table -/

/-- Both columns of a declaration are runs of visible characters. -/
theorem Declaration.visible_of_read? {text rest : List Char} {declaration : Declaration}
    (h : read? text = some (declaration, rest)) :
    ∀ c ∈ declaration.left.toList ++ declaration.right.toList, isVisible c = true := by
  obtain ⟨found, rfl, -, -⟩ := exists_match_of_read? h
  simp only [DeclarationMatch.declaration, String.toList_ofList]
  exact List.forall_mem_append.2 ⟨found.left_isWord.2, found.right_isWord.2⟩

theorem Entry.feed_not_mem_of_mem_ofDump {order : ColumnOrder} {memberPrefix dump : String}
    {entry : Entry} (h : entry ∈ (Entry.ofDump order memberPrefix dump).value) :
    '\n' ∉ entry.member.toList := by
  obtain ⟨declaration, hdeclaration, hentry⟩ := List.mem_filterMap.1 h
  have hvisible := Declaration.form.forall_mem_all Declaration.visible_of_read?
    (unifyLineEnds dump.toList) declaration hdeclaration
  intro hfeed
  cases order with
  | typeFirst =>
      obtain rfl := Option.some.inj hentry
      exact absurd (hvisible _ (List.mem_append_right _ hfeed)) (by decide)
  | memberFirst =>
      simp only [ofDeclaration?, Option.ite_none_right_eq_some, Option.some.injEq] at hentry
      obtain ⟨-, rfl⟩ := hentry
      exact absurd (hvisible _ (List.mem_append_left _ hfeed)) (by decide)

theorem feed_not_mem_of_finalTable {options : Options} (hoptions : options.IsLined)
    {dump pointerType member : String}
    (h : (finalTable options dump).value[pointerType]? = some member) : '\n' ∉ member.toList := by
  rw [value_finalTable] at h
  rcases List.mem_append.1 (MemberMap.mem_of_getElem?_ofEntries h) with hdump | hcorrection
  · exact Entry.feed_not_mem_of_mem_ofDump hdump
  · exact hoptions.corrections _ hcorrection

/-! ## Wrappers -/

theorem feed_not_mem_memberStem (memberPrefix : String) {member : String}
    (h : '\n' ∉ member.toList) : '\n' ∉ memberStem memberPrefix member := by
  rw [memberStem]
  cases hcut : afterBytes? memberPrefix.utf8ByteSize member.toList with
  | none => exact List.not_mem_nil
  | some stem => exact fun hc => h ((afterBytes?_suffix hcut).subset hc)

theorem Signature.isLined_wrapper {options : Options} (hoptions : options.IsLined)
    {signature : Signature} (hsignature : ∀ parameter ∈ signature.parameters, parameter.IsLined)
    {member : String} (hmember : '\n' ∉ member.toList) :
    (signature.wrapper options member).IsLined := by
  refine ⟨?_, hmember, ?_⟩
  · rw [wrapper, String.toList_ofList]
    exact Identifier.feed_not_mem_snakeCase (feed_not_mem_memberStem _ hmember)
  · rw [wrapper, List.forall_mem_map]
    exact fun parameter hparameter => (hsignature parameter hparameter).adapt hoptions

/-- The wrappers that a run makes of its dumps hold no line feed in their names and types. -/
theorem isLined_of_resolved {options : Options} (hoptions : options.IsLined)
    {tableDump signatureDump : String} {wrappers : List Wrapper}
    (h : (resolveAll options (finalTable options tableDump).value
      (Signature.ofDump signatureDump).value).run.value = .ok wrappers) :
    ∀ wrapper ∈ wrappers, wrapper.IsLined := by
  intro wrapper hwrapper
  obtain ⟨signature, hsignature, hbound⟩ := List.mem_map.1 <|
    (map_bound_wrapper_of_resolve_all h).symm ▸ List.mem_map_of_mem (f := some) hwrapper
  obtain ⟨member, hmember, rfl⟩ := Option.map_eq_some_iff.1 hbound
  exact Signature.isLined_wrapper hoptions (Signature.isLined_of_mem_ofDump hsignature)
    (feed_not_mem_of_finalTable hoptions hmember)

end CallTable
