import CallTable.Proofs.Identifier.Position
import CallTable.Proofs.Wrapper.Origin

/-!
# Names that stay apart

The words of a name are found again in what it is respelled as, so names with different words are
respelled differently. `names_agree_iff` says what follows for a run whose names are made of tokens:
two wrappers, or two parameters of one wrapper, have the same name only if the names that they are
made of differ in nothing but the case of their letters. In particular neither the respelling of
`UID` nor the place where one token ends and the next one starts makes two names the same.
-/

namespace CallTable

/-! ## Respelling -/

namespace Identifier

/-- Names that have words are respelled alike exactly if they have the same words. -/
theorem snakeCase_eq_snakeCase_iff {name other : List Char} (h : words name ≠ [])
    (hother : words other ≠ []) : snakeCase name = snakeCase other ↔ words name = words other := by
  constructor
  · intro hsame
    calc
      words name = words (snakeCase name) := (words_snakeCase h).symm
      _ = words (snakeCase other) := congrArg words hsame
      _ = words other := words_snakeCase hother
  · intro hsame
    rw [snakeCase_of_words h, snakeCase_of_words hother, hsame]

/-- A name that has a word is not respelled as nothing. -/
theorem snakeCase_ne_nil {name : List Char} (h : words name ≠ []) : snakeCase name ≠ [] := by
  intro hnone
  have hwords := words_snakeCase h
  rw [hnone, words, lowerUid, Text.Form.all] at hwords
  exact h hwords.symm

namespace MixedName

/-- The parts of the two names are the same but for the case of their letters. -/
def AgreesWith (name other : MixedName) : Prop :=
  name.parts.map (·.map Char.toLower) = other.parts.map (·.map Char.toLower)

instance (name other : MixedName) : Decidable (name.AgreesWith other) :=
  inferInstanceAs (Decidable (_ = _))

/-- The name has at least one part and is written as the text. -/
structure Spells (name : MixedName) (text : List Char) : Prop where
  parts_ne_nil : name.parts ≠ []
  text_eq : name.text = text

variable {name other : MixedName} {text otherText : List Char}

theorem Spells.words_eq (h : name.Spells text) :
    words text = name.parts.map (·.map Char.toLower) := by
  rw [← h.text_eq, words_text]

theorem Spells.words_ne_nil (h : name.Spells text) : words text ≠ [] := by
  rw [h.words_eq]
  exact fun hnone => h.parts_ne_nil (List.map_eq_nil_iff.1 hnone)

/-- Names in mixed case are respelled alike exactly if they agree up to the case of their
letters. -/
theorem Spells.snakeCase_eq_iff (h : name.Spells text) (hother : other.Spells otherText) :
    snakeCase text = snakeCase otherText ↔ name.AgreesWith other := by
  rw [snakeCase_eq_snakeCase_iff h.words_ne_nil hother.words_ne_nil, h.words_eq, hother.words_eq,
    AgreesWith]

end MixedName

end Identifier

open Identifier

/-! ## The names of a run -/

/-- The member is the common start of all members and the stem, which is one token or more. -/
structure Options.IsMember (options : Options) (stem : MixedName) (member : String) : Prop where
  lead_eq_nil : stem.lead = []
  tokens_ne_nil : stem.tokens ≠ []
  member_eq : member = options.memberPrefix ++ String.ofList stem.text

/-- The members that a run uses and the names of all parameters are made of tokens. -/
structure MadeOfTokens (options : Options) (map : MemberMap) (signatures : List Signature) :
    Prop where
  exists_stem : ∀ signature ∈ signatures, ∀ member, map[signature.pointerType]? = some member →
    ∃ stem, options.IsMember stem member
  exists_name : ∀ signature ∈ signatures, ∀ parameter ∈ signature.parameters,
    ∃ name : MixedName, name.Spells parameter.name.toList

variable {options : Options} {map : MemberMap} {signatures : List Signature}

/-- The stem is what the run respells as the name of a wrapper. -/
theorem Options.IsMember.spells {stem : MixedName} {member : String}
    (h : options.IsMember stem member) : stem.Spells (memberStem options.memberPrefix member) where
  parts_ne_nil := by
    rw [MixedName.parts, if_pos h.lead_eq_nil]
    exact h.tokens_ne_nil
  text_eq := by rw [h.member_eq, memberStem_append]

/-- Parameters whose names are made of tokens are adapted to the same name exactly if their names
agree. -/
theorem Parameter.name_adapt_eq_iff {first second : Parameter} {name other : MixedName}
    (h : name.Spells first.name.toList) (hother : other.Spells second.name.toList) :
    (first.adapt options).name = (second.adapt options).name ↔ name.AgreesWith other := by
  rw [← h.snakeCase_eq_iff hother]
  exact String.ofList_inj

theorem Parameter.name_adapt_ne_empty {parameter : Parameter} {name : MixedName}
    (h : name.Spells parameter.name.toList) : (parameter.adapt options).name ≠ "" :=
  fun hempty => snakeCase_ne_nil h.words_ne_nil (String.ofList_eq_empty_iff.1 hempty)

/-- Wrappers whose members are made of tokens have the same name exactly if the stems of their
members agree. -/
theorem Signature.name_wrapper_eq_iff {first second : Signature} {member otherMember : String}
    {stem otherStem : MixedName} (h : options.IsMember stem member)
    (hother : options.IsMember otherStem otherMember) :
    (first.wrapper options member).name = (second.wrapper options otherMember).name ↔
      stem.AgreesWith otherStem := by
  rw [← h.spells.snakeCase_eq_iff hother.spells]
  exact String.ofList_inj

theorem Signature.name_wrapper_ne_empty {signature : Signature} {member : String}
    {stem : MixedName} (h : options.IsMember stem member) :
    (signature.wrapper options member).name ≠ "" :=
  fun hempty => snakeCase_ne_nil h.spells.words_ne_nil (String.ofList_eq_empty_iff.1 hempty)

/-! ## The names of declared functions -/

/-- The member of a declared function is made of tokens. -/
theorem DeclaredFunction.isMember (function : DeclaredFunction options) :
    options.IsMember function.stem function.entry.member :=
  ⟨rfl, function.tokens_ne_nil, rfl⟩

/-- The members of declared functions and the names of their parameters are made of tokens. -/
theorem DeclaredFunction.madeOfTokens {functions : List (DeclaredFunction options)}
    (h : ∀ function ∈ functions, map[function.entry.pointerType]? = some function.entry.member) :
    MadeOfTokens options map (functions.map signature) where
  exists_stem := by
    refine List.forall_mem_map.2 fun function hfunction member hmember => ⟨function.stem, ?_⟩
    have hsame := (h function hfunction).symm.trans hmember
    rw [← Option.some.inj hsame]
    exact function.isMember
  exists_name := by
    refine List.forall_mem_map.2 fun function _ => List.forall_mem_map.2 fun parameter _ => ?_
    exact ⟨parameter.name, parameter.parts_ne_nil, String.toList_ofList.symm⟩

/-! ## The main result -/

/-- A run that ended well and whose names are made of tokens wrote one wrapper for each signature.
Two of its wrappers have the same name exactly if the stems of their members agree up to the case
of their letters. Two parameters of a wrapper have the same name exactly if the names that they are
made of agree in that way. No name is empty. -/
theorem names_agree_iff {tableDump signatureDump : String} {sink : Sink} {report : Report}
    (hended : (generate options tableDump signatureDump sink).value.1 = .ok report)
    (htokens : MadeOfTokens options (finalTable options tableDump).value
      (Signature.ofDump signatureDump).value) :
    let signatures := (Signature.ofDump signatureDump).value
    let pairs := wrapped options (finalTable options tableDump).value signatures
    (generate options tableDump signatureDump sink).value.2.written =
        sink.written ++ (renderAll (pairs.map (·.2))).toUTF8 ∧
      pairs.map (·.1) = signatures ∧
      (∀ first ∈ pairs, ∀ second ∈ pairs, ∀ stem otherStem,
        options.IsMember stem first.2.member → options.IsMember otherStem second.2.member →
          (first.2.name = second.2.name ↔ stem.AgreesWith otherStem)) ∧
      (∀ pair ∈ pairs, pair.2.parameters = pair.1.parameters.map (·.adapt options) ∧
        ∀ first ∈ pair.1.parameters, ∀ second ∈ pair.1.parameters, ∀ name other : MixedName,
          name.Spells first.name.toList → other.Spells second.name.toList →
            ((first.adapt options).name = (second.adapt options).name ↔
              name.AgreesWith other)) ∧
      (∀ pair ∈ pairs, pair.2.name ≠ "" ∧ ∀ parameter ∈ pair.2.parameters,
        parameter.name ≠ "") := by
  intro signatures pairs
  obtain ⟨hmem, hwritten, -⟩ := bound_of_generate_ok hended
  have hparameters : ∀ pair ∈ pairs,
      pair.2.parameters = pair.1.parameters.map (·.adapt options) := by
    intro pair hpair
    rw [(bound_of_mem_wrapped hpair).2]
    rfl
  refine ⟨?_, map_fst_wrapped options hmem, ?_, ?_, ?_⟩
  · rw [map_snd_wrapped]
    exact hwritten
  · intro first hfirst second hsecond stem otherStem hstem hother
    rw [(bound_of_mem_wrapped hfirst).2, (bound_of_mem_wrapped hsecond).2]
    exact Signature.name_wrapper_eq_iff hstem hother
  · intro pair hpair
    refine ⟨hparameters pair hpair, ?_⟩
    intro first _ second _ name other hname hother
    exact Parameter.name_adapt_eq_iff hname hother
  · intro pair hpair
    obtain ⟨hsignature, -⟩ := mem_wrapped_iff.1 hpair
    obtain ⟨hmember, hwrapper⟩ := bound_of_mem_wrapped hpair
    refine ⟨?_, ?_⟩
    · obtain ⟨stem, hstem⟩ := htokens.exists_stem pair.1 hsignature _ hmember
      rw [hwrapper]
      exact Signature.name_wrapper_ne_empty hstem
    · rw [hparameters pair hpair]
      refine List.forall_mem_map.2 fun parameter hparameter => ?_
      obtain ⟨name, hname⟩ := htokens.exists_name pair.1 hsignature parameter hparameter
      exact Parameter.name_adapt_ne_empty hname

/-- The members of the two functions differ in more than the case of their letters, so their
wrappers differ in their names. -/
theorem sample_names_differ :
    let pairs := wrapped .standard (finalTable .standard sampleTable).value
      (Signature.ofDump sampleDump).value
    (generate .standard sampleTable sampleDump .unlimited).value.1 =
        .ok ⟨2, (finalTable .standard sampleTable).value.size, []⟩ ∧
      pairs.length = 2 ∧
      ∀ first ∈ pairs, ∀ second ∈ pairs, first.2.name = second.2.name → first = second := by
  intro pairs
  have hpairs : pairs = _ := wrapped_sampleDump
  have htokens : MadeOfTokens .standard (finalTable .standard sampleTable).value
      (Signature.ofDump sampleDump).value := by
    rw [sampleDump, DeclaredFunction.value_ofDump_signatureDump]
    exact DeclaredFunction.madeOfTokens getElem?_sampleTable
  obtain ⟨-, -, hnames, -, -⟩ := names_agree_iff generate_sampleDump htokens
  have happart : ∀ function ∈ sampleFunctions, ∀ other ∈ sampleFunctions,
      function.stem.AgreesWith other.stem →
        (function.signature, function.wrapper) = (other.signature, other.wrapper) := by
    decide +kernel
  refine ⟨generate_sampleDump, by rw [hpairs]; rfl, ?_⟩
  intro first hfirst second hsecond hsame
  have hagree := hnames first hfirst second hsecond
  rw [hpairs] at hfirst hsecond
  obtain ⟨function, hfunction, rfl⟩ := List.mem_map.1 hfirst
  obtain ⟨other, hother, rfl⟩ := List.mem_map.1 hsecond
  exact happart function hfunction other hother
    ((hagree _ _ function.isMember other.isMember).1 hsame)

end CallTable
