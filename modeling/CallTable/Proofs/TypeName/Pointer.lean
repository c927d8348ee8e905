import CallTable.Generation
import CallTable.Proofs.TypeName
import Mathlib.Data.List.Induction

/-!
# Pointers to listed types

Whether a type is elementary is asked of its whole text: it has to be a listed type or the mutable
pointer of one, with a single blank between the two. A pointer to a listed type that the dump writes
in any other way, with another qualifier, with more of them or with other blanks, passes for a type
of the library. `qualify_pointer` says what becomes of every such pointer, and
`pointer_gains_namespace` shows three to which the namespace is given.
-/

namespace CallTable

open Text

namespace Text

/-- A text that ends in a word has a last word, which ends in it. -/
theorem exists_getLast?_words (text : List Char) {word : List Char} (h : IsWord word) :
    ∃ run, (words (text ++ word)).getLast? = some (run ++ word) := by
  induction text using List.reverseRecOn generalizing word with
  | nil => exact ⟨[], by rw [List.nil_append, words_of_isWord h]; rfl⟩
  | append_singleton text c ih =>
      rw [List.append_assoc, List.singleton_append]
      cases hc : isBlank c with
      | true =>
          exact ⟨[], by rw [words_append_cons _ _ hc, words_of_isWord h, List.getLast?_concat]; rfl⟩
      | false =>
          have hlonger : IsWord (c :: word) :=
            ⟨List.cons_ne_nil c word, List.forall_mem_cons.2 ⟨isBlank_eq_false_iff.1 hc, h.2⟩⟩
          obtain ⟨run, hrun⟩ := ih hlonger
          exact ⟨run ++ [c], by rw [hrun, List.append_assoc, List.singleton_append]⟩

/-- A word at the end of a text is the last of its words exactly if nothing visible stands right
before it. -/
theorem getLast?_words_append_iff (text : List Char) {word : List Char} (h : IsWord word) :
    (words (text ++ word)).getLast? = some word ↔ text.getLast?.all isBlank = true := by
  rcases List.eq_nil_or_concat text with rfl | ⟨front, c, rfl⟩
  · simp [words_of_isWord h]
  · rw [List.concat_eq_append, List.append_assoc, List.singleton_append, List.getLast?_concat,
      Option.all_some]
    cases hc : isBlank c with
    | true => simp [words_append_cons _ _ hc, words_of_isWord h]
    | false =>
        have hlonger : IsWord (c :: word) :=
          ⟨List.cons_ne_nil c word, List.forall_mem_cons.2 ⟨isBlank_eq_false_iff.1 hc, h.2⟩⟩
        obtain ⟨run, hrun⟩ := exists_getLast?_words front hlonger
        have hlength : (run ++ c :: word).length ≠ word.length := by
          simp only [List.length_append, List.length_cons]
          omega
        rw [hrun]
        simpa using fun heq => hlength (congrArg List.length heq)

end Text

/-- A type of a dump that is a listed type behind any number of pointer qualifiers, with any blanks
between them and around the whole. -/
structure PointerType (known : List String) where
  text : String
  qualifiers : List (List Char)
  base : List Char
  words_text : words text.toList = qualifiers ++ [base]
  qualifiers_isQualifier : ∀ qualifier ∈ qualifiers,
    qualifier = "*mut".toList ∨ qualifier = "*const".toList
  base_mem : String.ofList base ∈ known

namespace PointerType

variable {known : List String}

theorem base_isWord (type : PointerType known) : IsWord type.base := by
  have hlast : type.base ∈ words type.text.toList := by simp [type.words_text]
  exact isWord_of_mem_words hlast

/-- The type as a type of the library: the qualifiers and then the base in the namespace, with one
blank between any two of them. -/
def inNamespace (type : PointerType known) (space : String) : String :=
  String.ofList ([' '].intercalate (type.qualifiers ++ [space.toList ++ type.base]))

/-- A pointer whose text is not elementary is written as a type of the library. -/
theorem qualify_of_not_mem (type : PointerType known) (space : String)
    (h : type.text ∉ TypeName.elementary known) :
    TypeName.qualify known space type.text = type.inNamespace space := by
  rw [TypeName.qualify, if_neg h, type.words_text]
  split
  · next hnone => simp at hnone
  · rw [TypeName.qualifyLast_concat, inNamespace]

/-- The last component of a type in the namespace is the base exactly if nothing visible ends the
namespace. -/
theorem getLast?_words_inNamespace (type : PointerType known) (space : String) :
    (words (type.inNamespace space).toList).getLast? = some type.base ↔
      space.toList.getLast?.all isBlank = true := by
  obtain ⟨run, hrun⟩ := exists_getLast?_words space.toList type.base_isWord
  have hlast : (words (type.inNamespace space).toList).getLast? =
      (words (space.toList ++ type.base)).getLast? := by
    rw [inNamespace, String.toList_ofList, words_intercalate_flatMap, List.flatMap_append,
      List.flatMap_singleton, List.getLast?_append, hrun, Option.some_or]
  rw [hlast, getLast?_words_append_iff _ type.base_isWord]

/-- The base itself and its mutable pointer with a single blank are elementary. -/
theorem mem_elementary_of_eq (type : PointerType known)
    (h : type.text = String.ofList type.base ∨ type.text = "*mut " ++ String.ofList type.base) :
    type.text ∈ TypeName.elementary known :=
  TypeName.mem_elementary.2 ⟨String.ofList type.base, type.base_mem, h⟩

/-- If all listed types are words, then no other pointer is elementary. -/
theorem eq_of_mem_elementary (type : PointerType known)
    (hknown : ∀ name ∈ known, IsWord name.toList) (h : type.text ∈ TypeName.elementary known) :
    type.text = String.ofList type.base ∨ type.text = "*mut " ++ String.ofList type.base := by
  obtain ⟨name, hname, htext⟩ := TypeName.mem_elementary.1 h
  have hname : IsWord name.toList := hknown name hname
  -- Either way the name is the last word, and the base is that word.
  have hlast : (words type.text.toList).getLast? = some name.toList := by
    rcases htext with htext | htext
    · rw [htext, words_of_isWord hname, List.getLast?_singleton]
    · have hsplit : type.text.toList = "*mut".toList ++ ' ' :: name.toList := by
        rw [htext, String.toList_append]
        rfl
      rw [hsplit, words_append_cons _ _ (by decide), words_of_isWord hname, List.getLast?_concat]
  rw [type.words_text, List.getLast?_concat] at hlast
  rwa [Option.some.inj hlast, String.ofList_toList]

end PointerType

/-- What becomes of a pointer to a listed type is decided by its whole text. If that is a listed
type or `*mut`, one blank and a listed type, then it stays as it is, and its last component is its
base. Otherwise it passes for a type of the library: it is written with single blanks, all
qualifiers are kept and the namespace is put before the base, so that the base is no longer the last
component, unless the namespace is empty or ends in a blank. The base alone and `*mut`, one blank
and the base are elementary, and no other pointer is if all listed types are words. -/
theorem qualify_pointer {known : List String} (type : PointerType known) (space : String) :
    let isElementary := type.text ∈ TypeName.elementary known
    let isDirect := type.text = String.ofList type.base ∨
      type.text = "*mut " ++ String.ofList type.base
    let qualified := TypeName.qualify known space type.text
    (isElementary → qualified = type.text) ∧
      (¬ isElementary → qualified = type.inNamespace space) ∧
      ((words qualified.toList).getLast? = some type.base ↔
        isElementary ∨ space.toList.getLast?.all isBlank = true) ∧
      (isDirect → isElementary) ∧
      ((∀ name ∈ known, IsWord name.toList) → isElementary → isDirect) := by
  intro isElementary isDirect qualified
  have hstays : isElementary → qualified = type.text := fun h => if_pos h
  have hgains : ¬ isElementary → qualified = type.inNamespace space := type.qualify_of_not_mem space
  refine ⟨hstays, hgains, ?_, type.mem_elementary_of_eq, type.eq_of_mem_elementary⟩
  by_cases h : isElementary
  · rw [hstays h, type.words_text, List.getLast?_concat]
    simp [h]
  · rw [hgains h, type.getLast?_words_inNamespace space]
    simp [h]

/-- A pointer to a constant integer, one to a pointer, and one with a second blank. -/
def samplePointers : List (PointerType Options.standard.known) :=
  [⟨"*const u32", ["*const".toList], "u32".toList, by decide, by decide, by decide⟩,
    ⟨"*mut *mut u32", ["*mut".toList, "*mut".toList], "u32".toList, by decide, by decide,
      by decide⟩,
    ⟨"*mut  u32", ["*mut".toList], "u32".toList, by decide, by decide, by decide⟩]

/-- All three pass for types of the library, although their base is listed, so the last component
that a wrapper writes is not the base. -/
theorem pointer_gains_namespace :
    let space := Options.standard.typeNamespace
    let qualified := samplePointers.map fun type =>
      TypeName.qualify Options.standard.known space type.text
    space ≠ "" ∧
      qualified = ["*const crate::sys::u32", "*mut *mut crate::sys::u32", "*mut crate::sys::u32"] ∧
      ∀ type ∈ samplePointers,
        let qualified := TypeName.qualify Options.standard.known space type.text
        (words qualified.toList).getLast? = some "crate::sys::u32".toList ∧
          (words qualified.toList).getLast? ≠ some type.base := by
  intro space qualified
  have hqualified : qualified =
      ["*const crate::sys::u32", "*mut *mut crate::sys::u32", "*mut crate::sys::u32"] := by
    decide +kernel
  exact ⟨by decide, hqualified, by decide +kernel⟩

/-- With the standard options, a pointer to a pointer between many blanks is written with single
blanks and the namespace. -/
theorem qualify_spaced_pointer :
    let type : PointerType Options.standard.known :=
      ⟨"\t*mut   *const u64 ", ["*mut".toList, "*const".toList], "u64".toList, by decide, by decide,
        by decide⟩
    type.text ∉ TypeName.elementary Options.standard.known ∧
      TypeName.qualify Options.standard.known Options.standard.typeNamespace type.text =
        "*mut *const crate::sys::u64" := by
  intro type
  have hnot : type.text ∉ TypeName.elementary Options.standard.known := by decide +kernel
  obtain ⟨-, hgains, -⟩ := qualify_pointer type Options.standard.typeNamespace
  exact ⟨hnot, (hgains hnot).trans (by decide +kernel)⟩

end CallTable
