import CallTable.TypeName

/-!
# Types of a dump

A type is elementary, or it is a type of the library, which is written as components with one blank
between any two of them. `DeclaredType` holds either form, and `DeclaredType.qualify_text` says that
the first stays and the second gains the namespace at its last component.
-/

namespace CallTable

open Text

/-- The text is a listed type or the mutable pointer of one. -/
def IsListed (known : List String) (text : List Char) : Prop :=
  ∃ name ∈ known, text = name.toList ∨ text = "*mut ".toList ++ name.toList

instance (known : List String) (text : List Char) : Decidable (IsListed known text) :=
  inferInstanceAs (Decidable (∃ name ∈ known, _))

/-- The listed types and their mutable pointers are the elementary types. -/
theorem mem_elementary_iff_isListed {known : List String} {text : List Char} :
    String.ofList text ∈ TypeName.elementary known ↔ IsListed known text := by
  simp [TypeName.mem_elementary, IsListed, ← String.toList_inj]

/-- A type as it is declared: an elementary one, or any number of components before the base of a
type of the library. -/
inductive DeclaredType (known : List String) where
  | elementary (text : List Char) (isListed : IsListed known text)
  | library (components : List (List Char)) (base : List Char)
      (components_isWord : ∀ component ∈ components, IsWord component) (base_isWord : IsWord base)
      (not_isListed : ¬ IsListed known ([' '].intercalate (components ++ [base])))

namespace DeclaredType

variable {known : List String}

/-- The type as the dump writes it. -/
def text : DeclaredType known → List Char
  | elementary text _ => text
  | library components base .. => [' '].intercalate (components ++ [base])

/-- The type as a wrapper writes it. -/
def qualified (space : List Char) : DeclaredType known → List Char
  | elementary text _ => text
  | library components base .. => [' '].intercalate (components ++ [space ++ base])

end DeclaredType

namespace TypeName

/-- The namespace goes before the last component. -/
theorem qualifyLast_concat (space : List Char) (components : List (List Char))
    (base : List Char) :
    qualifyLast space (components ++ [base]) = components ++ [space ++ base] := by
  induction components with
  | nil => rfl
  | cons component components ih =>
      rw [List.cons_append, qualifyLast, ih, List.cons_append]
      exact fun h => absurd h (by simp)

end TypeName

/-- A wrapper writes an elementary type as it is, and a type of the library with its namespace. -/
theorem DeclaredType.qualify_text {known : List String} (type : DeclaredType known)
    (space : String) :
    TypeName.qualify known space (String.ofList type.text) =
      String.ofList (type.qualified space.toList) := by
  cases type with
  | elementary text hlisted => exact if_pos (mem_elementary_iff_isListed.2 hlisted)
  | library components base hcomponents hbase hnot =>
      rw [← mem_elementary_iff_isListed] at hnot
      have hall : ∀ component ∈ components ++ [base], IsWord component := by
        simpa [or_imp, forall_and] using ⟨hcomponents, hbase⟩
      rw [TypeName.qualify, text, if_neg hnot, String.toList_ofList, words_intercalate hall]
      split
      · next hnone => simp at hnone
      · rw [TypeName.qualifyLast_concat]
        rfl

end CallTable
