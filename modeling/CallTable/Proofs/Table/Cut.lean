import CallTable.Proofs.Table.Match

/-!
# What a table dump declares

Any text, well-formed or not, can be cut into matches of declarations and what stands between them,
so that no declaration is left in a part between two matches and no match could have been longer.
`exists_isCut` says that the search takes a text apart in this way, and `all_of_isCut` that there is
no other way: whoever cuts a text so finds what the search finds. The main result,
`value_ofDump_cut`, says it of dumps and their entries, with the columns in either order.
-/

namespace CallTable

open Text

/-- No declaration stands anywhere in the text. -/
def LacksDeclarations (text : List Char) : Prop :=
  ∀ found : DeclarationMatch, ¬ found.text <:+: text

/-- The text is cut into matches, in order and without overlap: a gap without declarations, a match
that no comma follows in the run of its second column, and the rest cut in the same way. -/
inductive IsCut : List Char → List DeclarationMatch → Prop where
  | last {gap : List Char} (lacks : LacksDeclarations gap) : IsCut gap []
  | next {gap rest : List Char} (found : DeclarationMatch) {further : List DeclarationMatch}
      (lacks : LacksDeclarations gap) (longest : ',' ∉ rest.takeWhile isVisible)
      (isCut : IsCut rest further) : IsCut (gap ++ (found.text ++ rest)) (found :: further)

namespace LacksDeclarations

theorem nil : LacksDeclarations [] := by
  intro found h
  have hempty := List.infix_nil.1 h
  rw [found.text_eq_cons] at hempty
  exact List.cons_ne_nil _ _ hempty

/-- A character joins a gap if no declaration is read where it stands. -/
theorem cons {c : Char} {gap rest : List Char} (h : LacksDeclarations gap)
    (hread : Declaration.read? (c :: (gap ++ rest)) = none) : LacksDeclarations (c :: gap) := by
  intro found hfound
  rcases List.infix_cons_iff.1 hfound with hbegins | hinside
  · exact Declaration.read?_eq_none_iff.1 hread found
      (hbegins.trans (List.prefix_append (c :: gap) rest))
  · exact h found hinside

/-- Inside a gap nothing is read, also not with the next match behind it. -/
theorem read?_eq_none {gap tail rest : List Char} (h : LacksDeclarations gap) (htail : tail <:+ gap)
    (hne : tail ≠ []) (found : DeclarationMatch) :
    Declaration.read? (tail ++ (found.text ++ rest)) = none := by
  refine Declaration.read?_eq_none_iff.2 fun other hother => ?_
  have hends : other.text <+: tail := other.prefix_of_prefix_append found hne hother
  exact h other (hends.isInfix.trans htail.isInfix)

end LacksDeclarations

namespace Declaration

/-- A character at which no declaration is read joins the first gap. -/
theorem isCut_cons {c : Char} {text : List Char} {found : List DeclarationMatch}
    (hread : read? (c :: text) = none) (h : IsCut text found) : IsCut (c :: text) found := by
  cases h with
  | last lacks =>
      rw [← List.append_nil text] at hread
      exact .last (lacks.cons hread)
  | next first lacks longest further => exact .next first (lacks.cons hread) longest further

/-- The search cuts a text, and what it finds are the matches. -/
theorem exists_isCut (text : List Char) :
    ∃ found, IsCut text found ∧ form.all text = found.map DeclarationMatch.declaration := by
  refine form.all_induction (motive := fun text all =>
    ∃ found, IsCut text found ∧ all = found.map DeclarationMatch.declaration) ?_ ?_ ?_ text
  · exact ⟨[], .last .nil, rfl⟩
  · intro text rest declaration hread ih
    obtain ⟨first, rfl, rfl, hlongest⟩ := exists_match_of_read? hread
    obtain ⟨found, hcut, hall⟩ := ih
    exact ⟨first :: found, .next first .nil hlongest hcut, by rw [hall, List.map_cons]⟩
  · intro c text hread ih
    obtain ⟨found, hcut, hall⟩ := ih
    exact ⟨found, isCut_cons hread hcut, hall⟩

/-- However a text is cut, the search finds the matches. -/
theorem all_of_isCut {text : List Char} {found : List DeclarationMatch} (h : IsCut text found) :
    form.all text = found.map DeclarationMatch.declaration := by
  induction h with
  | @last gap lacks =>
      have hnone : form.all (gap ++ []) = form.all [] := by
        refine form.all_append_of_none fun tail htail _ => read?_eq_none_iff.2 fun found hfound => ?_
        rw [List.append_nil] at hfound
        exact lacks found (hfound.isInfix.trans htail.isInfix)
      rw [← List.append_nil gap, hnone, Form.all, List.map_nil]
  | next found lacks longest _ ih =>
      rw [form.all_append_of_none fun tail htail hne => lacks.read?_eq_none htail hne found,
        form.all_of_some (read?_text_append found longest), ih, List.map_cons]

/-- The declarations of a dump are the matches into which it is cut. -/
theorem ofDump_of_isCut {dump : String} {found : List DeclarationMatch}
    (h : IsCut (unifyLineEnds dump.toList) found) :
    ofDump dump = found.map DeclarationMatch.declaration :=
  all_of_isCut h

end Declaration

namespace Entry

/-- Any dump, its line ends unified, is cut into matches of declarations. With pointer types first
its entries are all of them, in order; with members first they are those whose left column carries
the common start of all members. However else the dump is cut, the same declarations are found. -/
theorem value_ofDump_cut (memberPrefix dump : String) :
    ∃ found : List DeclarationMatch, IsCut (unifyLineEnds dump.toList) found ∧
      (ofDump .typeFirst memberPrefix dump).value =
        found.map (fun place => ⟨String.ofList place.left, String.ofList place.right⟩) ∧
      (ofDump .memberFirst memberPrefix dump).value =
        (found.filter fun place => memberPrefix.toList.isPrefixOf place.left).map
          (fun place => ⟨String.ofList place.right, String.ofList place.left⟩) ∧
      ∀ other, IsCut (unifyLineEnds dump.toList) other →
        other.map DeclarationMatch.declaration = found.map DeclarationMatch.declaration := by
  obtain ⟨found, hcut, -⟩ := Declaration.exists_isCut (unifyLineEnds dump.toList)
  have hdump := Declaration.ofDump_of_isCut hcut
  refine ⟨found, hcut, ?_, ?_, fun other hother => ?_⟩
  · rw [value_ofDump, filterMap_typeFirst, hdump, List.map_map]
    rfl
  · rw [value_ofDump, filterMap_memberFirst, hdump, List.filter_map, List.map_map]
    simp only [Function.comp_def, DeclarationMatch.declaration, String.toList_ofList]
  · rw [← hdump, Declaration.ofDump_of_isCut hother]

end Entry

end CallTable
