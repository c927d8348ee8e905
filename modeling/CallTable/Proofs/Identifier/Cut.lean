import CallTable.Proofs.Identifier

/-!
# Names cut at `UID`

A name can be cut at every `UID` in it, into gaps that hold none. No two places of `UID` overlap, so
there is one such cut, whatever the order in which the places are found. The name with every `UID`
in lowercase is made of the same gaps with `uid` between them.
-/

namespace CallTable.Identifier

open Text

/-- The gaps are what is left of a name that is cut at every `UID`: none of them holds one, and with
`UID` between them they are the name. -/
structure IsUidCut (name : List Char) (gaps : List (List Char)) : Prop where
  gaps_ne_nil : gaps ≠ []
  lacks_uid : ∀ gap ∈ gaps, ¬ "UID".toList <:+: gap
  intercalate_eq : "UID".toList.intercalate gaps = name

/-- A character before the first of several parts stands before all of them. -/
theorem intercalate_cons_head (separator : List Char) (c : Char) (first : List Char)
    (parts : List (List Char)) :
    separator.intercalate ((c :: first) :: parts) =
      c :: separator.intercalate (first :: parts) := by
  cases parts with
  | nil => simp
  | cons second parts => simp [List.intercalate_cons_cons]

/-- What follows the first gap is nothing, or `UID` and a text of which the others are the gaps. -/
theorem IsUidCut.exists_rest {name gap : List Char} {gaps : List (List Char)}
    (h : IsUidCut name (gap :: gaps)) :
    ∃ rest, name = gap ++ rest ∧
      (gaps = [] ∧ rest = [] ∨ ∃ more, rest = "UID".toList ++ more ∧ IsUidCut more gaps) := by
  obtain ⟨-, hlacks, rfl⟩ := h
  cases gaps with
  | nil => exact ⟨[], by simp, .inl ⟨rfl, rfl⟩⟩
  | cons second gaps =>
      have hothers := fun other hother => hlacks other (List.mem_cons_of_mem _ hother)
      refine ⟨_, ?_, .inr ⟨_, rfl, List.cons_ne_nil _ _, hothers, rfl⟩⟩
      rw [List.intercalate_cons_cons, List.append_assoc]

/-! ## There is one cut -/

/-- Where a gap ends, at the end of the text or before a `UID`, a longer gap cannot go on to another
such place: no `UID` begins inside another one, and no gap holds one. -/
theorem eq_nil_of_append_eq {longer rest more : List Char} (hlacks : ¬ "UID".toList <:+: longer)
    (hrest : rest = [] ∨ "UID".toList <+: rest) (hmore : more = [] ∨ "UID".toList <+: more)
    (h : rest = longer ++ more) : longer = [] := by
  subst h
  have hhead : ∀ c ∈ more.head?, c = 'U' := by
    rcases hmore with rfl | ⟨tail, rfl⟩ <;> simp
  rcases hrest with hnone | ⟨tail, htail⟩
  · exact (List.append_eq_nil_iff.1 hnone).1
  · rcases longer with - | ⟨c, - | ⟨d, - | ⟨e, longer⟩⟩⟩
    · rfl
    · obtain ⟨-, rfl⟩ := List.cons.inj htail
      exact absurd (hhead 'I' rfl) (by decide)
    · obtain ⟨-, htail⟩ := List.cons.inj htail
      obtain ⟨-, rfl⟩ := List.cons.inj htail
      exact absurd (hhead 'D' rfl) (by decide)
    · have hsplit : "UID".toList ++ tail = [c, d, e] ++ (longer ++ more) := htail
      have hstart := (List.append_inj hsplit rfl).1
      exact absurd ⟨[], longer, by rw [hstart]; rfl⟩ hlacks

/-- A name has one cut. -/
theorem IsUidCut.unique {name : List Char} {gaps others : List (List Char)}
    (h : IsUidCut name gaps) (hothers : IsUidCut name others) : gaps = others := by
  induction gaps generalizing name others with
  | nil => exact absurd rfl h.gaps_ne_nil
  | cons gap gaps ih =>
      obtain ⟨other, others, rfl⟩ := List.exists_cons_of_ne_nil hothers.gaps_ne_nil
      obtain ⟨rest, rfl, hrest⟩ := h.exists_rest
      obtain ⟨more, hname, hmore⟩ := hothers.exists_rest
      have hgap := h.lacks_uid gap List.mem_cons_self
      have hother := hothers.lacks_uid other List.mem_cons_self
      have hstop : rest = [] ∨ "UID".toList <+: rest :=
        hrest.imp And.right fun ⟨tail, htail, _⟩ => ⟨tail, htail.symm⟩
      have hstop' : more = [] ∨ "UID".toList <+: more :=
        hmore.imp And.right fun ⟨tail, htail, _⟩ => ⟨tail, htail.symm⟩
      have hsame : gap = other := by
        rcases List.append_eq_append_iff.1 hname with ⟨longer, rfl, heq⟩ | ⟨longer, rfl, heq⟩
        · rw [eq_nil_of_append_eq (fun hin => hother (hin.trans (List.suffix_append _ _).isInfix))
            hstop hstop' heq, List.append_nil]
        · rw [eq_nil_of_append_eq (fun hin => hgap (hin.trans (List.suffix_append _ _).isInfix))
            hstop' hstop heq, List.append_nil]
      subst hsame
      obtain rfl : rest = more := List.append_cancel_left hname
      rcases hrest with ⟨rfl, rfl⟩ | ⟨tail, rfl, htail⟩
      · rcases hmore with ⟨rfl, -⟩ | ⟨tail, htail, -⟩
        · rfl
        · cases htail
      · rcases hmore with ⟨-, hnone⟩ | ⟨tail', heq, htail'⟩
        · cases hnone
        · obtain rfl : tail = tail' := List.append_cancel_left heq
          rw [ih htail htail']

/-! ## Every name has a cut -/

/-- A character at which no `UID` begins belongs to the first gap. -/
theorem IsUidCut.cons {c : Char} {name gap : List Char} {gaps : List (List Char)}
    (hbegins : ¬ "UID".toList <+: c :: name) (h : IsUidCut name (gap :: gaps)) :
    IsUidCut (c :: name) ((c :: gap) :: gaps) := by
  obtain ⟨hgap, hgaps⟩ := List.forall_mem_cons.1 h.lacks_uid
  obtain ⟨rest, hname, -⟩ := h.exists_rest
  refine ⟨List.cons_ne_nil _ _, List.forall_mem_cons.2 ⟨fun hin => ?_, hgaps⟩, ?_⟩
  · rcases List.infix_cons_iff.1 hin with hstart | hin
    · rw [hname, ← List.cons_append] at hbegins
      exact hbegins (hstart.trans (List.prefix_append _ _))
    · exact hgap hin
  · rw [intercalate_cons_head, h.intercalate_eq]

/-- A name is cut, and what it is respelled as is made of the same gaps. -/
theorem exists_isUidCut (name : List Char) :
    ∃ gaps, IsUidCut name gaps ∧ lowerUid name = "uid".toList.intercalate gaps := by
  fun_induction lowerUid name with
  | case1 => exact ⟨[[]], ⟨by decide, by decide, rfl⟩, rfl⟩
  | case2 rest ih =>
      obtain ⟨gaps, hcut, hrest⟩ := ih
      obtain ⟨gap, gaps, rfl⟩ := List.exists_cons_of_ne_nil hcut.gaps_ne_nil
      refine ⟨[] :: gap :: gaps, ⟨by simp, ?_, ?_⟩, ?_⟩
      · exact List.forall_mem_cons.2 ⟨by decide, hcut.lacks_uid⟩
      · rw [List.intercalate_cons_cons, hcut.intercalate_eq]
        rfl
      · rw [List.intercalate_cons_cons, ← hrest]
        rfl
  | case3 c rest hne ih =>
      obtain ⟨gaps, hcut, hrest⟩ := ih
      obtain ⟨gap, gaps, rfl⟩ := List.exists_cons_of_ne_nil hcut.gaps_ne_nil
      have hbegins : ¬ "UID".toList <+: c :: rest := by
        rintro ⟨tail, htail⟩
        obtain ⟨rfl, rfl⟩ := List.cons.inj htail
        exact hne tail rfl rfl
      exact ⟨_, hcut.cons hbegins, by rw [hrest, intercalate_cons_head]⟩

/-- A name has exactly one cut, and what it is respelled as is made of the same gaps. -/
theorem exists_cut_lowerUid (name : List Char) :
    ∃ gaps, (∀ cut, IsUidCut name cut ↔ cut = gaps) ∧
      lowerUid name = "uid".toList.intercalate gaps := by
  obtain ⟨gaps, hcut, hspell⟩ := exists_isUidCut name
  refine ⟨gaps, fun cut => ⟨fun h => h.unique hcut, ?_⟩, hspell⟩
  rintro rfl
  exact hcut

end CallTable.Identifier
