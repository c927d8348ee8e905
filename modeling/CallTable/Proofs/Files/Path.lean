import CallTable.Files.Path

/-!
# Paths seen from one directory after another

A relative path is put behind the lead of the path from which it is seen, and the lead of a joined
path is made of the leads of its parts, so joining is associative on the texts: `join_assoc`. Hence
a path that is seen from one base after another is seen from all of them joined, the last one first
(`seenFrom_eq_join`). The first absolute path on that way hides what the later bases would add.
-/

namespace CallTable.Path

/-- The text that a relative path is put behind where it is seen from the path. -/
def lead (path : Path) : String :=
  if path.text = "" ∨ path.text.toList.getLast? = some '/' then path.text else path.text ++ "/"

/-- Paths joined from left to right. -/
def joinAll (paths : List Path) : Path :=
  paths.foldl join ⟨""⟩

/-- The path as seen from the first base, what that gives as seen from the second, and so on. -/
def seenFrom (path : Path) (bases : List Path) : Path :=
  bases.foldl (fun path base => base.join path) path

/-! ## Joining two and three paths -/

/-- A relative path is put behind the lead of the path from which it is seen. -/
theorem join_of_not_isAbsolute (left : Path) {right : Path} (h : right.isAbsolute = false) :
    left.join right = ⟨left.lead ++ right.text⟩ := by
  rw [join, lead, if_neg (by simp [h])]
  split <;> rfl

/-- A lead is empty or ends in a slash, so it is its own lead. -/
theorem lead_lead (path : Path) : lead ⟨path.lead⟩ = path.lead := by
  have hends : path.lead = "" ∨ path.lead.toList.getLast? = some '/' := by
    rw [lead]
    split
    · assumption
    · exact Or.inr (by simp)
  exact if_pos hends

/-- A path ends as its last part does, so its lead has a slash behind it where that of the part
has. -/
theorem lead_append (front : String) {path : Path} (h : path.text ≠ "") :
    lead ⟨front ++ path.text⟩ = front ++ path.lead := by
  have hlast : (front ++ path.text).toList.getLast? = path.text.toList.getLast? := by
    obtain ⟨last, hlast⟩ := Option.ne_none_iff_exists'.1
      (mt List.getLast?_eq_none_iff.1 (mt String.toList_eq_nil_iff.1 h))
    rw [String.toList_append, List.getLast?_append, hlast, Option.some_or]
  have hne : front ++ path.text ≠ "" := fun hempty => h (String.append_eq_empty_iff.1 hempty).2
  simp only [lead, hlast, hne, h, false_or]
  split
  · rfl
  · exact String.append_assoc

/-- The lead of a joined path is the leads of its parts, one behind the other. -/
theorem lead_join (left : Path) {right : Path} (h : right.isAbsolute = false) :
    (left.join right).lead = left.lead ++ right.lead := by
  rw [join_of_not_isAbsolute left h]
  by_cases hempty : right.text = ""
  · have hlead : right.lead = "" := by rw [lead, if_pos (Or.inl hempty), hempty]
    rw [hempty, hlead, String.append_empty, lead_lead]
  · exact lead_append left.lead hempty

/-- Three paths give the same text whichever two of them are joined first. -/
theorem join_assoc (first second third : Path) :
    (first.join second).join third = first.join (second.join third) := by
  cases hthird : third.isAbsolute with
  | true =>
      rw [join_of_isAbsolute _ hthird, join_of_isAbsolute _ hthird, join_of_isAbsolute _ hthird]
  | false =>
      cases hsecond : second.isAbsolute with
      | true =>
          have hjoined : (second.join third).isAbsolute = true := by
            rw [isAbsolute_join, hsecond, Bool.true_or]
          rw [join_of_isAbsolute _ hsecond, join_of_isAbsolute _ hjoined]
      | false =>
          have hjoined : (second.join third).isAbsolute = false := by
            rw [isAbsolute_join, hsecond, hthird, Bool.or_self]
          rw [join_of_not_isAbsolute _ hthird, lead_join _ hsecond,
            join_of_not_isAbsolute _ hjoined, join_of_not_isAbsolute _ hthird, String.append_assoc]

/-! ## Many bases -/

theorem joinAll_concat (paths : List Path) (last : Path) :
    joinAll (paths ++ [last]) = (joinAll paths).join last :=
  List.foldl_append

/-- To see a path from bases one after another is to see it from all of them joined, from the last
one to the first. -/
theorem seenFrom_eq_join (path : Path) (bases : List Path) :
    path.seenFrom bases = (joinAll bases.reverse).join path := by
  induction bases generalizing path with
  | nil => exact (empty_join path).symm
  | cons base bases ih =>
      calc path.seenFrom (base :: bases)
        _ = (base.join path).seenFrom bases := rfl
        _ = (joinAll bases.reverse).join (base.join path) := ih (base.join path)
        _ = (joinAll (base :: bases).reverse).join path := by
          rw [List.reverse_cons, joinAll_concat, join_assoc]

theorem seenFrom_append (path : Path) (bases later : List Path) :
    path.seenFrom (bases ++ later) = (path.seenFrom bases).seenFrom later :=
  List.foldl_append

/-- An absolute path is the same from everywhere. -/
theorem seenFrom_of_isAbsolute {path : Path} (h : path.isAbsolute = true) (bases : List Path) :
    path.seenFrom bases = path := by
  rw [seenFrom_eq_join, join_of_isAbsolute _ h]

/-- A path is absolute after some bases exactly if it was so before or one of the bases is. -/
theorem isAbsolute_seenFrom (path : Path) (bases : List Path) :
    (path.seenFrom bases).isAbsolute = (path.isAbsolute || bases.any isAbsolute) := by
  induction bases generalizing path with
  | nil => simp [seenFrom]
  | cons base bases ih =>
      calc (path.seenFrom (base :: bases)).isAbsolute
        _ = ((base.join path).isAbsolute || bases.any isAbsolute) := ih (base.join path)
        _ = (path.isAbsolute || (base :: bases).any isAbsolute) := by
          rw [isAbsolute_join, List.any_cons, Bool.or_comm base.isAbsolute, Bool.or_assoc]

end CallTable.Path
