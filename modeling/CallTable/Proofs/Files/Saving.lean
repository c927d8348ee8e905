import CallTable.Proofs.Files.Tree

/-!
# Saving a text

Saving a text to a path makes the directories that the file lies in and then writes the file. A
save that ends well has put the bytes of the text where the path leads afterwards, and nothing else
of the files is different; one that fails has changed no file.
-/

namespace CallTable

/-- A list that does not end in the separator has something behind its last separator. -/
theorem getLast?_splitOn_ne_nil {c : Char} {text : List Char} (hne : text ≠ [])
    (hlast : text.getLast? ≠ some c) : (text.splitOn c).getLast? ≠ some [] := by
  unfold List.splitOn
  induction text with
  | nil => exact absurd rfl hne
  | cons first text ih =>
    cases text with
    | nil =>
      have hfirst : (first == c) = false := by simpa using hlast
      simp [List.splitOnP_cons_eq_if_modifyHead, hfirst]
    | cons second text =>
      have hrest := ih (by simp) (by simpa using hlast)
      obtain ⟨piece, pieces, hpieces⟩ :=
        List.exists_cons_of_ne_nil (List.splitOn_ne_nil c (second :: text))
      unfold List.splitOn at hpieces
      rw [List.splitOnP_cons_eq_if_modifyHead]
      split
      · rw [hpieces] at hrest ⊢
        simpa using hrest
      · rw [hpieces] at hrest ⊢
        cases pieces with
        | nil => simp
        | cons next pieces => simpa using hrest

namespace Path

/-- Pieces that end in a name are not trimmed away. -/
theorem trimPieces_ne_nil {pieces : List (List Char)} {last : List Char}
    (hlast : pieces.getLast? = some last) (hname : ¬ (last = [] ∨ last = ['.'])) :
    trimPieces pieces ≠ [] := by
  obtain ⟨front, rfl⟩ := List.getLast?_eq_some_iff.1 hlast
  simp only [not_or] at hname
  simp [trimPieces, hname]

theorem getLast?_splitOn_cons_slash (text : List Char) :
    (('/' :: text).splitOn '/').getLast? = (text.splitOn '/').getLast? := by
  unfold List.splitOn
  obtain ⟨piece, pieces, hpieces⟩ :=
    List.exists_cons_of_ne_nil (List.splitOn_ne_nil '/' text)
  unfold List.splitOn at hpieces
  rw [List.splitOnP_cons_eq_if_modifyHead, if_pos (by simp), hpieces]
  simp

/-- What stands before the first name of a path does not change its last piece, unless the path is
a dot. -/
theorem getLast?_body {text : List Char} {last : List Char}
    (hlast : (text.splitOn '/').getLast? = some last) (hname : last ≠ ['.']) :
    ((splitHead text).2.splitOn '/').getLast? = some last := by
  unfold splitHead
  split
  · rw [← getLast?_splitOn_cons_slash]
    exact hlast
  · have hdot : ['.'].splitOn '/' = [['.']] := by decide
    rw [hdot] at hlast
    exact absurd (Option.some.inj hlast).symm hname
  · rename_i rest
    rw [getLast?_splitOn_cons_slash, ← hlast]
    obtain ⟨piece, pieces, hpieces⟩ := List.exists_cons_of_ne_nil (List.splitOn_ne_nil '/' rest)
    unfold List.splitOn at hpieces ⊢
    simp [List.splitOnP_cons_eq_if_modifyHead, hpieces]
  · exact hlast

/-- A path that ends in a name has a parent. -/
theorem exists_parent?_of_name (path : Path) {name : String}
    (hlast : path.pieces.getLast? = some name) (hname : ¬ (name = "" ∨ name = ".")) :
    ∃ base, path.parent? = some base := by
  unfold pieces at hlast
  rw [List.getLast?_map, Option.map_eq_some_iff] at hlast
  obtain ⟨last, hlast, rfl⟩ := hlast
  have hpiece : ¬ (last = [] ∨ last = ['.']) := by
    rintro (rfl | rfl)
    · exact hname (.inl rfl)
    · exact hname (.inr rfl)
  have hbody := getLast?_body hlast (fun hdot => hpiece (.inr hdot))
  obtain ⟨first, rest, hpieces⟩ :=
    List.exists_cons_of_ne_nil (trimPieces_ne_nil hbody hpiece)
  unfold parent?
  simp only [hpieces]
  exact ⟨_, rfl⟩

end Path

namespace Tree

/-- The pieces of a path that does not end in a slash all count. -/
theorem namedPieces_eq {path : Path} (hne : path.text ≠ "")
    (hlast : path.text.toList.getLast? ≠ some '/') : namedPieces path = path.pieces := by
  obtain ⟨front, last, hpieces⟩ :=
    List.eq_nil_or_concat (path.text.toList.splitOn '/') |>.resolve_left
      (List.splitOn_ne_nil _ _)
  rw [List.concat_eq_append] at hpieces
  have hsome := getLast?_splitOn_ne_nil (mt String.toList_eq_nil_iff.1 hne) hlast
  have hname : String.ofList last ≠ "" := by
    intro hempty
    apply hsome
    rw [hpieces, List.getLast?_concat]
    simpa using congrArg String.toList hempty
  unfold namedPieces Path.pieces
  rw [hpieces]
  simp [hname]

/-- Writing puts the file where the path leads, which is not a directory. -/
theorem exists_location_of_write {tree after : Tree} {path : Path} {bytes : ByteArray}
    (h : tree.write path bytes = .ok after) :
    ∃ location, tree.locate path = .ok location ∧ tree.node? location ≠ some .directory ∧
      after = tree.put location (.file bytes) := by
  unfold write at h
  cases hnew : tree.locateNew path (namedPieces path) .isDirectory with
  | error cause =>
    rw [hnew] at h
    cases h
  | ok location =>
    simp only [hnew, bind, Except.bind] at h
    split at h
    · cases h
    · rename_i hlast
      obtain ⟨_, _, _, htext, _⟩ := exists_parent_of_locateNew hnew
      have hlocate := walk_of_locateNew hnew
      rw [namedPieces_eq htext hlast] at hlocate
      split at h
      · cases h
      · rename_i hnode
        cases h
        exact ⟨location, locate_eq_ok_iff.2 ⟨htext, hlocate⟩, hnode, rfl⟩

/-- Making a directory lets the tree grow. -/
theorem growsTo_of_makeDirectory {tree after : Tree} {path : Path}
    (h : tree.makeDirectory path = .ok after) : tree.GrowsTo after := by
  unfold makeDirectory at h
  cases hnew : tree.locateNew path (namedPieces path) .alreadyExists with
  | error cause =>
    rw [hnew] at h
    cases h
  | ok location =>
    simp only [hnew, bind, Except.bind] at h
    split at h
    · cases h
    · rename_i hnode
      cases h
      exact .put_directory hnode

/-- The later tree is the earlier one, grown by directories and with the file at a path holding
the bytes. -/
def SavesTo (before after : Tree) (path : Path) (bytes : ByteArray) : Prop :=
  ∃ grown location, before.GrowsTo grown ∧ grown.locate path = .ok location ∧
    grown.node? location ≠ some .directory ∧ after = grown.put location (.file bytes)

/-- A path to what is not a directory ends in a name. -/
theorem exists_name_of_locate {tree : Tree} {path : Path} {location : Location}
    (h : tree.locate path = .ok location) (hnode : tree.node? location ≠ some .directory) :
    ∃ name, path.pieces.getLast? = some name ∧ ¬ (name = "" ∨ name = ".") := by
  obtain ⟨-, hwalk⟩ := locate_eq_ok_iff.1 h
  have hne : path.pieces ≠ [] := by simp [Path.pieces]
  obtain ⟨front, name, hpieces⟩ := List.eq_nil_or_concat path.pieces |>.resolve_left hne
  rw [List.concat_eq_append] at hpieces
  rw [hpieces] at hwalk
  obtain ⟨there, -, hlast⟩ := walk_append_eq_ok_iff.1 hwalk
  obtain ⟨hdirectory, hstep⟩ := walk_cons_eq_ok_iff.1 hlast
  refine ⟨name, by rw [hpieces, List.getLast?_concat], fun hname => ?_⟩
  rw [stepFrom, if_pos hname] at hstep
  cases hstep
  exact hnode hdirectory

/-- The file that a path leads to in the later tree holds the bytes there, and every other file is
that of the earlier tree. -/
def ChangesOnly (before after : Tree) (path : Path) (bytes : ByteArray) : Prop :=
  ∃ location, after.locate path = .ok location ∧ after.bytes? location = some bytes ∧
    ∀ other, other ≠ location → after.bytes? other = before.bytes? other

/-- A file put where no directory stands leaves all directories. -/
theorem keepsDirectories_put {tree : Tree} {location : Location} {bytes : ByteArray}
    (h : tree.node? location ≠ some .directory) :
    tree.KeepsDirectories (tree.put location (.file bytes)) where
  start_eq := rfl
  directory other hother := by
    cases other with
    | nil => rfl
    | cons name names =>
      rw [node?_put _ _ _ _ (List.cons_ne_nil name names), if_neg]
      · exact hother
      · intro heq
        rw [heq] at hother
        exact h hother

namespace SavesTo

variable {before after : Tree} {path : Path} {bytes : ByteArray}

/-- Where a path leads after a save, it led once the directories were there. -/
theorem exists_location (h : before.SavesTo after path bytes) :
    ∃ grown location, before.GrowsTo grown ∧ grown.locate path = .ok location ∧
      after.locate path = .ok location ∧ after.bytes? location = some bytes ∧
      ∀ other, other ≠ location → after.bytes? other = before.bytes? other := by
  obtain ⟨grown, location, hgrown, hlocate, hnode, rfl⟩ := h
  have hne : location ≠ [] := by
    intro hroot
    rw [hroot] at hnode
    exact hnode rfl
  refine ⟨grown, location, hgrown, hlocate, (keepsDirectories_put hnode).locate hlocate, ?_, ?_⟩
  · rw [bytes?_eq_some_iff, node?_put _ _ _ _ hne, if_pos rfl]
  · intro other hother
    rw [← hgrown.bytes? other]
    cases other with
    | nil => rfl
    | cons name names =>
      unfold Tree.bytes?
      rw [node?_put _ _ _ _ (List.cons_ne_nil name names), if_neg hother]

theorem changesOnly (h : before.SavesTo after path bytes) :
    before.ChangesOnly after path bytes := by
  obtain ⟨_, location, _, _, hlocate, hbytes, hothers⟩ := h.exists_location
  exact ⟨location, hlocate, hbytes, hothers⟩

/-- What was saved is read back. -/
theorem read (h : before.SavesTo after path bytes) : after.read path = .ok bytes := by
  obtain ⟨location, hlocate, hbytes, _⟩ := h.changesOnly
  rw [bytes?_eq_some_iff] at hbytes
  simp [Tree.read, hlocate, hbytes, bind, Except.bind]

/-- A path that was saved to has a parent. -/
theorem exists_parent? (h : before.SavesTo after path bytes) :
    ∃ base, path.parent? = some base := by
  obtain ⟨grown, location, _, hlocate, hnode, _⟩ := h
  obtain ⟨name, hlast, hname⟩ := exists_name_of_locate hlocate hnode
  exact path.exists_parent?_of_name hlast hname

/-- A save to a path that found nothing replaces nothing, if the path led to some place or cannot
go up. -/
theorem node?_eq_none (h : before.SavesTo after path bytes) (hfind : before.find? path = none)
    (hpath : (∃ there, before.locate path = .ok there) ∨
      (before.IsClosed ∧ ".." ∉ path.pieces)) {location : Location}
    (hlocation : after.locate path = .ok location) : before.node? location = none := by
  obtain ⟨grown, there, hgrown, hgrownTo, hthere, _⟩ := h.exists_location
  rw [hlocation] at hthere
  cases hthere
  exact hgrown.node?_eq_none hfind hgrownTo hpath

end SavesTo

/-! ## The operations on the state -/

open FileSystem

/-- A later action runs on the tree that the earlier one leaves. -/
theorem run_bind {α β : Type} (action : StateM Tree α) (next : α → StateM Tree β) (tree : Tree) :
    (action >>= next).run tree = (next (action.run tree).1).run (action.run tree).2 :=
  rfl

theorem run_readBytes (tree : Tree) (path : Path) :
    (FileSystem.readBytes path : StateM Tree (Except Cause ByteArray)).run tree =
      (tree.read path, tree) :=
  rfl

theorem run_writeText (tree : Tree) (path : Path) (text : String) :
    (FileSystem.writeText path text : StateM Tree (Except Cause Unit)).run tree =
      match tree.write path text.toUTF8 with
      | .error cause => (.error cause, tree)
      | .ok after => (.ok (), after) :=
  rfl

/-- The action lets the tree grow, whatever it is. -/
def Grows {α : Type} (action : StateM Tree α) : Prop :=
  ∀ tree : Tree, tree.GrowsTo (action.run tree).2

theorem Grows.pure {α : Type} (value : α) : Grows (pure value) :=
  fun tree => .refl tree

theorem Grows.bind {α β : Type} {action : StateM Tree α} {next : α → StateM Tree β}
    (haction : Grows action) (hnext : ∀ value, Grows (next value)) : Grows (action >>= next) :=
  fun tree => (haction tree).trans (hnext (action.run tree).1 (action.run tree).2)

theorem grows_makeDirectory (path : Path) :
    Grows (FileSystem.makeDirectory path : StateM Tree (Except Cause Unit)) := by
  intro tree
  show tree.GrowsTo (update (·.makeDirectory path) tree).2
  unfold update
  split
  · exact .refl tree
  · rename_i hmade
    exact growsTo_of_makeDirectory hmade

theorem grows_settle (path : Path) (cause : Cause) :
    Grows (makeDirectories.settle path cause : StateM Tree (Except Cause Unit)) :=
  fun tree => .refl tree

theorem grows_makeOrFind (path : Path) :
    Grows (makeDirectories.makeOrFind path : StateM Tree (Except Cause Unit)) := by
  refine (grows_makeDirectory path).bind fun made => ?_
  cases made with
  | ok => exact .pure _
  | error cause => exact grows_settle path cause

theorem grows_makeDirectories (paths : List Path) :
    Grows (makeDirectories paths : StateM Tree (Except Cause Unit)) := by
  induction paths with
  | nil => exact .pure _
  | cons path above ih =>
    refine (grows_makeDirectory path).bind fun made => ?_
    split
    · exact .pure _
    · refine ih.bind fun madeAbove => ?_
      cases madeAbove with
      | ok => exact grows_makeOrFind path
      | error cause => exact .pure _
    · exact (grows_settle path _).bind fun _ => .pure _

/-- What a run of a save has made of a tree. -/
def IsSaved (before : Tree) (path : Path) (bytes : ByteArray) :
    Except FileError Unit × Tree → Prop
  | (.ok (), after) => before.SavesTo after path bytes
  | (.error _, after) => before.GrowsTo after

/-- Writing the file of a grown tree ends the save. -/
theorem isSaved_write {before grown : Tree} (h : before.GrowsTo grown) (path : Path)
    (text : String) :
    IsSaved before path text.toUTF8
      ((saveText.write path text : StateM Tree (Except FileError Unit)).run grown) := by
  have hrun : (saveText.write path text : StateM Tree (Except FileError Unit)).run grown =
      match grown.write path text.toUTF8 with
      | .error cause => (.error (.write path cause), grown)
      | .ok after => (.ok (), after) := by
    unfold saveText.write
    rw [run_bind, run_writeText]
    cases grown.write path text.toUTF8 <;> rfl
  rw [hrun]
  split
  · exact h
  · rename_i hwrite
    obtain ⟨location, hlocate, hnode, rfl⟩ := exists_location_of_write hwrite
    exact ⟨grown, location, h, hlocate, hnode, rfl⟩

theorem isSaved_saveText (tree : Tree) (path : Path) (text : String) :
    IsSaved tree path text.toUTF8
      ((saveText path text : StateM Tree (Except FileError Unit)).run tree) := by
  unfold saveText
  split
  · exact isSaved_write (.refl tree) path text
  · rename_i parent _
    have hgrows := grows_makeDirectories (parent.ancestors.filter (·.text ≠ "")) tree
    rw [run_bind]
    generalize (makeDirectories (parent.ancestors.filter (·.text ≠ "")) :
      StateM Tree (Except Cause Unit)).run tree = made at hgrows ⊢
    obtain ⟨outcome, grown⟩ := made
    cases outcome with
    | error cause => exact hgrows
    | ok => exact isSaved_write hgrows path text

end Tree

end CallTable
