import CallTable.Files.Tree

/-!
# What writing does to a tree

A tree changes in two ways: it grows by directories, and a file is made to hold bytes. Growing
keeps everything that stands anywhere, and both keep the directories, so a path that leads
somewhere leads to the same place afterwards. Saving a text first grows the tree by the directories
that the file lies in and then puts the file; if it fails, the tree has at most grown.
-/

namespace CallTable.Tree

/-- The bytes of the file at a location, if a file stands there. -/
def bytes? (tree : Tree) (location : Location) : Option ByteArray :=
  match tree.node? location with
  | some (.file bytes) => some bytes
  | _ => none

theorem bytes?_eq_some_iff {tree : Tree} {location : Location} {bytes : ByteArray} :
    tree.bytes? location = some bytes ↔ tree.node? location = some (.file bytes) := by
  unfold bytes?
  split <;> simp_all

/-! ## Walking -/

/-- Where one piece of a path leads from a directory. -/
def stepFrom (here : Location) (piece : String) : Location :=
  if piece = "" ∨ piece = "." then here
  else if piece = ".." then here.dropLast
  else here ++ [piece]

/-- The step of a name goes down. -/
theorem stepFrom_name {here : Location} {name : String}
    (h : ¬ (name = "" ∨ name = "." ∨ name = "..")) : stepFrom here name = here ++ [name] := by
  simp only [not_or] at h
  simp [stepFrom, h]

/-- A step that is not two dots stays or goes down. -/
theorem prefix_stepFrom {here : Location} {piece : String} (h : piece ≠ "..") :
    here <+: stepFrom here piece := by
  unfold stepFrom
  rw [if_neg h]
  split
  · exact List.prefix_refl _
  · exact List.prefix_append _ _

/-- Steps lead on from directories only. -/
theorem walk_cons_eq_ok_iff {tree : Tree} {here location : Location} {piece : String}
    {pieces : List String} :
    tree.walk here (piece :: pieces) = .ok location ↔
      tree.node? here = some .directory ∧
        tree.walk (stepFrom here piece) pieces = .ok location := by
  simp only [walk, stepFrom]
  split
  · simp_all
  · simp_all
  · rename_i hhere
    simp only [hhere, true_and]
    split
    · rfl
    · split <;> rfl

/-- Walking two stretches of a path is walking the second from where the first leads. -/
theorem walk_append_eq_ok_iff {tree : Tree} {here location : Location}
    {first second : List String} :
    tree.walk here (first ++ second) = .ok location ↔
      ∃ there, tree.walk here first = .ok there ∧ tree.walk there second = .ok location := by
  induction first generalizing here with
  | nil => simp [walk]
  | cons piece pieces ih => simp only [List.cons_append, walk_cons_eq_ok_iff, ih, exists_and_left,
      and_assoc]

theorem locate_eq_ok_iff {tree : Tree} {path : Path} {location : Location} :
    tree.locate path = .ok location ↔
      path.text ≠ "" ∧ tree.walk (tree.origin path) path.pieces = .ok location := by
  unfold locate
  split <;> simp_all

/-- The location of something new lies in a directory, under a name that stays itself. -/
theorem exists_parent_of_locateNew {tree : Tree} {path : Path} {pieces : List String}
    {unnamed : Cause} {location : Location}
    (h : tree.locateNew path pieces unnamed = .ok location) :
    ∃ parent name, location = parent ++ [name] ∧ path.text ≠ "" ∧
      pieces.getLast? = some name ∧
      tree.walk (tree.origin path) pieces.dropLast = .ok parent ∧
      tree.node? parent = some .directory ∧ ¬ (name = "" ∨ name = "." ∨ name = "..") := by
  unfold locateNew at h
  split at h
  · cases h
  · rename_i htext
    cases hwalk : tree.walk (tree.origin path) (pieces.dropLast ++ [""]) with
    | error cause =>
      rw [hwalk] at h
      cases h
    | ok parent =>
      simp only [hwalk, bind, Except.bind] at h
      split at h
      · cases h
      · rename_i hname
        cases h
        obtain ⟨there, hthere, hstay⟩ := walk_append_eq_ok_iff.1 hwalk
        obtain ⟨hdirectory, hsame⟩ := walk_cons_eq_ok_iff.1 hstay
        cases hsame
        cases hlast : pieces.getLast? with
        | none => simp [hlast] at hname
        | some name =>
          simp only [hlast, Option.getD_some] at hname
          exact ⟨there, name, rfl, htext, rfl, hthere, hdirectory, hname⟩

/-- A path to something new leads to its location. -/
theorem walk_of_locateNew {tree : Tree} {path : Path} {pieces : List String} {unnamed : Cause}
    {location : Location} (h : tree.locateNew path pieces unnamed = .ok location) :
    tree.walk (tree.origin path) pieces = .ok location := by
  obtain ⟨parent, name, rfl, -, hlast, hparent, hdirectory, hname⟩ := exists_parent_of_locateNew h
  obtain ⟨front, rfl⟩ := List.getLast?_eq_some_iff.1 hlast
  rw [List.dropLast_concat] at hparent
  rw [walk_append_eq_ok_iff]
  refine ⟨parent, hparent, walk_cons_eq_ok_iff.2 ⟨hdirectory, ?_⟩⟩
  rw [stepFrom_name hname, walk]

/-! ## What stays -/

/-- Between two trees every directory has stayed, and relative paths start from the same
location. -/
structure KeepsDirectories (before after : Tree) : Prop where
  start_eq : after.start = before.start
  directory : ∀ location, before.node? location = some .directory →
    after.node? location = some .directory

/-- Where directories stay, a path leads where it led. -/
theorem KeepsDirectories.walk {before after : Tree} (h : before.KeepsDirectories after)
    {here location : Location} {pieces : List String}
    (hwalk : before.walk here pieces = .ok location) : after.walk here pieces = .ok location := by
  induction pieces generalizing here with
  | nil => exact hwalk
  | cons piece pieces ih =>
    rw [walk_cons_eq_ok_iff] at hwalk ⊢
    exact ⟨h.directory here hwalk.1, ih hwalk.2⟩

theorem KeepsDirectories.locate {before after : Tree} (h : before.KeepsDirectories after)
    {path : Path} {location : Location} (hlocate : before.locate path = .ok location) :
    after.locate path = .ok location := by
  rw [locate_eq_ok_iff] at hlocate ⊢
  unfold Tree.origin at hlocate ⊢
  rw [h.start_eq]
  exact ⟨hlocate.1, h.walk hlocate.2⟩

/-- The later tree is the earlier one with directories added. -/
structure GrowsTo (before after : Tree) : Prop where
  start_eq : after.start = before.start
  node : ∀ location node, before.node? location = some node → after.node? location = some node
  file : ∀ location bytes, after.node? location = some (.file bytes) →
    before.node? location = some (.file bytes)

namespace GrowsTo

theorem refl (tree : Tree) : tree.GrowsTo tree :=
  ⟨rfl, fun _ _ h => h, fun _ _ h => h⟩

theorem trans {first second third : Tree} (h : first.GrowsTo second)
    (h' : second.GrowsTo third) : first.GrowsTo third where
  start_eq := h'.start_eq.trans h.start_eq
  node location node hnode := h'.node location node (h.node location node hnode)
  file location bytes hfile := h.file location bytes (h'.file location bytes hfile)

theorem keepsDirectories {before after : Tree} (h : before.GrowsTo after) :
    before.KeepsDirectories after :=
  ⟨h.start_eq, fun location => h.node location .directory⟩

/-- Growing adds no file and changes none. -/
theorem bytes? {before after : Tree} (h : before.GrowsTo after) (location : Location) :
    after.bytes? location = before.bytes? location := by
  apply Option.ext
  intro bytes
  rw [bytes?_eq_some_iff, bytes?_eq_some_iff]
  exact ⟨h.file location bytes, h.node location (.file bytes)⟩

/-- A directory added where nothing stood. -/
theorem put_directory {tree : Tree} {location : Location} (h : tree.node? location = none) :
    tree.GrowsTo (tree.put location .directory) where
  start_eq := rfl
  node other node hnode := by
    by_cases hother : other = []
    · subst hother
      exact hnode
    · rw [node?_put _ _ _ _ hother, if_neg]
      · exact hnode
      · intro heq
        rw [heq, h] at hnode
        cases hnode
  file other bytes hfile := by
    by_cases hother : other = []
    · subst hother
      exact hfile
    · rw [node?_put _ _ _ _ hother] at hfile
      split at hfile
      · cases hfile
      · exact hfile

end GrowsTo

/-- A tree in which everything lies in a directory. -/
def IsClosed (tree : Tree) : Prop :=
  ∀ location name, tree.node? (location ++ [name]) ≠ none →
    tree.node? location = some .directory

/-- In a closed tree all the way down to something there is something. -/
theorem IsClosed.node?_ne_none {tree : Tree} (h : tree.IsClosed) {here location : Location}
    (hhere : here <+: location) (hlocation : tree.node? location ≠ none) :
    tree.node? here ≠ none := by
  obtain ⟨below, rfl⟩ := hhere
  induction below generalizing here with
  | nil => rwa [List.append_nil] at hlocation
  | cons name below ih =>
    have hstep : tree.node? (here ++ [name]) ≠ none := by
      apply ih
      rwa [List.append_assoc]
    rw [h here name hstep]
    simp

/-- Walking without two dots goes down. -/
theorem prefix_of_walk {tree : Tree} {here location : Location} {pieces : List String}
    (hpieces : ".." ∉ pieces) (h : tree.walk here pieces = .ok location) : here <+: location := by
  induction pieces generalizing here with
  | nil =>
    cases h
    exact List.prefix_refl _
  | cons piece pieces ih =>
    rw [List.mem_cons, not_or] at hpieces
    rw [walk_cons_eq_ok_iff] at h
    exact (prefix_stepFrom (Ne.symm hpieces.1)).trans (ih hpieces.2 h.2)

/-- What a path without two dots leads to in a grown tree, it led to before the tree grew, if
anything stood there then. Two dots could go up from a directory that is new. -/
theorem GrowsTo.walk_of_walk {before after : Tree} (h : before.GrowsTo after)
    (hclosed : before.IsClosed) {here location : Location} {pieces : List String}
    (hpieces : ".." ∉ pieces) (hlocation : before.node? location ≠ none)
    (hwalk : after.walk here pieces = .ok location) : before.walk here pieces = .ok location := by
  induction pieces generalizing here with
  | nil => exact hwalk
  | cons piece pieces ih =>
    have hdown := prefix_of_walk hpieces hwalk
    rw [List.mem_cons, not_or] at hpieces
    rw [walk_cons_eq_ok_iff] at hwalk ⊢
    refine ⟨?_, ih hpieces.2 hwalk.2⟩
    cases hnode : before.node? here with
    | none => exact absurd hnode (hclosed.node?_ne_none hdown hlocation)
    | some node => exact (h.node here node hnode).symm.trans hwalk.1

/-- What the tree has grown by since a path led to nothing is all that the path can lead to now,
unless the path goes up. -/
theorem GrowsTo.node?_eq_none {before after : Tree} (h : before.GrowsTo after) {path : Path}
    {location : Location} (hfind : before.find? path = none)
    (hlocate : after.locate path = .ok location)
    (hpath : (∃ there, before.locate path = .ok there) ∨
      (before.IsClosed ∧ ".." ∉ path.pieces)) : before.node? location = none := by
  have hnothing : before.locate path = .ok location → before.node? location = none := by
    intro hbefore
    simpa [find?, hbefore] using hfind
  cases hpath with
  | inl hbefore =>
    obtain ⟨there, hthere⟩ := hbefore
    have hsame := h.keepsDirectories.locate hthere
    rw [hlocate] at hsame
    cases hsame
    exact hnothing hthere
  | inr hclosed =>
    cases hnode : before.node? location with
    | none => rfl
    | some node =>
      rw [← hnode]
      apply hnothing
      rw [locate_eq_ok_iff] at hlocate ⊢
      unfold origin at hlocate ⊢
      rw [← h.start_eq]
      exact ⟨hlocate.1, h.walk_of_walk hclosed.1 hclosed.2 (by simp [hnode]) hlocate.2⟩

end CallTable.Tree
