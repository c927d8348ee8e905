import CallTable.Command.Run
import CallTable.Proofs.Files.Saving

/-!
# Sessions on a tree

Run on a file tree, a session turns a transcript and a tree into a result, a transcript and a tree.
The sessions that only read and report are quiet: they may fail or give a value, and may add
notices, but the output and the tree stay as they are.
-/

namespace CallTable.Command

open FileSystem

variable {α β : Type}

/-! ## Actions that read -/

/-- The action leaves every tree as it is. -/
def OnlyReads (action : StateM Tree α) : Prop :=
  ∀ tree : Tree, (action.run tree).2 = tree

namespace OnlyReads

theorem pure (value : α) : OnlyReads (pure value) :=
  fun _ => rfl

theorem bind {action : StateM Tree α} {next : α → StateM Tree β} (haction : OnlyReads action)
    (hnext : ∀ value, OnlyReads (next value)) : OnlyReads (action >>= next) := by
  intro tree
  rw [Tree.run_bind, hnext, haction]

theorem readText (what : String) (path : Path) :
    OnlyReads (readText what path : StateM Tree (Except FileError String)) := by
  refine bind (fun _ => rfl) fun bytes => ?_
  cases bytes with
  | error cause => exact pure _
  | ok bytes =>
    dsimp only
    split
    · exact pure _
    · exact pure _

theorem pathExists (path : Path) : OnlyReads (pathExists path : StateM Tree Bool) :=
  bind (fun _ => rfl) fun _ => pure _

theorem load (path : Path) :
    OnlyReads (Settings.load path : StateM Tree (Except FileError Settings)) := by
  refine bind (readText _ path) fun text => ?_
  cases text with
  | error failure => exact pure _
  | ok text =>
    dsimp only
    split
    · exact pure _
    · exact pure _

theorem loadOrStandard (path : Path) :
    OnlyReads (Settings.loadOrStandard path :
      StateM Tree (Logged (Except FileError Settings))) := by
  refine bind (pathExists path) fun isThere => ?_
  cases isThere with
  | false => exact pure _
  | true => exact bind (load path) fun _ => pure _

theorem readDumps (settings : Settings) :
    OnlyReads (settings.readDumps : StateM Tree (Except FileError (String × String))) := by
  refine bind (readText _ _) fun table => ?_
  cases table with
  | error failure => exact pure _
  | ok table =>
    refine bind (readText _ _) fun signatures => ?_
    cases signatures with
    | error failure => exact pure _
    | ok signatures => exact pure _

end OnlyReads

/-! ## Running a session -/

namespace Session

/-- What a session gives when it is run on a transcript and a tree: a result or a reason, then the
transcript and the tree. -/
def on (session : Session (StateM Tree) α) (transcript : Transcript) (tree : Tree) :
    (Except String α × Transcript) × Tree :=
  (session.run.run transcript).run tree

variable (transcript : Transcript) (tree : Tree)

theorem on_pure (value : α) :
    on (pure value) transcript tree = ((.ok value, transcript), tree) :=
  rfl

theorem on_throw (reason : String) :
    on (throw reason : Session (StateM Tree) α) transcript tree =
      ((.error reason, transcript), tree) :=
  rfl

/-- A session that fails is not gone on with. -/
theorem on_bind (session : Session (StateM Tree) α) (next : α → Session (StateM Tree) β) :
    on (session >>= next) transcript tree =
      match on session transcript tree with
      | ((.error reason, transcript), tree) => ((.error reason, transcript), tree)
      | ((.ok value, transcript), tree) => on (next value) transcript tree := by
  show ((session.run.run transcript).run tree |> fun reached =>
      (((ExceptT.bindCont next reached.1.1).run reached.1.2).run reached.2)) = _
  unfold on
  generalize (session.run.run transcript).run tree = reached
  obtain ⟨⟨result, transcript⟩, tree⟩ := reached
  cases result <;> rfl

theorem on_print (text : String) :
    on (print text) transcript tree =
      ((.ok (), { transcript with output := transcript.output ++ text }), tree) :=
  rfl

theorem on_sayAll (notices : List Notice) :
    on (sayAll notices) transcript tree =
      ((.ok (), { transcript with notices := transcript.notices ++ notices }), tree) :=
  rfl

/-- An action is a step of a session that does not fail. -/
theorem on_lift (action : StateM Tree α) :
    on (action : Session (StateM Tree) α) transcript tree =
      ((.ok (action.run tree).1, transcript), (action.run tree).2) :=
  rfl

/-- An access changes the tree as its action does, and fails with it. -/
theorem on_access (action : StateM Tree (Except FileError α)) :
    on (access action) transcript tree =
      match action.run tree with
      | (.error failure, tree) => ((.error (failureReason failure), transcript), tree)
      | (.ok value, tree) => ((.ok value, transcript), tree) := by
  unfold access
  rw [on_bind, on_lift]
  obtain ⟨outcome, tree⟩ := action.run tree
  cases outcome with
  | error failure => exact on_throw transcript tree (failureReason failure)
  | ok value => exact on_pure transcript tree value

end Session

/-! ## Quiet sessions -/

/-- The session leaves the output and the tree as they are. -/
def IsQuiet (session : Session (StateM Tree) α) : Prop :=
  ∀ (output : String) (notices : List Notice) (tree : Tree), ∃ result said,
    Session.on session ⟨output, notices⟩ tree = ((result, ⟨output, said⟩), tree)

namespace IsQuiet

theorem pure (value : α) : IsQuiet (pure value) :=
  fun output notices tree => ⟨.ok value, notices, Session.on_pure ⟨output, notices⟩ tree value⟩

theorem throw (reason : String) : IsQuiet (throw reason : Session (StateM Tree) α) :=
  fun output notices tree =>
    ⟨.error reason, notices, Session.on_throw ⟨output, notices⟩ tree reason⟩

theorem bind {session : Session (StateM Tree) α} {next : α → Session (StateM Tree) β}
    (hsession : IsQuiet session) (hnext : ∀ value, IsQuiet (next value)) :
    IsQuiet (session >>= next) := by
  intro output notices tree
  obtain ⟨result, said, hon⟩ := hsession output notices tree
  rw [Session.on_bind, hon]
  cases result with
  | error reason => exact ⟨.error reason, said, rfl⟩
  | ok value => exact hnext value output said tree

theorem sayAll (notices : List Notice) : IsQuiet (sayAll notices : Session (StateM Tree) Unit) :=
  fun output earlier tree =>
    ⟨.ok (), earlier ++ notices, Session.on_sayAll ⟨output, earlier⟩ tree notices⟩

theorem logged (computation : Logged α) :
    IsQuiet (logged computation : Session (StateM Tree) α) :=
  (sayAll _).bind fun _ => pure _

theorem access {action : StateM Tree (Except FileError α)} (h : OnlyReads action) :
    IsQuiet (access action) := by
  intro output notices tree
  rw [Session.on_access]
  have hread := h tree
  generalize action.run tree = reached at hread ⊢
  obtain ⟨outcome, after⟩ := reached
  cases hread
  cases outcome with
  | error failure => exact ⟨.error (failureReason failure), notices, rfl⟩
  | ok value => exact ⟨.ok value, notices, rfl⟩

/-- An action that only reads is a quiet step of a session. -/
theorem lift {action : StateM Tree α} (h : OnlyReads action) :
    IsQuiet (action : Session (StateM Tree) α) := by
  intro output notices tree
  rw [Session.on_lift, h tree]
  exact ⟨.ok (action.run tree).1, notices, rfl⟩

/-- The settings are read without a change. -/
theorem readSettings (path : Path) (table : Option Path) :
    IsQuiet (readSettings path table : Session (StateM Tree) Settings) :=
  (lift (.loadOrStandard path)).bind fun loaded =>
    (logged loaded).bind fun _ => (access (.pure _)).bind fun _ => pure _

end IsQuiet

end CallTable.Command
