import CallTable.Proofs.Command.Session

/-!
# What a command changes

A run that fails has printed nothing and changed no file. A run that ends well has changed at most
the file that its command line names: listing and printing change nothing, a generation with an
output file leaves in it what it would have printed, and a start writes the standard settings. A
start without `force` asks whether the settings file is there before it makes directories, so it
replaces no file unless making a directory opens a way up to one.
-/

namespace CallTable.Command

open FileSystem

/-! ## Generating, in two parts -/

section
variable {m : Type → Type} [Monad m] [FileSystem m]

/-- The text of the wrappers with the report on it. Nothing is written or printed yet. -/
def generateText (settings : Path) (table signatures : Option Path) :
    Session m (String × Report) := do
  let settings ← readSettings settings table
  let settings := { settings with signatures := signatures.getD settings.signatures }
  let (tableDump, signatureDump) ← access settings.readDumps
  let (outcome, sink) ←
    logged (generate settings.options tableDump signatureDump Sink.unlimited)
  match outcome with
  | .error failure =>
    say (.diagnostic (failure.diagnostic.withLocation settings.signatures.text))
    throw "generation aborted, no wrappers written"
  | .ok report =>
    unless report.dropped.isEmpty do
      say (.diagnostic (droppedDiagnostic report.dropped settings.signatures))
    return ((String.fromUTF8? sink.written).getD "", report)

/-- Writes or prints the text of the wrappers. -/
def deliver (output : Option Path) (text : String) (report : Report) : Session m Unit := do
  match output with
  | some path =>
    access (saveText path text)
    say (.event (.fileWritten path.text))
  | none => print text
  say (.event (.wrappersGenerated report.wrappers report.entries))

omit [FileSystem m] in
/-- Nothing runs after a failure. -/
theorem throw_bind [LawfulMonad m] {α β : Type} (reason : String) (next : α → Session m β) :
    (throw reason >>= next : Session m β) = throw reason := by
  apply ExceptT.ext
  simp

/-- A generation makes the text without a look at where it goes to. -/
theorem runGenerate_eq [LawfulMonad m] (settings : Path) (table signatures output : Option Path) :
    (runGenerate settings table signatures output : Session m Unit) =
      generateText settings table signatures >>= fun made => deliver output made.1 made.2 := by
  unfold runGenerate generateText
  simp only [bind_assoc]
  congr 1
  funext settings
  congr 1
  funext dumps
  congr 1
  funext generated
  obtain ⟨outcome, sink⟩ := generated
  cases outcome with
  | error failure =>
    simp only [bind_assoc]
    congr 1
    funext _
    rw [throw_bind]
  | ok report =>
    show (if report.dropped.isEmpty then _ else _) = (if report.dropped.isEmpty then _ else _) >>= _
    split
    · rw [pure_bind]
      rfl
    · rw [bind_assoc]
      congr 1
      funext _
      rw [pure_bind]
      rfl

end

/-- The text is made without a change. -/
theorem isQuiet_generateText (settings : Path) (table signatures : Option Path) :
    IsQuiet (generateText settings table signatures :
      Session (StateM Tree) (String × Report)) := by
  refine (IsQuiet.readSettings settings table).bind fun settings => ?_
  refine (IsQuiet.access (.readDumps _)).bind fun dumps => ?_
  refine (IsQuiet.logged _).bind fun generated => ?_
  obtain ⟨outcome, sink⟩ := generated
  cases outcome with
  | error failure => exact (IsQuiet.sayAll _).bind fun _ => .throw _
  | ok report =>
    show IsQuiet (if report.dropped.isEmpty then _ else _)
    split
    · exact .pure _
    · exact (IsQuiet.sayAll _).bind fun _ => .pure _

/-! ## Ends of sessions -/

/-- What has become of a session that started with no output: it has failed without output and
without a change to a file, or its output and its tree are as the condition says. -/
def EndsWell (before : Tree) (condition : String → Tree → Prop) :
    (Except String Unit × Transcript) × Tree → Prop
  | ((.error _, transcript), after) =>
    transcript.output = "" ∧ ∀ location, after.bytes? location = before.bytes? location
  | ((.ok (), transcript), after) => condition transcript.output after

variable {α : Type} {tree : Tree} {condition : String → Tree → Prop} {notices : List Notice}

/-- A quiet step leaves it to the rest of the session how it ends. -/
theorem IsQuiet.endsWell_bind {session : Session (StateM Tree) α}
    {next : α → Session (StateM Tree) Unit} (hsession : IsQuiet session)
    (hnext : ∀ value said,
      Session.on session ⟨"", notices⟩ tree = ((.ok value, ⟨"", said⟩), tree) →
        EndsWell tree condition (Session.on (next value) ⟨"", said⟩ tree)) :
    EndsWell tree condition (Session.on (session >>= next) ⟨"", notices⟩ tree) := by
  obtain ⟨result, said, hon⟩ := hsession "" notices tree
  rw [Session.on_bind, hon]
  cases result with
  | error reason => exact ⟨rfl, fun _ => rfl⟩
  | ok value => exact hnext value said hon

/-- A session that saves a text fails with the save, or goes on with the saved file. -/
theorem endsWell_save {path : Path} {text : String} {next : Session (StateM Tree) Unit}
    (hnext : ∀ after, tree.SavesTo after path text.toUTF8 →
      EndsWell tree condition (Session.on next ⟨"", notices⟩ after)) :
    EndsWell tree condition (Session.on
      (access (saveText path text) >>= fun _ => next) ⟨"", notices⟩ tree) := by
  have hsaved := Tree.isSaved_saveText tree path text
  rw [Session.on_bind, Session.on_access]
  generalize (saveText path text : StateM Tree (Except FileError Unit)).run tree = reached
    at hsaved ⊢
  obtain ⟨outcome, after⟩ := reached
  cases outcome with
  | error failure => exact ⟨rfl, hsaved.bytes?⟩
  | ok => exact hnext after hsaved

/-! ## The tasks -/

variable (tree notices)

/-- Listing leaves the tree as it is. -/
theorem endsWell_runList (settings : Path) (table : Option Path) (format : ListingFormat) :
    EndsWell tree (fun _ after => after = tree)
      (Session.on (runList settings table format) ⟨"", notices⟩ tree) := by
  refine (IsQuiet.readSettings settings table).endsWell_bind fun settings _ _ => ?_
  refine (IsQuiet.access (.readText _ _)).endsWell_bind fun dump _ _ => ?_
  refine (IsQuiet.logged _).endsWell_bind fun map _ _ => ?_
  cases format with
  | text => rfl
  | json => rfl

/-- A printed text ends a generation with this text as its output. -/
theorem on_deliver_none (text : String) (report : Report) :
    Session.on (deliver none text report) ⟨"", notices⟩ tree =
      ((.ok (), ⟨text, notices ++ [.event (.wrappersGenerated report.wrappers report.entries)]⟩),
        tree) := by
  unfold deliver
  rw [Session.on_bind, Session.on_print, String.empty_append]
  exact Session.on_sayAll ⟨text, notices⟩ tree _

/-- Without an output file a generation leaves the tree as it is. -/
theorem endsWell_runGenerate_none (settings : Path) (table signatures : Option Path) :
    EndsWell tree (fun _ after => after = tree)
      (Session.on (runGenerate settings table signatures none) ⟨"", notices⟩ tree) := by
  rw [runGenerate_eq]
  refine (isQuiet_generateText settings table signatures).endsWell_bind fun made said _ => ?_
  rw [on_deliver_none]
  rfl

/-- With an output file a generation prints nothing and puts into the file what it would print
without one. -/
theorem endsWell_runGenerate_some (settings : Path) (table signatures : Option Path)
    (target : Path) :
    EndsWell tree
      (fun output after => output = "" ∧ ∃ transcript,
        Session.on (runGenerate settings table signatures none) ⟨"", notices⟩ tree =
          ((.ok (), transcript), tree) ∧
        tree.ChangesOnly after target transcript.output.toUTF8)
      (Session.on (runGenerate settings table signatures (some target)) ⟨"", notices⟩ tree) := by
  rw [runGenerate_eq, runGenerate_eq]
  refine (isQuiet_generateText settings table signatures).endsWell_bind fun made said hmade => ?_
  obtain ⟨text, report⟩ := made
  refine endsWell_save fun after hsaved => ⟨rfl, ?_⟩
  rw [Session.on_bind, hmade]
  exact ⟨_, on_deliver_none tree said text report, hsaved.changesOnly⟩

theorem run_pathExists (path : Path) :
    (pathExists path : StateM Tree Bool).run tree = ((tree.find? path).isSome, tree) := by
  show (((tree.find? path).map Node.kind).isSome, tree) = _
  rw [Option.isSome_map]

/-- A start writes the standard settings. Without `force` it does so only if its path finds
nothing, and then it replaces nothing if the path led to some place or cannot go up. -/
theorem endsWell_runStart (directory : Path) (force : Bool) :
    EndsWell tree
      (fun _ after => tree.ChangesOnly after (directory.join ⟨Settings.fileName⟩)
          Settings.standard.render.toUTF8 ∧
        (force = false → tree.find? (directory.join ⟨Settings.fileName⟩) = none ∧
          ((∃ there, tree.locate (directory.join ⟨Settings.fileName⟩) = .ok there) ∨
              (tree.IsClosed ∧ ".." ∉ (directory.join ⟨Settings.fileName⟩).pieces) →
            ∀ location, after.locate (directory.join ⟨Settings.fileName⟩) = .ok location →
              tree.node? location = none)))
      (Session.on (runStart directory force) ⟨"", notices⟩ tree) := by
  unfold runStart
  rw [Session.on_bind, Session.on_lift, run_pathExists]
  show EndsWell _ _ (Session.on (if _ then _ else _) _ _)
  split
  · exact ⟨rfl, fun _ => rfl⟩
  · rename_i hmay
    refine endsWell_save fun after hsaved => ⟨hsaved.changesOnly, fun hforce => ?_⟩
    have hfind : tree.find? (directory.join ⟨Settings.fileName⟩) = none := by
      simpa [hforce] using hmay
    exact ⟨hfind, fun hpath _ hlocation => hsaved.node?_eq_none hfind hpath hlocation⟩

/-! ## Command lines -/

/-- How a task ends, as an outcome. -/
def Invocation.outcome (invocation : Invocation) : Except String Unit × Transcript → Outcome
  | (.ok (), transcript) =>
    ⟨0, transcript.output, String.join (transcript.notices.map (Notice.render invocation))⟩
  | (.error reason, transcript) =>
    ⟨1, transcript.output,
      String.join ((transcript.notices ++ [Notice.failure reason]).map (Notice.render invocation))⟩

/-- A run of an invocation is the session of its task. -/
theorem run_invocation (invocation : Invocation) :
    (invocation.run : StateM Tree Outcome).run tree =
      (invocation.outcome (Session.on invocation.task.run ⟨"", []⟩ tree).1,
        (Session.on invocation.task.run ⟨"", []⟩ tree).2) := by
  have hon : Session.on invocation.task.run ⟨"", []⟩ tree =
    (invocation.task.run.run.run ⟨"", []⟩ : StateM Tree _).run tree := rfl
  unfold Invocation.run
  rw [Tree.run_bind, ← hon]
  generalize Session.on invocation.task.run ⟨"", []⟩ tree = reached
  obtain ⟨⟨result, transcript⟩, after⟩ := reached
  cases result <;> rfl

theorem run_of_on (invocation : Invocation) {transcript : Transcript} {after : Tree}
    (h : Session.on invocation.task.run ⟨"", []⟩ tree = ((.ok (), transcript), after)) :
    (invocation.run : StateM Tree Outcome).run tree =
      (invocation.outcome (.ok (), transcript), after) := by
  rw [run_invocation, h]

/-- The exit code tells how the task has ended. -/
theorem EndsWell.outcome {tree : Tree} {condition : String → Tree → Prop}
    {reached : (Except String Unit × Transcript) × Tree}
    (h : EndsWell tree condition reached) (invocation : Invocation) :
    ((invocation.outcome reached.1).code = 0 ∨ (invocation.outcome reached.1).code = 1) ∧
      ((invocation.outcome reached.1).code = 1 → (invocation.outcome reached.1).output = "" ∧
        ∀ location, reached.2.bytes? location = tree.bytes? location) ∧
      ((invocation.outcome reached.1).code = 0 →
        condition (invocation.outcome reached.1).output reached.2) := by
  obtain ⟨⟨result, transcript⟩, after⟩ := reached
  cases result with
  | error reason =>
    exact ⟨.inr rfl, fun _ => h, fun hcode => absurd hcode (by simp [Invocation.outcome])⟩
  | ok => exact ⟨.inl rfl, fun hcode => absurd hcode (by simp [Invocation.outcome]), fun _ => h⟩

/-- An accepted command line ends with code zero or one. With code one it has printed nothing and
changed no file. With code zero it has changed no file but the one it names: none for a listing or
for a generation that prints; for a generation into a file that file, which holds what the same
generation would print; for a start the settings file, and without `force` only if nothing was
found at its path, so that nothing is replaced where that path led to some place before or does not
go up. -/
theorem run_changes_only_target (arguments : List String) (environment : Option String)
    (tree : Tree) (invocation : Invocation)
    (h : Invocation.ofArguments arguments environment = .ok invocation) :
    let (outcome, after) := (run arguments environment : StateM Tree Outcome).run tree
    (outcome.code = 0 ∨ outcome.code = 1) ∧
      (outcome.code = 1 →
        outcome.output = "" ∧ ∀ location, after.bytes? location = tree.bytes? location) ∧
      (outcome.code = 0 →
        match invocation.task with
        | .list .. | .generate _ _ _ none => after = tree
        | .generate settings table signatures (some target) =>
          let printing := { invocation with task := .generate settings table signatures none }
          let (printed, unchanged) := (printing.run : StateM Tree Outcome).run tree
          outcome.output = "" ∧ printed.code = 0 ∧ unchanged = tree ∧
            tree.ChangesOnly after target printed.output.toUTF8
        | .start directory force =>
          let target := directory.join ⟨Settings.fileName⟩
          tree.ChangesOnly after target Settings.standard.render.toUTF8 ∧
            (force = false → tree.find? target = none ∧
              ((∃ there, tree.locate target = .ok there) ∨
                  (tree.IsClosed ∧ ".." ∉ target.pieces) →
                ∀ location, after.locate target = .ok location →
                  tree.node? location = none))) := by
  have hrun : (run arguments environment : StateM Tree Outcome).run tree =
      (invocation.run : StateM Tree Outcome).run tree := by
    unfold run
    rw [h]
  rw [hrun, run_invocation]
  obtain ⟨task, verbose, coloured⟩ := invocation
  cases task with
  | list settings table format =>
    exact (endsWell_runList tree [] settings table format).outcome _
  | start directory force =>
    exact (endsWell_runStart tree [] directory force).outcome _
  | generate settings table signatures output =>
    cases output with
    | none => exact (endsWell_runGenerate_none tree [] settings table signatures).outcome _
    | some target =>
      have hends := (endsWell_runGenerate_some tree [] settings table signatures target).outcome
        ⟨.generate settings table signatures (some target), verbose, coloured⟩
      refine ⟨hends.1, hends.2.1, fun hcode => ?_⟩
      obtain ⟨houtput, transcript, hprinted, hchanges⟩ := hends.2.2 hcode
      dsimp only
      rw [run_of_on tree ⟨.generate settings table signatures none, verbose, coloured⟩ hprinted]
      exact ⟨houtput, rfl, rfl, hchanges⟩

/-- A start in an empty tree is accepted and writes the settings file. -/
theorem start_in_empty_tree :
    Invocation.ofArguments ["init"] none = .ok ⟨.start ⟨"."⟩ false, false, true⟩ ∧
      let (outcome, after) := (run ["init"] none : StateM Tree Outcome).run ⟨[], []⟩
      outcome.code = 0 ∧
        (Tree.mk [] []).ChangesOnly after (Path.join ⟨"."⟩ ⟨Settings.fileName⟩)
          Settings.standard.render.toUTF8 := by
  have haccepted : Invocation.ofArguments ["init"] none =
      .ok ⟨.start ⟨"."⟩ false, false, true⟩ := rfl
  have hcode : ((run ["init"] none : StateM Tree Outcome).run ⟨[], []⟩).1.code = 0 := by
    decide +kernel
  obtain ⟨-, -, hstart⟩ := run_changes_only_target ["init"] none ⟨[], []⟩ _ haccepted
  exact ⟨haccepted, hcode, (hstart hcode).1⟩

/-- The text of a settings file that is there before a start. -/
def oldSettings : String := "[table]\nlayout = \"member-first\"\n"

/-- A tree with nothing but an old settings file in the directory that relative paths start from. -/
def besideOldSettings : Tree :=
  ⟨[([Settings.fileName], .file oldSettings.toUTF8)], []⟩

/-- A start without `force` replaces an old settings file: the path finds nothing until the
directory that it goes up from is made, and then it leads to the old file. -/
theorem start_replaces_old_settings :
    let directory : Path := ⟨"missing/.."⟩
    let (outcome, after) :=
      (run ["init", directory.text] none : StateM Tree Outcome).run besideOldSettings
    Invocation.ofArguments ["init", directory.text] none =
        .ok ⟨.start directory false, false, true⟩ ∧
      outcome.code = 0 ∧
      besideOldSettings.bytes? [Settings.fileName] = some oldSettings.toUTF8 ∧
      after.locate (directory.join ⟨Settings.fileName⟩) = .ok [Settings.fileName] ∧
      after.bytes? [Settings.fileName] = some Settings.standard.render.toUTF8 ∧
      Settings.standard.render ≠ oldSettings := by
  refine ⟨rfl, ?_, rfl, rfl, rfl, ?_⟩
  · decide +kernel
  · decide +kernel

end CallTable.Command
