/-!
# Events

While it works, the generator reports what a reader of its log may want to know: what was skipped,
what was corrected, what was left out. An event is a value; its level and its wording are
functions of it, and a computation that reports events carries them beside its result.
-/

namespace CallTable

/-- How much attention an event asks for. -/
inductive Level where
  | debug
  | info
  | warn
  deriving DecidableEq, Repr

/-- The name of a level in a log line. -/
def Level.name : Level → String
  | .debug => "DEBUG"
  | .info => "INFO"
  | .warn => "WARN"

/-- Something worth reporting about a run. -/
inductive Event where
  /-- A table declaration that does not declare a function. -/
  | fieldSkipped (field : String)
  /-- A table dump was read, with this many pointer types in it. -/
  | tableRead (entries : Nat)
  /-- A correction replaced the member of a pointer type. -/
  | memberReplaced (pointerType earlier later : String)
  /-- A correction named a pointer type that the table lacks. -/
  | memberAdded (pointerType member : String)
  /-- A line of a parameter list that declares no parameter. -/
  | lineDropped (pointerType line : String)
  /-- Both dumps were read. -/
  | dumpsRead (entries signatures : Nat)
  /-- No alias of the signature dump calls for a wrapper. -/
  | noCandidates
  /-- A member of the table does not carry the common start of all members. -/
  | memberForeign (pointerType member memberPrefix : String)
  /-- A wrapper is about to be written. -/
  | wrapperWritten (name member : String)
  /-- There is no settings file at the path. -/
  | settingsMissing (path : String)
  /-- A file was written. -/
  | fileWritten (path : String)
  /-- A run ended with this many wrappers. -/
  | wrappersGenerated (wrappers entries : Nat)
  /-- The final table was printed. -/
  | tablePrinted (entries : Nat)
  deriving DecidableEq, Repr

namespace Event

/-- The level of an event. Lost lines, foreign members and an empty dump are warnings; the outcome
of a command is information; the rest helps only when a run is looked into. -/
def level : Event → Level
  | .lineDropped .. | .noCandidates | .memberForeign .. => .warn
  | .fileWritten .. | .wrappersGenerated .. | .tablePrinted .. => .info
  | .fieldSkipped .. | .tableRead .. | .memberReplaced .. | .memberAdded .. | .dumpsRead ..
  | .wrapperWritten .. | .settingsMissing .. => .debug

/-- The wording of an event. -/
def message : Event → String
  | .fieldSkipped field => s!"skipping non-function field `{field}`"
  | .tableRead entries => s!"parsed {entries} table entries"
  | .memberReplaced pointerType earlier later =>
    s!"override {pointerType}: {earlier} -> {later}"
  | .memberAdded pointerType member => s!"override {pointerType}: added {member}"
  | .lineDropped pointerType line =>
    s!"{pointerType}: dropping parameter line that is not `name: type,`: {line}"
  | .dumpsRead entries signatures => s!"{entries} mapping entries, {signatures} signatures"
  | .noCandidates => "signature dump contains no wrapper candidates"
  | .memberForeign pointerType member memberPrefix =>
    s!"{pointerType}: member `{member}` does not start with `{memberPrefix}`"
  | .wrapperWritten name member => s!"emitting {name} via {member}"
  | .settingsMissing path => s!"no config at {path}, using defaults"
  | .fileWritten path => s!"wrote {path}"
  | .wrappersGenerated wrappers entries =>
    s!"generated {wrappers} wrappers ({entries} mapping entries)"
  | .tablePrinted entries => s!"{entries} mapping entries"

end Event

/-- A value together with the events reported on the way to it, oldest first. -/
@[ext] structure Logged (α : Type) where
  value : α
  events : List Event
  deriving Repr

namespace Logged

/-- A value reached in silence reports nothing; in a sequence the earlier events come first. -/
instance : Monad Logged where
  pure a := ⟨a, []⟩
  bind x f := ⟨(f x.value).value, x.events ++ (f x.value).events⟩

/-- Reports one event. -/
def report (event : Event) : Logged Unit :=
  ⟨(), [event]⟩

@[simp] theorem value_pure {α : Type} (a : α) : (pure a : Logged α).value = a := rfl

@[simp] theorem events_pure {α : Type} (a : α) : (pure a : Logged α).events = [] := rfl

@[simp] theorem value_bind {α β : Type} (x : Logged α) (f : α → Logged β) :
    (x >>= f).value = (f x.value).value := rfl

@[simp] theorem events_bind {α β : Type} (x : Logged α) (f : α → Logged β) :
    (x >>= f).events = x.events ++ (f x.value).events := rfl

@[simp] theorem value_report (event : Event) : (report event).value = () := rfl

@[simp] theorem events_report (event : Event) : (report event).events = [event] := rfl

/-- Reporting in sequence is associative and silence is neutral, as the laws of a monad ask. -/
instance : LawfulMonad Logged :=
  LawfulMonad.mk' Logged (fun x => by ext1 <;> simp [Functor.map]) (fun _ _ => rfl)
    (fun _ _ _ => by ext1 <;> simp)

end Logged

end CallTable
