import CallTable.Diagnostic
import CallTable.Identifier
import CallTable.MemberMap
import CallTable.Sink
import CallTable.TypeName
import CallTable.Wrapper

/-!
# Generation

A run reads both dumps, binds every alias that calls for a wrapper to its member, and only then
writes the wrappers in the order of the signature dump. An alias without a member stops the run
before anything is written; a sink that takes no more stops it in the middle.
-/

namespace CallTable

open Text

/-- What a run can be told: the order of the table's columns, the common start of all members, the
namespace of the library's types, the elementary types, and the corrections to the table. -/
structure Options where
  order : ColumnOrder
  memberPrefix : String
  typeNamespace : String
  known : List String
  corrections : List Entry
  deriving DecidableEq, Repr

namespace Options

/-- The corrections that every table of the library needs. -/
def standardCorrections : List Entry :=
  [⟨"PNVENCGETENCODEPROFILEGUIDCOUNT", "nvEncGetEncodeProfileGUIDCount"⟩,
    ⟨"PNVENCGETENCODEPROFILEGUIDS", "nvEncGetEncodeProfileGUIDs"⟩]

/-- The options of a run that is told nothing. -/
def standard : Options where
  order := .typeFirst
  memberPrefix := "nvEnc"
  typeNamespace := "crate::sys::"
  known := ["u32", "u64", "i32", "i64", "::std::os::raw::c_int"]
  corrections := standardCorrections

end Options

/-- Why a run fails. -/
inductive GenerationError where
  /-- The table has no member for a pointer type. -/
  | unresolved (pointerType : String)
  /-- The sink refused a text, for the given reason. -/
  | refused (reason : String)
  deriving DecidableEq, Repr

namespace GenerationError

/-- The wording of a failure. -/
def message : GenerationError → String
  | .unresolved pointerType => s!"no table member found for pointer type `{pointerType}`"
  | .refused reason => s!"failed to write generated wrappers: {reason}"

/-- The code under which a failure is known. -/
def code : GenerationError → String
  | .unresolved _ => "wrapgen::generate::unresolved_pointer_type"
  | .refused _ => "wrapgen::generate::io"

/-- What a user can do about a failure, in one sentence. -/
def help : GenerationError → Option String
  | .unresolved _ => some "Add an [[overrides]] entry for this pointer type to wrapgen.toml"
  | .refused _ => none

/-- The advice for a table whose columns may be the other way round. -/
def checkTableLayout : String :=
  "Check that [table] layout in wrapgen.toml matches the column order of the table dump"

/-- The advice for an output that cannot be written. -/
def checkOutput : String :=
  "Check that the output path is writable"

/-- The failure as a message for a person. -/
def diagnostic (failure : GenerationError) : Diagnostic :=
  let plain := Diagnostic.plain .error failure.message
  match failure with
  | .unresolved pointerType =>
    ((plain.withContext "the signature dump declares it but the table dump does not").withContext
        "no wrappers were emitted").withSuggestion
          ("Add `[[overrides]]` with pointer_type = \"" ++ pointerType ++ "\" to wrapgen.toml")
      |>.withSuggestion checkTableLayout
  | .refused _ => plain.withSuggestion checkOutput

end GenerationError

/-- The part of a member's name after the common start of all members. It is cut off by its length
in bytes, whatever the member starts with; a cut that falls inside a character or beyond the end
leaves nothing. -/
def memberStem (memberPrefix member : String) : List Char :=
  (afterBytes? memberPrefix.utf8ByteSize member.toList).getD []

/-- A parameter as a wrapper declares it. -/
def Parameter.adapt (options : Options) (parameter : Parameter) : Parameter where
  name := String.ofList (Identifier.snakeCase parameter.name.toList)
  type := TypeName.qualify options.known options.typeNamespace parameter.type

/-- The wrapper for a signature whose member is known. -/
def Signature.wrapper (options : Options) (signature : Signature) (member : String) : Wrapper where
  name := String.ofList (Identifier.snakeCase (memberStem options.memberPrefix member))
  member := member
  parameters := signature.parameters.map (·.adapt options)

/-- Finds the member for a signature and makes its wrapper. A member without the common start is
reported. -/
def Signature.resolve (options : Options) (map : MemberMap) (signature : Signature) :
    ExceptT GenerationError Logged Wrapper := do
  match map[signature.pointerType]? with
  | none => throw (.unresolved signature.pointerType)
  | some member =>
    if !options.memberPrefix.toList.isPrefixOf member.toList then
      Logged.report (.memberForeign signature.pointerType member options.memberPrefix)
    return signature.wrapper options member

/-- The wrappers for all signatures, or the failure of the first that has none. -/
def resolveAll (options : Options) (map : MemberMap) (signatures : List Signature) :
    ExceptT GenerationError Logged (List Wrapper) :=
  signatures.mapM (·.resolve options map)

/-- Writes wrappers one after the other, piece by piece, until the sink refuses a piece. -/
def writeWrappers (sink : Sink) : List Wrapper → Logged (Except GenerationError Unit × Sink)
  | [] => pure (.ok (), sink)
  | wrapper :: wrappers => do
    Logged.report (.wrapperWritten wrapper.name wrapper.member)
    let (isWhole, written) := sink.writeAll wrapper.pieces
    if isWhole then writeWrappers written wrappers
    else return (.error (.refused sink.refusal), written)

/-- Resolves all signatures and writes their wrappers. The sink is untouched if one of them cannot
be resolved. -/
def resolveAndWrite (options : Options) (map : MemberMap) (signatures : List Signature)
    (sink : Sink) : Logged (Except GenerationError (List Wrapper) × Sink) := do
  match ← (resolveAll options map signatures).run with
  | .error failure => return (.error failure, sink)
  | .ok wrappers =>
    let (outcome, sink) ← writeWrappers sink wrappers
    return (outcome.map fun _ => wrappers, sink)

/-- The table after its corrections. -/
def finalTable (options : Options) (tableDump : String) : Logged MemberMap := do
  let map ← MemberMap.ofDump options.order options.memberPrefix tableDump
  map.correctAll options.corrections

/-- A line that was left out of a wrapper. -/
structure DroppedLine where
  pointerType : String
  line : String
  deriving DecidableEq, Repr

/-- What a run that ended well has done. -/
structure Report where
  wrappers : Nat
  entries : Nat
  dropped : List DroppedLine
  deriving DecidableEq, Repr

/-- The lines that the signatures leave out, in the order of the dump. -/
def droppedLines (signatures : List Signature) : List DroppedLine :=
  signatures.flatMap fun signature => signature.dropped.map (⟨signature.pointerType, ·⟩)

/-- Generates the wrappers for two dumps into a sink. -/
def generate (options : Options) (tableDump signatureDump : String) (sink : Sink) :
    Logged (Except GenerationError Report × Sink) := do
  let map ← finalTable options tableDump
  let signatures ← Signature.ofDump signatureDump
  Logged.report (.dumpsRead map.size signatures.length)
  if signatures.isEmpty then Logged.report .noCandidates
  let (outcome, sink) ← resolveAndWrite options map signatures sink
  return (outcome.map fun wrappers => ⟨wrappers.length, map.size, droppedLines signatures⟩, sink)

end CallTable
