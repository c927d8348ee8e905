import CallTable.Files.Access

/-!
# File trees

A file tree as a value: what stands at which location below the root, and the location that
relative paths start from. Looking a path up walks through its components, and each of them that
is not the last has to be a directory. Nothing is ever taken away from a tree, so it is a record
of writes of which the latest counts.
-/

namespace CallTable

/-- The names on the way from the root to a file or directory. -/
abbrev Location := List String

/-- A file with its bytes, or a directory. -/
inductive Node where
  | file (bytes : ByteArray)
  | directory

/-- The kind of a node. -/
def Node.kind : Node → FileKind
  | .file _ => .file
  | .directory => .directory

/-- A file tree: the writes to it, latest first, and the location that relative paths start from.
-/
structure Tree where
  writes : List (Location × Node)
  start : Location

namespace Tree

/-- What stands at a location. The root is always a directory. -/
def node? (tree : Tree) (location : Location) : Option Node :=
  match location with
  | [] => some .directory
  | _ => tree.writes.lookup location

/-- Puts a node at a location. -/
def put (tree : Tree) (location : Location) (node : Node) : Tree :=
  { tree with writes := (location, node) :: tree.writes }

/-- Putting a node changes what stands at its location and nothing else. The root stays a
directory. -/
theorem node?_put (tree : Tree) (location other : Location) (node : Node) (h : other ≠ []) :
    (tree.put location node).node? other =
      if other = location then some node else tree.node? other := by
  cases other with
  | nil => simp at h
  | cons name names =>
    by_cases hloc : name :: names = location <;>
      simp [node?, put, List.lookup_cons, hloc, beq_false_of_ne]

/-- Goes from a location through the pieces of a path. The pieces that are empty or a dot stay
where they are, two dots go up, and the root is above itself. -/
def walk (tree : Tree) (here : Location) : List String → Except Cause Location
  | [] => .ok here
  | piece :: pieces =>
    match tree.node? here with
    | none => .error .notFound
    | some (.file _) => .error .notDirectory
    | some .directory =>
      if piece = "" ∨ piece = "." then tree.walk here pieces
      else if piece = ".." then tree.walk here.dropLast pieces
      else tree.walk (here ++ [piece]) pieces

/-- Where a path starts from. -/
def origin (tree : Tree) (path : Path) : Location :=
  if path.isAbsolute then [] else tree.start

/-- The location that a path names. Nothing needs to stand there. -/
def locate (tree : Tree) (path : Path) : Except Cause Location :=
  if path.text = "" then .error .notFound else tree.walk (tree.origin path) path.pieces

/-- What stands at a path. -/
def find? (tree : Tree) (path : Path) : Option Node :=
  match tree.locate path with
  | .error _ => none
  | .ok location => tree.node? location

/-- The bytes of the file at a path. -/
def read (tree : Tree) (path : Path) : Except Cause ByteArray := do
  match tree.node? (← tree.locate path) with
  | none => .error .notFound
  | some .directory => .error .isDirectory
  | some (.file bytes) => .ok bytes

/-- The location of something new: the directory that the path leads to before its last piece, and
that piece. The cause is what the system says of a path whose last piece is no name. -/
def locateNew (tree : Tree) (path : Path) (pieces : List String) (unnamed : Cause) :
    Except Cause Location := do
  if path.text = "" then .error .notFound
  else
    let name := pieces.getLast?.getD ""
    let parent ← tree.walk (tree.origin path) (pieces.dropLast ++ [""])
    if name = "" ∨ name = "." ∨ name = ".." then .error unnamed else .ok (parent ++ [name])

/-- The pieces of a path without the empty ones at its end. -/
def namedPieces (path : Path) : List String :=
  (path.pieces.reverse.dropWhile (· = "")).reverse

/-- Makes the file at a path hold the bytes. A path that ends in a slash can only name a
directory. -/
def write (tree : Tree) (path : Path) (bytes : ByteArray) : Except Cause Tree := do
  let location ← tree.locateNew path (namedPieces path) .isDirectory
  if path.text.toList.getLast? = some '/' then .error .isDirectory
  else match tree.node? location with
    | some .directory => .error .isDirectory
    | _ => .ok (tree.put location (.file bytes))

/-- Makes a directory at a path where nothing stands. -/
def makeDirectory (tree : Tree) (path : Path) : Except Cause Tree := do
  let location ← tree.locateNew path (namedPieces path) .alreadyExists
  match tree.node? location with
  | some _ => .error .alreadyExists
  | none => .ok (tree.put location .directory)

/-- Keeps the changed tree of an operation that succeeds. -/
def update (change : Tree → Except Cause Tree) : StateM Tree (Except Cause Unit) := fun tree =>
  match change tree with
  | .error cause => (.error cause, tree)
  | .ok changed => (.ok (), changed)

instance : FileSystem (StateM Tree) where
  readBytes path := fun tree => (tree.read path, tree)
  writeText path text := update (·.write path text.toUTF8)
  makeDirectory path := update (·.makeDirectory path)
  kind? path := fun tree => ((tree.find? path).map Node.kind, tree)

end Tree

end CallTable
