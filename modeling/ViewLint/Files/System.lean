import ViewLint.Files.Path

/-!
# File systems

A file system is a finite tree of directories and files, with one directory as the working
directory. There are no links, so a place in the tree is the list of names that lead to it.

## Main definitions

* `Entry`: files and directories.
* `FileSystem`: the tree and the working directory.
* `FileSystem.locate`: the place to which a path leads, whether or not anything stands there.
* `FileSystem.resolve`: the place of what a path names.
* `FileSystem.readText`, `FileSystem.write`: the content of a file, and a new content.
-/

namespace ViewLint

/-- A file with its bytes, or a directory with its entries by name. -/
inductive Entry where
  | file (bytes : ByteArray)
  | directory (entries : List (String × Entry))
deriving Inhabited

/-- A place in a tree: the names that lead to it. -/
abbrev Location := List String

namespace Entry

/-- Whether the entry is a file. -/
def isFile : Entry → Bool
  | .file _ => true
  | .directory _ => false

/-- The entry with a name in a directory. -/
def child? (name : String) : Entry → Option Entry
  | .directory entries => entries.lookup name
  | .file _ => none

/-- The entry at a place. -/
def at? : Entry → Location → Option Entry
  | e, [] => some e
  | e, name :: rest =>
    match e.child? name with
    | some c => c.at? rest
    | none => none

/-- The entries with another one under a name. -/
def replaceIn (name : String) (new : Entry) (entries : List (String × Entry)) :
    List (String × Entry) :=
  if (entries.lookup name).isSome then
    entries.map fun e => if e.1 == name then (name, new) else e
  else entries ++ [(name, new)]

/-- The tree with an entry put at a place. Directories that are missing on the way are made; a file
on the way leaves the tree as it is. -/
def put : Entry → Location → Entry → Entry
  | _, [], new => new
  | .file bytes, _ :: _, _ => .file bytes
  | .directory entries, name :: rest, new =>
    .directory (replaceIn name (((entries.lookup name).getD (.directory [])).put rest new) entries)

end Entry

/-- The place to which a component of a path leads, whatever stands there. -/
def Path.Component.move (place : Location) : Path.Component → Location
  | .root => []
  | .current => place
  | .parent => place.dropLast
  | .name text => place ++ [text]

/-- Why a file cannot be read. -/
inductive FileProblem where
  | notFound
  | notADirectory
  | isADirectory
  /-- The content is no UTF-8. -/
  | notText
deriving DecidableEq, Repr

/-- The message of a problem. -/
def FileProblem.message : FileProblem → String
  | .notFound => "No such file or directory (os error 2)"
  | .notADirectory => "Not a directory (os error 20)"
  | .isADirectory => "Is a directory (os error 21)"
  | .notText => "stream did not contain valid UTF-8"

/-- A tree of files and the place of the working directory in it. -/
structure FileSystem where
  root : Entry
  here : Location

namespace FileSystem

/-- The place to which the components of a path lead, whatever stands there. -/
def locate (fs : FileSystem) (path : String) : Location :=
  (Path.components path).foldl Path.Component.move fs.here

/-- One step from a place along a segment of a path. -/
def step (fs : FileSystem) (place : Location) (segment : String) : Except FileProblem Location :=
  match fs.root.at? place with
  | none => .error .notFound
  | some (.file _) => .error .notADirectory
  | some (.directory entries) =>
    match Path.Component.ofSegment? segment with
    | some (.name name) =>
      if (entries.lookup name).isSome then .ok (place ++ [name]) else .error .notFound
    | some .parent => .ok place.dropLast
    | _ => .ok place

/-- The place that a path names. -/
def resolve (fs : FileSystem) (path : String) : Except FileProblem Location :=
  if path = "" then .error .notFound
  else
    let start := if Path.isAbsolute path then [] else fs.here
    (Path.segments path).foldlM fs.step start

/-- The entry that a path names. -/
def entry (fs : FileSystem) (path : String) : Except FileProblem Entry := do
  let place ← fs.resolve path
  match fs.root.at? place with
  | some e => .ok e
  | none => .error .notFound

/-- Whether a path names a file. -/
def isFile (fs : FileSystem) (path : String) : Bool :=
  (fs.entry path).toOption.any Entry.isFile

/-- The bytes of the file that a path names. -/
def read (fs : FileSystem) (path : String) : Except FileProblem ByteArray := do
  match ← fs.entry path with
  | .file bytes => .ok bytes
  | .directory _ => .error .isADirectory

/-- The text of the file that a path names. -/
def readText (fs : FileSystem) (path : String) : Except FileProblem String := do
  match String.fromUTF8? (← fs.read path) with
  | some text => .ok text
  | none => .error .notText

/-- The file system with a new content of the file that a path names. A path that names nothing
leaves it as it is. -/
def write (fs : FileSystem) (path text : String) : FileSystem :=
  match fs.resolve path with
  | .ok place => { fs with root := fs.root.put place (.file text.toUTF8) }
  | .error _ => fs

end FileSystem

end ViewLint
