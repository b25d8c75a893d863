/-!
# Paths

A path is a text. Slashes divide it into segments; empty segments and single dots count only at
the start, where they make the path absolute or name the current directory. The spelling of a path
is kept, so two paths can name the same components and still differ as texts.

## Main definitions

* `Path.segments`, `Path.components`: the parts of a path.
* `Path.join`, `Path.parent?`, `Path.ancestors`: paths from paths.
* `Path.fileName?`, `Path.extension?`: the last name and its ending.
* `Path.compare`: the order of paths by their components.
-/

namespace ViewLint.Path

/-- The parts of a text between slashes. -/
def splitSlashes : List Char → List (List Char)
  | [] => [[]]
  | c :: rest =>
    if c == '/' then [] :: splitSlashes rest
    else
      match splitSlashes rest with
      | [] => [[c]]
      | segment :: segments => (c :: segment) :: segments

/-- The segments of a path. -/
def segments (path : String) : List String :=
  (splitSlashes path.toList).map String.ofList

/-- A component of a path. -/
inductive Component where
  | root
  | current
  | parent
  | name (text : String)
deriving DecidableEq, Repr

/-- The component that a segment after the first names, if any. -/
def Component.ofSegment? (segment : String) : Option Component :=
  if segment = "" ∨ segment = "." then none
  else if segment = ".." then some .parent
  else some (.name segment)

/-- The components of a path. -/
def components (path : String) : List Component :=
  match segments path with
  | [] => []
  | [first] =>
    if first = "." then [.current] else (Component.ofSegment? first).toList
  | first :: rest =>
    let start :=
      if first = "" then [Component.root]
      else if first = "." then [.current]
      else (Component.ofSegment? first).toList
    start ++ rest.filterMap Component.ofSegment?

/-- Whether a path starts at the root. -/
def isAbsolute (path : String) : Bool :=
  path.toList.head? == some '/'

/-- A path from another one: an absolute path stands alone, and a slash is put in between where
there is none. -/
def join (base path : String) : String :=
  if isAbsolute path then path
  else if base = "" ∨ base.toList.getLast? = some '/' then base ++ path
  else base ++ "/" ++ path

/-- Whether a segment after the first names nothing. -/
def isIdle (segment : String) : Bool :=
  (Component.ofSegment? segment).isNone

/-- Segments as a path. -/
def ofSegments (segments : List String) : String :=
  String.intercalate "/" segments

/-- The path without its last component, if it has one other than the root. -/
def parent? (path : String) : Option String :=
  match segments path with
  | [] => none
  | first :: rest =>
    match rest.reverse.dropWhile isIdle with
    | _ :: front =>
      match front.dropWhile isIdle with
      | [] => some (if first = "" then "/" else first)
      | kept => some (ofSegments (first :: kept.reverse))
    | [] => if first = "" then none else some ""

/-- The path, its parent, the parent of that and so on; `limit` bounds their number. -/
def chain : Nat → String → List String
  | 0, _ => []
  | limit + 1, path =>
    match parent? path with
    | none => [path]
    | some parent => path :: chain limit parent

/-- The path and the paths above it, nearest first. -/
def ancestors (path : String) : List String :=
  chain ((segments path).length + 1) path

/-- The last component, if it is a name. -/
def fileName? (path : String) : Option String :=
  match (components path).getLast? with
  | some (.name text) => some text
  | _ => none

/-- The ending of a file name: what follows its last dot, if something stands before that dot. -/
def extension? (path : String) : Option String :=
  match fileName? path with
  | none => none
  | some name =>
    let reversed := name.toList.reverse
    match reversed.dropWhile (· != '.') with
    | _ :: _ :: _ => some (String.ofList (reversed.takeWhile (· != '.')).reverse)
    | _ => none

/-! ### Order -/

/-- The rank of the kind of a component. -/
def Component.rank : Component → Nat
  | .root => 0
  | .current => 1
  | .parent => 2
  | .name _ => 3

/-- The order of components: by kind, and names by their characters. -/
def Component.compare : Component → Component → Ordering
  | .name a, .name b => Ord.compare a b
  | a, b => Ord.compare a.rank b.rank

/-- The order of lists of components, in which a list comes after its beginnings. -/
def compareComponents : List Component → List Component → Ordering
  | [], [] => .eq
  | [], _ :: _ => .lt
  | _ :: _, [] => .gt
  | a :: as, b :: bs => (a.compare b).then (compareComponents as bs)

/-- The order of paths by their components. -/
def compare (a b : String) : Ordering :=
  compareComponents (components a) (components b)

end ViewLint.Path
