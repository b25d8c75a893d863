import ViewLint.Files.Exclusion
import ViewLint.Files.Ignore

/-!
# Searching source files

The source files below a root are the files with the ending of C# sources. Directories that a
pattern excludes are not searched, and neither is what ignore files name. The root itself is always
searched, and a root that is a file stands for itself.

## Main definitions

* `Entry.sources`: the source files below a directory.
* `FileSystem.sourceFiles`: the source files of one root, in order.
* `FileSystem.collectFiles`: the source files of several roots, each path once.
-/

namespace ViewLint

/-- Whether a path has the ending of C# sources. -/
def isSource (path : String) : Bool :=
  Path.extension? path == some "cs"

mutual

/-- The source files of an entry that is reached by a path. The layers are those of the directories
around it. -/
def Entry.sources (patterns : List String) (layers : List IgnoreLayer) (place : Location)
    (path : String) : Entry → List String
  | .file _ => if isSource path then [path] else []
  | .directory entries =>
    sourcesIn patterns (IgnoreLayer.of (.directory entries) place.length :: layers) place path
      entries

/-- The source files of the entries of a directory. -/
def sourcesIn (patterns : List String) (layers : List IgnoreLayer) (place : Location)
    (path : String) : List (String × Entry) → List String
  | [] => []
  | (name, e) :: rest =>
    let here := place ++ [name]
    let skipped := isIgnored layers here !e.isFile || (!e.isFile && Files.isExcluded patterns name)
    let found := if skipped then [] else e.sources patterns layers here (Path.join path name)
    found ++ sourcesIn patterns layers place path rest

end

/-- The layers of the directories above a place, innermost first. -/
def FileSystem.layersAbove (fs : FileSystem) (place : Location) : List IgnoreLayer :=
  ((List.range place.length).map fun depth =>
    IgnoreLayer.of ((fs.root.at? (place.take depth)).getD (.directory [])) depth).reverse

/-- The order of paths. -/
def Path.isBefore (a b : String) : Bool :=
  (Path.compare a b).isLE

/-- Whether a path is a single dash, which names the standard input in the place of a directory. -/
def Path.isDash (path : String) : Bool :=
  Path.components path == [.name "-"]

namespace FileSystem

/-- The source files of a root in order. There are none in the standard input. -/
def sourceFiles (fs : FileSystem) (excluded : List String) (root : String) : List String :=
  if fs.isFile root then if isSource root then [root] else []
  else if Path.isDash root then []
  else
    match fs.resolve root with
    | .error _ => []
    | .ok place =>
      match fs.root.at? place with
      | some directory =>
        (directory.sources (excluded ++ Files.defaultFolders) (fs.layersAbove place) place
          root).mergeSort Path.isBefore
      | none => []

end FileSystem

/-- The paths without those that have the same components as the path before them. -/
def dropRepeated : List String → List String
  | [] => []
  | path :: rest => path :: go (Path.components path) rest
where
  /-- The paths after one with the given components. -/
  go (last : List Path.Component) : List String → List String
    | [] => []
    | path :: rest =>
      let components := Path.components path
      if components = last then go last rest else path :: go components rest

/-- The source files of some roots in order, each path once. Without roots it is the working
directory. -/
def FileSystem.collectFiles (fs : FileSystem) (excluded roots : List String) : List String :=
  let roots := if roots.isEmpty then ["."] else roots
  dropRepeated ((roots.flatMap (fs.sourceFiles excluded)).mergeSort Path.isBefore)

end ViewLint
