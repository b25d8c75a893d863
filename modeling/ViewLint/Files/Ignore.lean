import ViewLint.Files.Glob
import ViewLint.Files.System
import ViewLint.Text.Blank
import ViewLint.Text.Cut

/-!
# Ignored files

A directory can hold an `.ignore` file, a `.gitignore` file, and the exclusions of a repository in
`.git/info/exclude`. Their rules hold for everything below the directory. The files of a repository
count only inside one, and not beyond its top directory.

## Main definitions

* `IgnoreRule`: a line of an ignore file.
* `IgnoreLayer`: the rules of one directory.
* `verdict?`: what the rules of the directories around an entry say about it.
-/

namespace ViewLint

/-- A rule of an ignore file. -/
structure IgnoreRule where
  pattern : List Glob.Token
  /-- The rule takes the entries that it matches out of the ignored ones. -/
  keeps : Bool
  /-- The rule holds for directories only. -/
  directoriesOnly : Bool

namespace IgnoreRule

/-- The pattern of a rule that names no directory holds at any depth. -/
def anchored (absolute : Bool) (line : List Char) : List Char :=
  let isFree := !absolute && !line.contains '/' &&
    !(Text.startsWith ['*', '*', '/'] line || line == ['*', '*'])
  let pattern := if isFree then ['*', '*', '/'] ++ line else line
  if Text.endsWith ['/', '*', '*'] pattern then pattern ++ ['/', '*'] else pattern

/-- The rule that a line gives. A line that starts with `#` is a comment, one that starts with `!`
keeps what it matches, and one that ends with a slash holds for directories. -/
def ofLine? (line : String) : Option IgnoreRule := do
  let cs := line.toList
  if cs.head? == some '#' then none
  else
    let cs := if Text.endsWith ['\\', ' '] cs then cs else Text.trimEnd cs
    if cs.isEmpty then none
    else
      let escaped := Text.startsWith ['\\', '!'] cs || Text.startsWith ['\\', '#'] cs
      let cs := if escaped then cs.drop 1 else cs
      let keeps := !escaped && cs.head? == some '!'
      let cs := if keeps then cs.drop 1 else cs
      let absolute := !escaped && cs.head? == some '/'
      let cs := if absolute then cs.drop 1 else cs
      let directoriesOnly := cs.getLast? == some '/'
      let cs := if directoriesOnly then cs.dropLast else cs
      let cs := if directoriesOnly && cs.getLast? == some '\\' then cs.dropLast else cs
      return ⟨← Glob.parse? (anchored absolute cs), keeps, directoriesOnly⟩

end IgnoreRule

/-! ### Ignore files -/

/-- The lines of a content without their ends. -/
def byteLines (bytes : List UInt8) : List (List UInt8) :=
  let lines := split bytes
  let lines := if lines.getLast? == some [] then lines.dropLast else lines
  lines.map fun line => if line.getLast? == some 13 then line.dropLast else line
where
  /-- The parts between line feeds. -/
  split : List UInt8 → List (List UInt8)
    | [] => [[]]
    | b :: rest =>
      if b == 10 then [] :: split rest
      else
        match split rest with
        | [] => [[b]]
        | line :: lines => (b :: line) :: lines

/-- The rules of an ignore file. Reading stops at a line that is no text, and a byte order mark in
front is passed over. -/
def ignoreRules (bytes : ByteArray) : List IgnoreRule :=
  let lines := (byteLines bytes.toList).map fun line => String.fromUTF8? ⟨line.toArray⟩
  let texts := (lines.takeWhile Option.isSome).filterMap id
  match texts with
  | [] => []
  | first :: rest =>
    let first := String.ofList (first.toList.dropWhile (·.toNat == 0xFEFF))
    (first :: rest).filterMap IgnoreRule.ofLine?

/-- The rules of the file at a place below a directory. -/
def rulesAt (directory : Entry) (place : Location) : List IgnoreRule :=
  match directory.at? place with
  | some (.file bytes) => ignoreRules bytes
  | _ => []

/-- The rules that a directory brings. -/
structure IgnoreLayer where
  /-- The depth of the directory. -/
  depth : Nat
  ignore : List IgnoreRule
  gitIgnore : List IgnoreRule
  gitExclude : List IgnoreRule
  /-- The directory is the top of a repository. -/
  isRepository : Bool

/-- The rules of a directory at a depth. -/
def IgnoreLayer.of (directory : Entry) (depth : Nat) : IgnoreLayer where
  depth := depth
  ignore := rulesAt directory [".ignore"]
  gitIgnore := rulesAt directory [".gitignore"]
  gitExclude := rulesAt directory [".git", "info", "exclude"]
  isRepository := (directory.child? ".git").isSome

/-! ### Verdicts -/

/-- What rules say about a path below their directory: the last that matches decides, and nothing
is said if none does. The answer tells whether the path is ignored. -/
def rulesVerdict? (rules : List IgnoreRule) (path : String) (isDirectory : Bool) : Option Bool :=
  (rules.reverse.find? fun r =>
    (!r.directoriesOnly || isDirectory) && Glob.matches? r.pattern path).map fun r => !r.keeps

/-- The layers up to the top of the innermost repository. -/
def repositoryLayers : List IgnoreLayer → List IgnoreLayer
  | [] => []
  | l :: ls => if l.isRepository then [l] else l :: repositoryLayers ls

/-- What the layers around an entry, innermost first, say about it: of each kind of file the
innermost that says something counts, and `.ignore` files come before `.gitignore` files and those
before exclusions. -/
def verdict? (layers : List IgnoreLayer) (place : Location) (isDirectory : Bool) : Option Bool :=
  let ask (rules : IgnoreLayer → List IgnoreRule) (l : IgnoreLayer) : Option Bool :=
    rulesVerdict? (rules l) (Path.ofSegments (place.drop l.depth)) isDirectory
  let inRepository := layers.any (·.isRepository)
  let own := if inRepository then repositoryLayers layers else []
  (layers.findSome? (ask (·.ignore))).or
    ((own.findSome? (ask (·.gitIgnore))).or (own.findSome? (ask (·.gitExclude))))

/-- Whether the layers around an entry ignore it. -/
def isIgnored (layers : List IgnoreLayer) (place : Location) (isDirectory : Bool) : Bool :=
  verdict? layers place isDirectory == some true

end ViewLint
