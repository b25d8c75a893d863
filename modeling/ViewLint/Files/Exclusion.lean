import ViewLint.Text.Cut

/-!
# Folders that are not searched

A pattern that starts with `*.` excludes every name with the ending that follows the star; any
other pattern excludes the name that it spells.
-/

namespace ViewLint.Files

/-- Whether a pattern excludes a name. -/
def excludedBy (pattern name : String) : Bool :=
  match pattern.toList with
  | '*' :: '.' :: rest => Text.endsWith ('.' :: rest) name.toList
  | _ => name == pattern

/-- Whether some pattern excludes a name. -/
def isExcluded (patterns : List String) (name : String) : Bool :=
  patterns.any (excludedBy · name)

/-- The folders that are never searched: those of tools, of build results and of packages. They
are listed in the order in which reports name them. -/
def defaultFolders : List String :=
  [".git", ".vs", "bin", "node_modules", "obj", "packages"]

end ViewLint.Files
