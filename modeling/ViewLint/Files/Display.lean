import ViewLint.Text.Cut

/-!
# Paths in reports

Reports write every path with forward slashes and without a leading `./`, whatever the spelling
under which the file was found.
-/

namespace ViewLint.Files

/-- The mark in front of an extended-length path. -/
def extendedMark : List Char :=
  ['\\', '\\', '?', '\\']

/-- The spelling of a path in reports. -/
def displayPath (path : String) : String :=
  let slashed := (Text.dropHeads extendedMark path.toList).map fun c => if c = '\\' then '/' else c
  match slashed with
  | '.' :: '/' :: rest => String.ofList rest
  | _ => String.ofList slashed

end ViewLint.Files
