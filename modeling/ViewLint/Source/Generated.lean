import ViewLint.Text.Blank
import ViewLint.Text.CaseFold

/-!
# Generated sources

A source counts as generated by the ending of its path, or by a comment near its top that opens
with the mark `<auto-generated` or `<autogenerated`. Case does not count in either.

## Main definitions

* `hasGeneratedEnding`: whether a path has one of the endings of generated files.
* `header`: the part of a source in which the mark is looked for.
* `isGenerated`: whether a source is generated.
-/

namespace ViewLint.Source

/-- The endings of the paths of generated files, in lower case. -/
def generatedEndings : List String :=
  [".g.cs", ".g.i.cs", ".designer.cs", ".generated.cs"]

/-- Whether a path ends, up to case, in an ending of generated files. -/
def hasGeneratedEnding (path : String) : Bool :=
  let cs := path.toList
  generatedEndings.any fun ending =>
    let word := ending.toList
    decide (word.length ≤ cs.length) && Text.isWord word (cs.drop (cs.length - word.length))

/-- The part of a text before its line break with the given number, or all of it if it has fewer.
The line breaks are counted from one; number zero leaves nothing. -/
def beforeBreak : Nat → List Char → List Char
  | 0, _ => []
  | _ + 1, [] => []
  | n + 1, c :: cs =>
    if c = '\n' then (if n = 0 then [] else c :: beforeBreak n cs) else c :: beforeBreak (n + 1) cs

/-- The number of lines in which the mark is looked for. -/
def headerLines : Nat :=
  20

/-- The part of a source before its twentieth line break. -/
def header (source : String) : List Char :=
  beforeBreak headerLines source.toList

/-- Whether a text starts with a comment that opens with the mark of generated files. Blanks, also
line breaks, may stand before and after the slashes. -/
def startsWithMark (cs : List Char) : Bool :=
  match Text.trimStart cs with
  | '/' :: '/' :: rest =>
    match Text.afterWord "<auto".toList (Text.trimStart rest) with
    | some ('-' :: rest) => (Text.afterWord "generated".toList rest).isSome
    | some rest => (Text.afterWord "generated".toList rest).isSome
    | none => false
  | _ => false

/-- Whether the text from the start of some line on has a property; `lineStart` tells whether the
text itself starts a line. -/
def someLine (p : List Char → Bool) (lineStart : Bool) : List Char → Bool
  | [] => lineStart && p []
  | c :: cs => (lineStart && p (c :: cs)) || someLine p (c == '\n') cs

/-- Whether a source is generated, by its path or by a mark in its header. -/
def isGenerated (path source : String) : Bool :=
  hasGeneratedEnding path || someLine startsWithMark true (header source)

end ViewLint.Source
