/-!
# Lines and columns

An offset counts the bytes of the UTF-8 form of a text. The line index of a text lists the
offsets at which its lines start; a binary search in it turns an offset into a line and a column.

## Main definitions

* `lineStarts`: the offsets at which lines start.
* `SearchResult`, `LineIndex.search`: the binary search and what it ends with.
* `LineIndex.line`, `LineIndex.column`: the position of an offset, both counted from one.
* `countLines`: the number of lines of a text, where a final line break opens no further line.
-/

namespace ViewLint.Text

/-- The offsets after each line break of a text whose first character stands at `offset`. -/
def lineStartsFrom (offset : Nat) : List Char → List Nat
  | [] => []
  | c :: cs =>
    let next := offset + c.utf8Size
    if c = '\n' then next :: lineStartsFrom next cs else lineStartsFrom next cs

/-- The offsets at which the lines of a text start. -/
def lineStarts (source : String) : List Nat :=
  0 :: lineStartsFrom 0 source.toList

/-- Where a search in an increasing table ends: at the index of the entry that was looked for, or,
if there is none, at the index at which it would have to be put in. -/
inductive SearchResult where
  | found (index : Nat)
  | missing (index : Nat)
deriving DecidableEq, Repr

/-- The offsets at which the lines of a text start, in increasing order. -/
structure LineIndex where
  starts : Array Nat

namespace LineIndex

/-- The line index of a text. -/
def ofSource (source : String) : LineIndex :=
  ⟨(lineStarts source).toArray⟩

/-- The search for `offset` among the entries of `starts` with indices from `lo` up to `hi`. -/
def search (starts : Array Nat) (offset lo hi : Nat) : SearchResult :=
  if h : lo < hi then
    let mid := (lo + hi) / 2
    let entry := starts.getD mid 0
    if entry = offset then .found mid
    else if entry < offset then search starts offset (mid + 1) hi
    else search starts offset lo mid
  else .missing lo
termination_by hi - lo

/-- The line of an offset, counted from one: the line that starts there, or else the one before the
place at which such a line would have to be put in. -/
def line (index : LineIndex) (offset : Nat) : Nat :=
  match search index.starts offset 0 index.starts.size with
  | .found i => i + 1
  | .missing i => i

/-- The column of an offset, in bytes, counted from one. -/
def column (index : LineIndex) (offset : Nat) : Nat :=
  offset - index.starts.getD (index.line offset - 1) 0 + 1

end LineIndex

/-- The number of lines of a text. A line break at the end of the text opens no further line. -/
def countLines (source : String) : Nat :=
  let cs := source.toList
  let breaks := cs.count '\n'
  match cs.getLast? with
  | none => 0
  | some '\n' => breaks
  | some _ => breaks + 1

end ViewLint.Text
