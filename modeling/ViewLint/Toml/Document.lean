import ViewLint.Toml.Text
import ViewLint.Toml.Value

/-!
# TOML documents

A document is a list of entries and table headers. Reading it builds the tables that they
describe and refuses a document that defines a key or a table twice.

## Main definitions

* `value?`: a value at the front of a text.
* `Item`: a table under construction.
* `parse?`: the table that a document describes.
-/

namespace ViewLint.Toml

/-! ### Tables under construction -/

/-- A part of a table under construction. A table is implicit while only its sub-tables have been
named, and dotted when a dotted key made it. -/
inductive Item where
  | value (v : Value)
  | table (implicit dotted : Bool) (entries : List (String × Item))
  | tables (elements : List (List (String × Item)))
deriving Inhabited

/-- The entries of a table under construction. -/
abbrev Entries := List (String × Item)

/-- The entries with the item of a key replaced, or added at the end. -/
def setItem (key : String) (item : Item) : Entries → Entries
  | [] => [(key, item)]
  | e :: rest => if e.1 = key then (key, item) :: rest else e :: setItem key item rest

/-- The entries after `change` was made to the table under a path. A step through an array of
tables leads to its last table. A missing table is made; `dotted` tells whether by a dotted key,
which may not enter a table that a header has opened. -/
def update (dotted : Bool) (change : Entries → Option Entries) :
    List String → Entries → Option Entries
  | [], entries => change entries
  | key :: path, entries =>
    match entries.lookup key with
    | none => do
      let inner ← update dotted change path []
      return setItem key (.table true dotted inner) entries
    | some (.table implicit wasDotted inner) =>
      if dotted && !implicit then none
      else do
        let inner ← update dotted change path inner
        return setItem key (.table implicit wasDotted inner) entries
    | some (.tables elements) =>
      if dotted then none
      else do
        let last ← elements.getLast?
        let inner ← update dotted change path last
        return setItem key (.tables (elements.dropLast ++ [inner])) entries
    | some (.value _) => none

/-- Adds a value under a dotted key. -/
def addValue (path : List String) (v : Value) (entries : Entries) : Option Entries := do
  let key ← path.getLast?
  update true
    (fun table => if (table.lookup key).isSome then none else some (table ++ [(key, .value v)]))
    path.dropLast entries

/-- Opens the table of a header. -/
def openTable (path : List String) (entries : Entries) : Option Entries := do
  let key ← path.getLast?
  update false
    (fun table =>
      match table.lookup key with
      | none => some (table ++ [(key, .table false false [])])
      | some (.table true false inner) => some (setItem key (.table false false inner) table)
      | some _ => none)
    path.dropLast entries

/-- Opens a new table in an array of tables. -/
def openElement (path : List String) (entries : Entries) : Option Entries := do
  let key ← path.getLast?
  update false
    (fun table =>
      match table.lookup key with
      | none => some (table ++ [(key, .tables [[]])])
      | some (.tables elements) => some (setItem key (.tables (elements ++ [[]])) table)
      | some _ => none)
    path.dropLast entries

mutual

/-- The value that an item stands for. -/
def Item.toValue : Item → Value
  | .value v => v
  | .table _ _ entries => .table (entriesToValues entries)
  | .tables elements => .array (elementsToValues elements)

/-- The values of the entries of a table. -/
def entriesToValues : List (String × Item) → List (String × Value)
  | [] => []
  | (key, item) :: rest => (key, item.toValue) :: entriesToValues rest

/-- The values of the tables of an array. -/
def elementsToValues : List (List (String × Item)) → List Value
  | [] => []
  | e :: rest => .table (entriesToValues e) :: elementsToValues rest

end

/-! ### Values -/

/-- The value that a bare word writes. -/
def word? (word : List Char) : Option Value :=
  let text := String.ofList word
  if text = "true" then some (.boolean true)
  else if text = "false" then some (.boolean false)
  else if isInteger word then some (.integer text)
  else if isFloat word then some (.float text)
  else if isDateTime word then some (.datetime text)
  else none

mutual

/-- A value at the front of a text; `limit` bounds its depth and the number of its parts. -/
def value? : Nat → List Char → Option (Value × List Char)
  | 0, _ => none
  | limit + 1, cs =>
    match cs with
    | '[' :: rest => (items? limit rest).map fun (xs, r) => (.array xs, r)
    | '{' :: rest => do
      let (entries, rest) ← pairs? limit rest []
      return (.table (entriesToValues entries), rest)
    | _ =>
      match string? cs with
      | some (text, rest) => some (.string text, rest)
      | none => do
        let (word, rest) := bareWord cs
        return (← word? word, rest)

/-- The items of an array up to its closing bracket. -/
def items? : Nat → List Char → Option (List Value × List Char)
  | 0, _ => none
  | limit + 1, cs =>
    match skipLines cs.length cs with
    | ']' :: rest => some ([], rest)
    | start => do
      let (item, rest) ← value? limit start
      match skipLines rest.length rest with
      | ',' :: rest => do
        let (more, rest) ← items? limit rest
        return (item :: more, rest)
      | ']' :: rest => some ([item], rest)
      | _ => none

/-- The entries of an inline table up to its closing brace. -/
def pairs? : Nat → List Char → Entries → Option (Entries × List Char)
  | 0, _, _ => none
  | limit + 1, cs, entries =>
    match skipLines cs.length cs with
    | '}' :: rest => some (entries, rest)
    | start => do
      let (path, rest) ← key? start
      let rest ← expect? '=' rest
      let (v, rest) ← value? limit (skipBlanks rest)
      let entries ← addValue path v entries
      match skipLines rest.length rest with
      | ',' :: rest => pairs? limit rest entries
      | '}' :: rest => some (entries, rest)
      | _ => none

end

/-! ### Documents -/

/-- One line of a document. -/
inductive Line where
  | entry (path : List String) (v : Value)
  | table (path : List String)
  | element (path : List String)

/-- The line at the front of a text that is not blank. -/
def line? (cs : List Char) : Option (Line × List Char) :=
  match cs with
  | '[' :: '[' :: rest => do
    let (path, rest) ← key? (skipBlanks rest)
    let rest ← expect? ']' rest
    let rest ← expect? ']' rest
    return (.element path, ← endOfLine? rest)
  | '[' :: rest => do
    let (path, rest) ← key? (skipBlanks rest)
    let rest ← expect? ']' rest
    return (.table path, ← endOfLine? rest)
  | _ => do
    let (path, rest) ← key? cs
    let rest ← expect? '=' rest
    let (v, rest) ← value? (cs.length + 1) (skipBlanks rest)
    return (.entry path v, ← endOfLine? rest)

/-- The lines of a document; `limit` bounds their number. -/
def lines? : Nat → List Char → Option (List Line)
  | 0, _ => none
  | limit + 1, cs =>
    match skipLines cs.length cs with
    | [] => some []
    | start => do
      let (line, rest) ← line? start
      return line :: (← lines? limit rest)

/-- The entries of a document, under construction below the table opened last. -/
def build : List Line → List String → Entries → Option Entries
  | [], _, entries => some entries
  | .entry path v :: rest, current, entries => do
    build rest current (← update false (addValue path v) current entries)
  | .table path :: rest, _, entries => do build rest path (← openTable path entries)
  | .element path :: rest, _, entries => do build rest path (← openElement path entries)

/-- The table that a document describes. A byte order mark in front of it does not count. -/
def parse? (document : String) : Option Value := do
  let cs := match document.toList with
    | c :: rest => if c.toNat = 0xFEFF then rest else c :: rest
    | [] => []
  let lines ← lines? (cs.length + 1) cs
  return .table (entriesToValues (← build lines [] []))

end ViewLint.Toml
