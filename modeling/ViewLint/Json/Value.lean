import ViewLint.Json.Number
import ViewLint.Json.Text

/-!
# JSON values

## Main definitions

* `Value`: the values.
* `Value.compact`, `Value.pretty`: their written forms, without blanks and in lines.
* `Value.parse?`: reads a text; nesting is limited.
* `Value.get?`: a member of an object.
-/

namespace ViewLint.Json

/-- A value. The members of an object stand in the order in which they are written. -/
inductive Value where
  | null
  | boolean (b : Bool)
  | number (n : Number)
  | string (s : String)
  | array (items : List Value)
  | object (members : List (String × Value))
deriving Repr, Inhabited

namespace Value

/-- A natural number as a value. -/
def natural (n : Nat) : Value :=
  .number (.natural n)

/-- A member of an object; the last of several with the same name counts. -/
def get? (name : String) : Value → Option Value
  | .object members => members.reverse.lookup name
  | _ => none

/-- The text of a string. -/
def string? : Value → Option String
  | .string s => some s
  | _ => none

/-! ### Writing -/

mutual

/-- The value without blanks. -/
def compactChars : Value → List Char
  | .null => "null".toList
  | .boolean b => (if b then "true" else "false").toList
  | .number n => n.render.toList
  | .string s => quote s
  | .array items => '[' :: compactItems items ++ [']']
  | .object members => Char.ofNat 0x7B :: compactMembers members ++ [Char.ofNat 0x7D]

/-- The items of an array with commas between them. -/
def compactItems : List Value → List Char
  | [] => []
  | [v] => compactChars v
  | v :: vs => compactChars v ++ ',' :: compactItems vs

/-- The members of an object with commas between them. -/
def compactMembers : List (String × Value) → List Char
  | [] => []
  | [(name, v)] => quote name ++ ':' :: compactChars v
  | (name, v) :: rest => quote name ++ ':' :: compactChars v ++ ',' :: compactMembers rest

end

/-- The value as a text without blanks. -/
def compact (v : Value) : String :=
  String.ofList v.compactChars

/-- The start of a line at a depth: two blanks for each level. -/
def newline (depth : Nat) : List Char :=
  '\n' :: List.replicate (2 * depth) ' '

mutual

/-- The value in lines; `depth` is the depth of the line on which it starts. -/
def prettyChars (depth : Nat) : Value → List Char
  | .array [] => ['[', ']']
  | .array items => '[' :: prettyItems (depth + 1) items ++ newline depth ++ [']']
  | .object [] => [Char.ofNat 0x7B, Char.ofNat 0x7D]
  | .object members =>
    Char.ofNat 0x7B :: prettyMembers (depth + 1) members ++ newline depth ++ [Char.ofNat 0x7D]
  | .null => "null".toList
  | .boolean b => (if b then "true" else "false").toList
  | .number n => n.render.toList
  | .string s => quote s

/-- The items of an array, one on each line. -/
def prettyItems (depth : Nat) : List Value → List Char
  | [] => []
  | [v] => newline depth ++ prettyChars depth v
  | v :: vs => newline depth ++ prettyChars depth v ++ ',' :: prettyItems depth vs

/-- The members of an object, one on each line. -/
def prettyMembers (depth : Nat) : List (String × Value) → List Char
  | [] => []
  | [(name, v)] => newline depth ++ quote name ++ ':' :: ' ' :: prettyChars depth v
  | (name, v) :: rest =>
    newline depth ++ quote name ++ ':' :: ' ' :: prettyChars depth v ++
      ',' :: prettyMembers depth rest

end

/-- The value as a text in lines. -/
def pretty (v : Value) : String :=
  String.ofList (v.prettyChars 0)

/-! ### Reading -/

/-- What is left after a word at the front. -/
def afterWord? (word : List Char) (cs : List Char) : Option (List Char) :=
  if word.isPrefixOf cs then some (cs.drop word.length) else none

/-- A value that is no array and no object, and what is left. -/
def scanScalar (cs : List Char) : Option (Value × List Char) :=
  match cs with
  | '"' :: rest => (scanString rest).map fun (s, rest) => (.string (String.ofList s), rest)
  | 'n' :: rest => (afterWord? ['u', 'l', 'l'] rest).map fun rest => (.null, rest)
  | 't' :: rest => (afterWord? ['r', 'u', 'e'] rest).map fun rest => (.boolean true, rest)
  | 'f' :: rest => (afterWord? ['a', 'l', 's', 'e'] rest).map fun rest => (.boolean false, rest)
  | _ => do
    let (t, rest) ← NumberText.scan cs
    return (.number (← t.value?), rest)

mutual

/-- Reads a value; `steps` bounds the number of values, and `depth` how deep they nest. -/
def scanValue : Nat → Nat → List Char → Option (Value × List Char)
  | 0, _, _ => none
  | steps + 1, depth, cs =>
    match skipBlanks cs with
    | '[' :: rest =>
      if depth = 0 then none
      else
        match skipBlanks rest with
        | ']' :: rest => some (.array [], rest)
        | _ => (scanItems steps (depth - 1) rest).map fun (vs, rest) => (.array vs, rest)
    | '\x7b' :: rest =>
      if depth = 0 then none
      else
        match skipBlanks rest with
        | '\x7d' :: rest => some (.object [], rest)
        | _ => (scanMembers steps (depth - 1) rest).map fun (ms, rest) => (.object ms, rest)
    | cs => scanScalar cs

/-- Reads the items of an array up to its end. -/
def scanItems : Nat → Nat → List Char → Option (List Value × List Char)
  | 0, _, _ => none
  | steps + 1, depth, cs => do
    let (v, rest) ← scanValue steps depth cs
    match skipBlanks rest with
    | ',' :: rest =>
      let (vs, rest) ← scanItems steps depth rest
      return (v :: vs, rest)
    | ']' :: rest => return ([v], rest)
    | _ => none

/-- Reads the members of an object up to its end. -/
def scanMembers : Nat → Nat → List Char → Option (List (String × Value) × List Char)
  | 0, _, _ => none
  | steps + 1, depth, cs => do
    match skipBlanks cs with
    | '"' :: rest =>
      let (name, rest) ← scanString rest
      match skipBlanks rest with
      | ':' :: rest =>
        let (v, rest) ← scanValue steps depth rest
        let member := (String.ofList name, v)
        match skipBlanks rest with
        | ',' :: rest =>
          let (ms, rest) ← scanMembers steps depth rest
          return (member :: ms, rest)
        | '\x7d' :: rest => return ([member], rest)
        | _ => none
      | _ => none
    | _ => none

end

/-- Arrays and objects nest at most this deep. -/
def maxDepth : Nat :=
  127

/-- Reads a text that holds one value. -/
def parse? (text : String) : Option Value :=
  let cs := text.toList
  match scanValue (2 * cs.length + 2) maxDepth cs with
  | some (v, rest) => if (skipBlanks rest).isEmpty then some v else none
  | none => none

end Value

end ViewLint.Json
