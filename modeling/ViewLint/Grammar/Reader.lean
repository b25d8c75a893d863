import ViewLint.Grammar.Token

/-!
# Readers

A reader takes the tokens from its place on and gives the children it read with the tokens after
them, or nothing. The rules of the grammar refer to one another through their names, so that each
rule is an ordinary definition and only the last step ties them together.

## Main definitions

* `Reader`: a reader of children.
* `seq`, `choice`, `optional`, `many`, `sepBy`: readers from readers.
* `node`, `field`: a node around what a reader reads, and the field that it fills.
* `Rule`, `Grammar`: the names of the recursive rules, and their readers.
-/

namespace ViewLint

/-- A reader of children of a node. -/
abbrev Reader := List Token → Option (List Concrete.Child × List Token)

namespace Reader

/-- Reads nothing. -/
def nothing : Reader := fun ts => some ([], ts)

/-- Refuses everything. -/
def refuse : Reader := fun _ => none

/-- Reads the parts one after the other. -/
def seq : List Reader → Reader
  | [], ts => some ([], ts)
  | p :: ps, ts =>
    match p ts with
    | none => none
    | some (xs, rest) =>
      match seq ps rest with
      | none => none
      | some (ys, rest) => some (xs ++ ys, rest)

/-- Reads with the first reader that accepts. -/
def choice : List Reader → Reader
  | [], _ => none
  | p :: ps, ts =>
    match p ts with
    | some found => some found
    | none => choice ps ts

/-- Reads what is there, or nothing. -/
def optional (p : Reader) : Reader := fun ts =>
  match p ts with
  | some found => some found
  | none => some ([], ts)

/-- Reads up to `limit` times, as long as the reader accepts. -/
def repeatUpTo (p : Reader) : Nat → Reader
  | 0, ts => some ([], ts)
  | limit + 1, ts =>
    match p ts with
    | none => some ([], ts)
    | some (xs, rest) =>
      match repeatUpTo p limit rest with
      | none => none
      | some (ys, rest) => some (xs ++ ys, rest)

/-- Reads with a reader whose number of rounds or levels the number of tokens bounds. -/
def sized (p : Nat → Reader) : Reader := fun ts => p ts.length ts

/-- Reads as often as the reader accepts; it must read a token each time. -/
def many (p : Reader) : Reader := sized (repeatUpTo p)

/-- Reads at least once. -/
def some1 (p : Reader) : Reader := seq [p, many p]

/-- Reads only where `test` holds of the tokens. -/
def when (test : List Token → Bool) (p : Reader) : Reader := fun ts =>
  if test ts then p ts else none

/-- Reads with `p` where `test` holds of the tokens, and with `q` elsewhere. -/
def branch (test : List Token → Bool) (p q : Reader) : Reader := fun ts =>
  if test ts then p ts else q ts

/-! ### Tokens -/

/-- Reads a token that passes a test, as the tree that `leaf` makes of it. -/
def single (test : Token → Bool) (leaf : Token → Concrete) : Reader
  | t :: rest => if test t then some ([(none, leaf t)], rest) else none
  | [] => none

/-- Reads a keyword or a punctuation mark. -/
def tok (text : String) : Reader := single (·.isText text) Token.plain

/-- Reads one of some keywords or punctuation marks. -/
def anyOf (texts : List String) : Reader := single (fun t => texts.any t.isText) Token.plain

/-- Reads one of some words as a leaf of a named kind. -/
def wordAs (kind : String) (texts : List String) : Reader :=
  single (fun t => texts.any t.isText) (Token.named kind)

/-- Reads an identifier. -/
def identifier : Reader := single Token.isIdentifier Token.identifier

/-- Reads an identifier as a leaf of another kind. -/
def identifierAs (kind : String) : Reader := single Token.isIdentifier (Token.named kind)

/-- Reads a literal. -/
def literal : Reader
  | t :: rest =>
    match t.cls with
    | .literal parts => some ([(none, parts)], rest)
    | _ => none
  | [] => none

/-! ### Nodes -/

/-- Reads the children of a named node. -/
def node (kind : String) (p : Reader) : Reader := fun ts =>
  match p ts with
  | some (xs, rest) => some ([(none, .node kind true xs)], rest)
  | none => none

/-- Reads children that fill a field. -/
def field (name : String) (p : Reader) : Reader := fun ts =>
  match p ts with
  | some (xs, rest) => some (xs.map fun x => (some name, x.2), rest)
  | none => none

/-! ### Going on from what was read -/

/-- Reads `p`, and goes on with what it read. -/
def andThen (p : Reader) (next : List Concrete.Child → Reader) : Reader := fun ts =>
  match p ts with
  | none => none
  | some (xs, rest) => next xs rest

/-- What was read already. -/
def keep (xs : List Concrete.Child) : Reader := fun ts => some (xs, ts)

/-- What was read already, with another field. -/
def given (name : Option String) (xs : List Concrete.Child) : Reader :=
  keep (xs.map fun x => (name, x.2))

/-- Puts what was read already in front of what `wrap` reads, as often as `wrap` accepts, up to
`limit` times. -/
def wrapUpTo (wrap : List Concrete.Child → Reader) : Nat → List Concrete.Child → Reader
  | 0, xs, ts => some (xs, ts)
  | limit + 1, xs, ts =>
    match wrap xs ts with
    | none => some (xs, ts)
    | some (ys, rest) => wrapUpTo wrap limit ys rest

/-- Reads `p`, and then puts it in front of what `wrap` reads, as often as `wrap` accepts: the
way to read operators that group to the left. -/
def foldLeft (p : Reader) (wrap : List Concrete.Child → Reader) : Reader :=
  andThen p fun xs => sized fun limit => wrapUpTo wrap limit xs

/-! ### Lists -/

/-- Reads one or more parts with commas between them. -/
def sepBy1 (p : Reader) : Reader := seq [p, many (seq [tok ",", p])]

/-- Reads any number of parts with commas between them. -/
def sepBy (p : Reader) : Reader := optional (sepBy1 p)

/-- Reads parts with commas between them; a comma may also follow the last. -/
def sepByTrailing (p : Reader) : Reader := seq [sepBy p, optional (tok ",")]

/-! ### Looking ahead -/

/-- Whether the first token is the given keyword or mark. -/
def at? (text : String) : List Token → Bool
  | t :: _ => t.isText text
  | [] => false

/-- Whether the first token is one of some keywords or marks. -/
def atAny (texts : List String) : List Token → Bool
  | t :: _ => texts.any t.isText
  | [] => false

/-- Whether the first token can be an identifier. -/
def atIdentifier : List Token → Bool
  | t :: _ => t.isIdentifier
  | [] => false

/-- Whether the first token, and then the second, fit. -/
def atPair (first second : List Token → Bool) : List Token → Bool
  | t :: rest => first (t :: rest) && second rest
  | [] => false

/-- Whether a reader accepts and the tokens after it fit. -/
def followedBy (p : Reader) (test : List Token → Bool) : List Token → Bool := fun ts =>
  match p ts with
  | some (_, rest) => test rest
  | none => false

/-- The tokens after the bracket that closes the `depth` brackets that are open. -/
def afterBrackets : Nat → List Token → List Token
  | _, [] => []
  | depth, t :: rest =>
    if t.isText "(" || t.isText "[" || t.isText "\x7b" then afterBrackets (depth + 1) rest
    else if t.isText ")" || t.isText "]" || t.isText "\x7d" then
      if depth ≤ 1 then rest else afterBrackets (depth - 1) rest
    else afterBrackets depth rest

/-- Whether a bracket opens here and the tokens after the one that closes it fit. -/
def afterGroup (test : List Token → Bool) : List Token → Bool
  | t :: rest =>
    (t.isText "(" || t.isText "[" || t.isText "\x7b") && test (afterBrackets 1 rest)
  | [] => false

end Reader

/-- The recursive rules of the grammar. A binary expression carries the least strength of the
operators in it. -/
inductive Rule where
  | type
  | expression
  | binary (strength : Nat)
  | unary
  | statement
  | block
  | declaration
  | pattern
  | attributeList
  | parameterList
  | argumentList
  | initializer
deriving DecidableEq, Repr

/-- The readers of the recursive rules. -/
abbrev Grammar := Rule → Reader

end ViewLint
