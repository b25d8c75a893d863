import ViewLint.Grammar.Declaration
import ViewLint.Grammar.Lexer

/-!
# Reading C# source

A source is a list of declarations and statements. What fits no rule becomes an error node, so
every source has a tree, and the tree renders back to the source.

Reading has no exit without a tree. A reader that cannot be made is one whose rules do not fit the
program, and the rules are a part of it. A reader that gives up is one that was stopped, and here
nothing stops it: there is no limit of time and no way to cancel it, and how deep and how often the
rules are used is bounded by the tokens of the source. Errors of syntax are in the tree, and the
tree says whether there are any.

## Main definitions

* `grammar`: the readers of the recursive rules, tied together.
* `compilationUnit`: the items of a source, with errors where no rule fits.
* `Tree.parse`: the tree of a source.
-/

namespace ViewLint

namespace Grammar

open Reader

/-- The readers of the recursive rules; `depth` bounds how deep they nest. -/
def grammar : Nat → Grammar
  | 0, _ => refuse
  | depth + 1, rule =>
    let g := grammar depth
    match rule with
    | .type => type g
    | .expression => expression g
    | .binary strength => binary g strength
    | .unary => unary g
    | .statement => statement g
    | .block => block g
    | .declaration => declaration g
    | .pattern => pattern g
    | .attributeList => attributeList g
    | .parameterList => parameterList g
    | .argumentList => argumentList g
    | .initializer => initializer g

/-- An attribute of the whole program. -/
def globalAttribute (g : Grammar) : Reader :=
  when (atPair (at? "[") (atAny ["assembly", "module"])) <|
    node "global_attribute" <| seq [tok "[", anyOf ["assembly", "module"], tok ":",
      sepBy1 (singleAttribute g), optional (tok ","), tok "]"]

/-- An item of a source that is no statement. -/
def topLevelDeclaration (g : Grammar) : Reader :=
  choice [
    when (atPair (at? "extern") (at? "alias")) (node "extern_alias_directive"
      (seq [tok "extern", tok "alias", field "name" identifier, tok ";"])),
    when (fun ts => at? "using" ts || atPair (at? "global") (at? "using") ts) (usingDirective g),
    globalAttribute g,
    when (at? "namespace") (choice [fileNamespace g, namespaceDeclaration g]),
    anyType g ]

/-- An item of a source. -/
def topLevelItem (g : Grammar) : Reader :=
  choice [
    when (at? "#if") (conditionalPart (choice [topLevelDeclaration g, g .statement])),
    topLevelDeclaration g,
    node "global_statement" (g .statement) ]

/-- An expression statement at the very end that lacks its semicolon: an empty one is put at
`stop`, where the source ends but for blanks. -/
def unfinishedStatement (g : Grammar) (stop : Nat) : Reader := fun ts =>
  match statementExpression g ts with
  | some (xs, []) =>
    let statement := Concrete.node "expression_statement" true
      (xs ++ [(none, .leaf ";" false stop stop)])
    some ([(none, .node "global_statement" true [(none, statement)])], [])
  | _ => none

/-- A token as a leaf on its own. -/
def looseToken (t : Token) : Concrete :=
  match t.cls with
  | .literal parts => parts
  | _ => if t.isIdentifier then t.identifier else t.plain

/-- What fits no rule, as one error node: an expression that is no statement of its own, or else
the tokens up to the next semicolon, or that semicolon. -/
def errorNode (g : Grammar) (ts : List Token) : List Concrete.Child × List Token :=
  let wrap (xs : List Concrete.Child) : List Concrete.Child := [(none, .node "ERROR" true xs)]
  let loose :=
    let skipped := ts.takeWhile fun t => !t.isText ";"
    let taken := if skipped.isEmpty then ts.take 1 else skipped
    (wrap (taken.map fun t => (none, looseToken t)), ts.drop taken.length)
  match g .expression ts with
  | some (xs, rest) => if at? ";" rest then (wrap xs, rest) else loose
  | none => loose

/-- The items of a source and whether it has errors; `limit` bounds their number. -/
def items (g : Grammar) (stop : Nat) : Nat → List Token → List Concrete.Child × Bool
  | 0, _ => ([], false)
  | limit + 1, ts =>
    if ts.isEmpty then ([], false)
    else
      match topLevelItem g ts with
      | some (xs, rest) =>
        let (ys, errors) := items g stop limit rest
        (xs ++ ys, errors)
      | none =>
        match unfinishedStatement g stop ts with
        | some (xs, _) => (xs, true)
        | none =>
          let (xs, rest) := errorNode g ts
          (xs ++ (items g stop limit rest).1, true)

/-- The concrete tree of a source and whether it has errors. -/
def compilationUnit (source : String) : Concrete × Bool :=
  let lexed := lex source
  let size := lexed.tokens.length
  let lastToken := (lexed.tokens.getLast?.map (·.stop)).getD 0
  let lastExtra := (lexed.extras.getLast?.bind (·.stop?)).getD 0
  let (children, errors) :=
    items (grammar (16 * size + 64)) (max lastToken lastExtra) (size + 1) lexed.tokens
  let root := Concrete.weave (.node "compilation_unit" true children) lexed.extras
  match root with
  | .node _ _ [] =>
    (.leaf "compilation_unit" true source.utf8ByteSize source.utf8ByteSize, errors)
  | _ => (root, errors)

end Grammar

/-- The tree of a source. There always is one, with error nodes where no rule fits. -/
def Tree.parse (source : String) : Tree :=
  let (root, errors) := Grammar.compilationUnit source
  Tree.ofConcrete source root errors

end ViewLint
