import ViewLint.Grammar.Expression

/-!
# Patterns

The patterns of `is`, of switch statements and of switch expressions.
-/

namespace ViewLint.Grammar

open Reader

/-- The name that a pattern gives to what it matched. -/
def designation : Reader :=
  branch (fun ts => match ts with
      | t :: _ => t.isText "_"
      | [] => false)
    (wordAs "discard" ["_"])
    (field "name" identifier)

/-- Whether a designation stands here: a name that is not a keyword of patterns. -/
def atDesignation (ts : List Token) : Bool :=
  atIdentifier ts && !atAny ["and", "or", "when"] ts

/-- A pattern for a part of a value. -/
def subpattern (g : Grammar) : Reader :=
  node "subpattern" <| seq [
    optional (when (followedBy (g (.binary 14)) (at? ":")) (seq [g (.binary 14), tok ":"])),
    g .pattern ]

/-- The patterns for the parts of a value by position. -/
def positionalClause (g : Grammar) : Reader :=
  node "positional_pattern_clause" <| seq [tok "(", sepBy (subpattern g), tok ")"]

/-- The patterns for the properties of a value. -/
def propertyClause (g : Grammar) : Reader :=
  node "property_pattern_clause" <| seq [tok "\x7b", sepByTrailing (subpattern g), tok "\x7d"]

/-- A pattern of a type with patterns for parts. -/
def recursivePattern (g : Grammar) : Reader :=
  let clauses := choice [
    seq [positionalClause g, optional (propertyClause g)],
    propertyClause g ]
  node "recursive_pattern" <| seq [
    optional
      (when (fun ts => !atAny ["(", "\x7b"] ts) (field "type" (operandType g startsOperand))),
    clauses, optional (when atDesignation designation) ]

/-- Whether a pattern with patterns for parts stands here. -/
def startsRecursive (g : Grammar) (ts : List Token) : Bool :=
  at? "\x7b" ts ||
    (!at? "(" ts && followedBy (operandType g startsOperand) (atAny ["\x7b", "("]) ts)

/-- Whether a type with a name stands here. -/
def startsDeclarationPattern (g : Grammar) (ts : List Token) : Bool :=
  followedBy (operandType g startsOperand) atDesignation ts

/-- A pattern in parentheses. -/
def parenthesizedPattern (g : Grammar) : Reader :=
  node "parenthesized_pattern" <| seq [tok "(", g .pattern, tok ")"]

/-- Names in parentheses. -/
def tupleDesignation : Reader :=
  node "parenthesized_variable_designation" <| seq [tok "(", sepBy designation, tok ")"]

/-- A pattern without `and` and `or`. -/
def plainPattern (g : Grammar) : Reader :=
  choice [
    when (fun ts => at? "_" ts) (wordAs "discard" ["_"]),
    when (atPair (at? "not") fun ts => !ts.isEmpty)
      (node "negated_pattern" (seq [tok "not", g .pattern])),
    when (atAny ["<", "<=", ">"])
      (node "relational_pattern" (seq [
        choice [anyOf ["<", "<="], joined [">", "="], joined [">"]], g (.binary 11)])),
    when (at? "var") (node "var_pattern" (seq [tok "var",
      branch (at? "(") tupleDesignation designation])),
    when (at? "[") (node "list_pattern" (seq [tok "[",
      sepByTrailing (branch (at? "..") (tok "..") (g .pattern)), tok "]"])),
    when (startsRecursive g) (recursivePattern g),
    when (startsDeclarationPattern g)
      (node "declaration_pattern" (seq [field "type" (operandType g startsOperand), designation])),
    when (at? "(") (choice [
      when (followedBy (parenthesizedPattern g) fun ts => !atAny ["\x7b", ","] ts)
        (parenthesizedPattern g),
      recursivePattern g ]),
    when (fun ts => atAny Token.predefinedTypes ts &&
        followedBy (operandType g startsOperand) (fun rest => !at? "." rest) ts)
      (node "type_pattern" (field "type" (operandType g startsOperand))),
    node "constant_pattern" (g (.binary 11)) ]

/-- Patterns with a word between them. -/
def patternChain (kind word : String) (operand : Reader) : Reader :=
  foldLeft operand fun left =>
    when (at? word) (node kind (seq [given (some "left") left, field "operator" (tok word),
      field "right" operand]))

/-- A pattern. -/
def pattern (g : Grammar) : Reader :=
  patternChain "or_pattern" "or" (patternChain "and_pattern" "and" (plainPattern g))

end ViewLint.Grammar
