import ViewLint.Grammar.Pattern

/-!
# Statements

A statement starts either with a keyword that names its kind, or with a declaration, or with an
expression. A type that a name follows makes a declaration.
-/

namespace ViewLint.Grammar

open Reader

/-! ### Attributes and modifiers -/

/-- An argument of an attribute. -/
def attributeArgument (g : Grammar) : Reader :=
  node "attribute_argument" <| seq [
    optional (when (atPair atIdentifier (atAny [":", "="]))
      (seq [identifier, anyOf [":", "="]])),
    g .expression ]

/-- An attribute. -/
def singleAttribute (g : Grammar) : Reader :=
  node "attribute" <| seq [field "name" (name g),
    optional (node "attribute_argument_list"
      (seq [tok "(", sepBy (attributeArgument g), tok ")"]))]

/-- What a list of attributes is about. -/
def attributeTarget : Reader :=
  node "attribute_target_specifier" <| seq [
    anyOf ["field", "event", "method", "param", "property", "return", "type"], tok ":"]

/-- A list of attributes. -/
def attributeList (g : Grammar) : Reader :=
  node "attribute_list" <| seq [tok "[", optional attributeTarget, sepBy1 (singleAttribute g),
    optional (tok ","), tok "]"]

/-- The modifiers that are words of the language, and those that are only modifiers where a
declaration goes on behind them. -/
def startsModifier (ts : List Token) : Bool :=
  match ts with
  | t :: rest =>
    Token.modifierWords.any t.isText &&
      (Token.reservedWords.contains t.text ||
        match rest with
        | n :: _ => n.isIdentifier || atAny (Token.reservedWords ++ ["(", "["]) rest &&
            !atAny ["is", "as", "in"] rest
        | [] => false)
  | [] => false

/-- A modifier. -/
def modifier : Reader :=
  when startsModifier (node "modifier" (anyOf Token.modifierWords))

/-- The modifiers of a declaration. -/
def modifiers : Reader :=
  many modifier

/-! ### Parameters -/

/-- The parameter that takes all further arguments; its parts stand in the list itself. -/
def parameterArray (g : Grammar) : Reader :=
  seq [many (g .attributeList), tok "params", field "type" (g .type), field "name" identifier]

/-- Whether a parameter without a type stands here. -/
def startsBareParameter : List Token → Bool :=
  atPair atIdentifier (atAny [",", ")", "=", "]"])

/-- The words in front of the type of a parameter. -/
def parameterModifier : Reader :=
  choice [
    wordAs "modifier" ["this", "out", "in"],
    when (atPair (at? "scoped") (atAny ["ref", "in", "out"])) (wordAs "modifier" ["scoped"]) ]

/-- A parameter. -/
def parameter (g : Grammar) : Reader :=
  node "parameter" <| seq [many (g .attributeList),
    branch startsBareParameter nothing
      (seq [many parameterModifier, field "type" (g .type)]),
    field "name" identifier, optional (seq [tok "=", g .expression])]

/-- A parameter of any form. -/
def anyParameter (g : Grammar) : Reader :=
  choice [parameterArray g, parameter g]

/-- Parameters in parentheses. -/
def parameterList (g : Grammar) : Reader :=
  node "parameter_list" <| seq [tok "(", sepBy (anyParameter g), tok ")"]

/-- Parameters in brackets. -/
def bracketedParameters (g : Grammar) : Reader :=
  node "bracketed_parameter_list" <| seq [tok "[", sepBy1 (anyParameter g), tok "]"]

/-! ### Bodies and variables -/

/-- A block of statements. -/
def block (g : Grammar) : Reader :=
  node "block" <| seq [tok "\x7b", many (g .statement), tok "\x7d"]

/-- A body that is one expression. -/
def arrowClause (g : Grammar) : Reader :=
  node "arrow_expression_clause" <| seq [tok "=>", g .expression]

/-- The body of a function. -/
def functionBody (g : Grammar) : Reader :=
  choice [field "body" (g .block), seq [field "body" (arrowClause g), tok ";"], tok ";"]

/-- Names in parentheses, to which the parts of a tuple go. -/
def tuplePattern : Nat → Reader
  | 0 => refuse
  | depth + 1 =>
    node "tuple_pattern" <| seq [tok "(",
      sepBy1 (choice [wordAs "discard" ["_"], field "name" identifier, tuplePattern depth]),
      tok ")"]

/-- The name of a variable, or names in parentheses. -/
def variableName : Reader :=
  field "name" (choice [identifier, sized tuplePattern])

/-- A variable with its value. -/
def variableDeclarator (g : Grammar) : Reader :=
  node "variable_declarator" <| seq [variableName,
    optional (when (at? "[") (bracketedArguments g)),
    optional (seq [tok "=", branch (at? "\x7b") (g .initializer) (g .expression)])]

/-- Variables of one type. -/
def variableDeclaration (g : Grammar) : Reader :=
  node "variable_declaration" <| seq [field "type" (g .type), sepBy1 (variableDeclarator g)]

/-- Whether a type with the name of a variable or function stands here. -/
def startsDeclaration (g : Grammar) (ts : List Token) : Bool :=
  followedBy (seq [g .type, identifier]) (fun rest => !atAny ["in"] rest) ts ||
    followedBy (tok "var") (afterGroup (at? "=")) ts

/-! ### Single statements -/

/-- The kinds of expression that can be a statement. -/
def statementKinds : List String :=
  ["assignment_expression", "invocation_expression", "postfix_unary_expression",
    "prefix_unary_expression", "await_expression", "object_creation_expression",
    "implicit_object_creation_expression", "parenthesized_expression"]

/-- The kind of a concrete node. -/
def kindOf : Concrete → String
  | .leaf kind .. => kind
  | .node kind .. => kind

/-- An expression that can be a statement. -/
def statementExpression (g : Grammar) : Reader :=
  andThen (g .expression) fun xs =>
    when (fun _ => xs.length = 1 ∧ xs.all fun x => statementKinds.contains (kindOf x.2)) (keep xs)

/-- A function inside a function. -/
def localFunction (g : Grammar) : Reader :=
  node "local_function_statement" <| seq [many (g .attributeList), modifiers,
    field "type" (g .type), field "name" identifier,
    optional (field "type_parameters" (typeParameters g)),
    field "parameters" (g .parameterList), many (constraints g), functionBody g]

/-- Whether a local function stands here. -/
def startsLocalFunction (g : Grammar) (ts : List Token) : Bool :=
  followedBy (seq [many (g .attributeList), modifiers, g .type, identifier,
    optional (typeParameters g)]) (at? "(") ts

/-- Variables of a function. -/
def localDeclaration (g : Grammar) : Reader :=
  node "local_declaration_statement" <| seq [
    optional (when (atPair (at? "await") (at? "using")) (tok "await")), optional (tok "using"),
    modifiers, variableDeclaration g, tok ";"]

/-- Whether variables of a function are declared here. -/
def startsLocalDeclaration (g : Grammar) (ts : List Token) : Bool :=
  followedBy (seq [optional (when (atPair (at? "await") (at? "using")) (tok "await")),
    optional (when (atPair (at? "using") fun rest => !at? "(" rest) (tok "using")), modifiers])
    (startsDeclaration g) ts

/-- A condition in parentheses. -/
def condition (g : Grammar) : Reader :=
  seq [tok "(", field "condition" (g .expression), tok ")"]

/-- A loop with a counter. -/
def forStatement (g : Grammar) : Reader :=
  node "for_statement" <| seq [tok "for", tok "(",
    branch (startsDeclaration g) (field "initializer" (variableDeclaration g))
      (sepBy (g .expression)), tok ";",
    optional (field "condition" (g .expression)), tok ";",
    sepBy (field "update" (g .expression)), tok ")", field "body" (g .statement)]

/-- A loop over a sequence. -/
def foreachStatement (g : Grammar) : Reader :=
  node "foreach_statement" <| seq [optional (tok "await"), tok "foreach", tok "(",
    choice [
      when (followedBy (seq [g .type, identifier]) (at? "in"))
        (seq [field "type" (g .type), field "left" identifier]),
      when (at? "var") (seq [field "type" (g .type), field "left" (sized tuplePattern)]),
      field "left" (g .expression) ],
    tok "in", field "right" (g .expression), tok ")", field "body" (g .statement)]

/-- A clause for errors. -/
def catchClause (g : Grammar) : Reader :=
  node "catch_clause" <| seq [tok "catch",
    optional (node "catch_declaration" (seq [tok "(", field "type" (g .type),
      optional (field "name" identifier), tok ")"])),
    optional (node "catch_filter_clause" (seq [tok "when", tok "(", g .expression, tok ")"])),
    field "body" (g .block)]

/-- A block with clauses for its errors and for its end. -/
def tryStatement (g : Grammar) : Reader :=
  node "try_statement" <| seq [tok "try", field "body" (g .block), many (catchClause g),
    optional (node "finally_clause" (seq [tok "finally", g .block]))]

/-- A section of a switch statement. -/
def switchSection (g : Grammar) : Reader :=
  node "switch_section" <| seq [
    choice [
      seq [tok "case", g .pattern,
        optional (node "when_clause" (seq [tok "when", g .expression])), tok ":"],
      seq [tok "default", tok ":"] ],
    many (g .statement)]

/-- A choice between sections. -/
def switchStatement (g : Grammar) : Reader :=
  node "switch_statement" <| seq [tok "switch",
    choice [
      seq [tok "(", field "value" (g .expression), tok ")"],
      field "value" (g .expression) ],
    field "body" (node "switch_body" (seq [tok "\x7b", many (switchSection g), tok "\x7d"]))]

/-- A statement that only goes on elsewhere, or does nothing. -/
def jumpStatement (g : Grammar) : Reader :=
  choice [
    node "break_statement" (seq [tok "break", tok ";"]),
    node "continue_statement" (seq [tok "continue", tok ";"]),
    node "empty_statement" (tok ";"),
    node "return_statement"
      (seq [tok "return", branch (at? ";") nothing (g .expression), tok ";"]),
    node "throw_statement" (seq [tok "throw", branch (at? ";") nothing (g .expression), tok ";"]),
    node "goto_statement" (seq [tok "goto",
      choice [seq [tok "case", g .expression], tok "default", identifier], tok ";"]),
    when (atPair (at? "yield") (atAny ["return", "break"])) (node "yield_statement"
      (seq [tok "yield", choice [seq [tok "return", g .expression], tok "break"], tok ";"])) ]

/-- A loop. -/
def loopStatement (g : Grammar) : Reader :=
  choice [
    node "while_statement" (seq [tok "while", condition g, field "body" (g .statement)]),
    node "do_statement"
      (seq [tok "do", field "body" (g .statement), tok "while", condition g, tok ";"]),
    forStatement g,
    when (fun ts => at? "foreach" ts || atPair (at? "await") (at? "foreach") ts)
      (foreachStatement g) ]

/-- A statement that starts with a keyword. -/
def keywordStatement (g : Grammar) : Reader :=
  choice [
    jumpStatement g,
    node "if_statement" (seq [tok "if", condition g, field "consequence" (g .statement),
      optional (seq [tok "else", field "alternative" (g .statement)])]),
    loopStatement g,
    node "lock_statement" (seq [tok "lock", tok "(", g .expression, tok ")", g .statement]),
    node "fixed_statement"
      (seq [tok "fixed", tok "(", variableDeclaration g, tok ")", g .statement]),
    when (atPair (atAny ["checked", "unchecked"]) (at? "\x7b"))
      (node "checked_statement" (seq [anyOf ["checked", "unchecked"], g .block])),
    when (atPair (at? "unsafe") (at? "\x7b"))
      (node "unsafe_statement" (seq [tok "unsafe", g .block])),
    tryStatement g,
    switchStatement g,
    when (fun ts => atPair (at? "using") (at? "(") ts ||
        (at? "await" ts && atPair (at? "using") (at? "(") (ts.drop 1)))
      (node "using_statement" (seq [optional (tok "await"), tok "using", tok "(",
        branch (startsDeclaration g) (variableDeclaration g) (g .expression), tok ")",
        field "body" (g .statement)])) ]

/-! ### Conditional compilation -/

/-- A condition on symbols. -/
def symbolCondition : Nat → Reader
  | 0 => refuse
  | depth + 1 =>
    let operand := choice [
      node "boolean_literal" (anyOf ["true", "false"]),
      identifier,
      literal,
      node "parenthesized_expression" (seq [tok "(", symbolCondition depth, tok ")"]),
      node "unary_expression" (seq [field "operator" (tok "!"), symbolCondition depth]) ]
    foldLeft operand fun left =>
      node "binary_expression" (seq [given (some "left") left,
        field "operator" (anyOf ["||", "&&", "==", "!="]), field "right" operand])

/-- The parts for the other cases, each inside the one before it. -/
def alternativePart (content : Reader) : Nat → Reader
  | 0 => refuse
  | depth + 1 =>
    choice [
      node "preproc_elif" (seq [tok "#elif", field "condition" (sized symbolCondition),
        many content, optional (field "alternative" (alternativePart content depth))]),
      node "preproc_else" (seq [tok "#else", many content]) ]

/-- Parts that are compiled only on a condition. -/
def conditionalPart (content : Reader) : Reader :=
  node "preproc_if" <| seq [tok "#if", field "condition" (sized symbolCondition), many content,
    optional (field "alternative" (sized (alternativePart content))), tok "#endif"]

/-! ### Statements -/

/-- A statement. -/
def statement (g : Grammar) : Reader :=
  choice [
    when (at? "\x7b") (g .block),
    when (at? "#if") (conditionalPart (g .statement)),
    when (atPair atIdentifier (at? ":"))
      (node "labeled_statement" (seq [identifier, tok ":", g .statement])),
    keywordStatement g,
    when (startsLocalFunction g) (localFunction g),
    when (startsLocalDeclaration g) (localDeclaration g),
    node "expression_statement" (seq [statementExpression g, tok ";"]) ]

end ViewLint.Grammar
