import ViewLint.Grammar.Type

/-!
# Expressions

Where C# leaves it open how a text groups, the reader looks ahead instead of reading twice: an
arrow after a parenthesis makes a lambda, a type in parentheses before an operand makes a cast,
and angle brackets hold generic arguments if what follows them cannot follow a comparison.
-/

namespace ViewLint.Grammar

open Reader

/-! ### Looking ahead -/

/-- The keywords that can start an operand. -/
def operandWords : List String :=
  ["this", "base", "new", "null", "true", "false", "typeof", "sizeof", "default", "checked",
    "unchecked", "delegate", "stackalloc", "throw", "ref"] ++ Token.predefinedTypes

/-- Whether an operand of a cast can start here. -/
def startsCastOperand (ts : List Token) : Bool :=
  match ts with
  | t :: _ =>
    t.isIdentifier || atAny (["(", "!", "~", "+", "-", "++", "--", "*", "&"] ++ operandWords) ts ||
      (match t.cls with
        | .literal _ => true
        | .interpolationStart => true
        | _ => false)
  | [] => false

/-- Whether an operand after a question mark or a star can start here. -/
def startsOperand (ts : List Token) : Bool :=
  startsCastOperand ts || at? "[" ts || at? ".." ts

/-- Whether angle brackets that end here can hold generic arguments. -/
def endsGenericArguments (ts : List Token) : Bool :=
  ts.isEmpty ||
    atAny ["(", ")", "]", "\x7d", ":", ";", ",", ".", "?", "==", "!=", "|", "^", "&&", "||", "&",
      "[", "=>", "\x7b", "->", "..", "??"] ts ||
    (match ts with
      | t :: _ => (match t.cls with
        | .interpolationClose => true
        | _ => false)
      | [] => true)

/-- Whether a query starts here: the word `from` with a variable and what it runs over. -/
def startsQuery (g : Grammar) (ts : List Token) : Bool :=
  match ts with
  | t :: rest =>
    t.isText "from" &&
      (atPair atIdentifier (at? "in") rest ||
        followedBy (g .type) (atPair atIdentifier (at? "in")) rest)
  | [] => false

/-- Whether a lambda starts here, after its modifiers. -/
def startsLambdaBody (ts : List Token) : Bool :=
  atPair atIdentifier (at? "=>") ts || afterGroup (at? "=>") ts

/-- Whether a lambda or an anonymous method starts here. -/
def startsAnonymous : List Token → Bool
  | t :: rest =>
    startsLambdaBody (t :: rest) || (t.isText "delegate" && !at? "*" rest) ||
      ((t.isText "async" || t.isText "static") && startsAnonymous rest)
  | [] => false

/-! ### Names and arguments -/

/-- A name in an expression. -/
def nameExpression (g : Grammar) : Reader :=
  branch (atPair atIdentifier (at? "<"))
    (branch (followedBy (node "generic_name" (seq [identifier, typeArguments g]))
        endsGenericArguments)
      (node "generic_name" (seq [identifier, typeArguments g])) identifier)
    identifier

/-- A declaration of a variable inside an expression. -/
def declarationExpression (g : Grammar) : Reader :=
  node "declaration_expression" <| seq [field "type" (g .type), field "name" identifier]

/-- Whether a variable is declared here. -/
def declaresVariable (g : Grammar) (ts : List Token) : Bool :=
  followedBy (seq [g .type, identifier]) (atAny [",", ")"]) ts

/-- An argument. -/
def argument (g : Grammar) : Reader :=
  node "argument" <| seq [
    optional (when (atPair atIdentifier (at? ":")) (seq [field "name" identifier, tok ":"])),
    optional (anyOf ["ref", "out", "in"]),
    branch (declaresVariable g) (declarationExpression g) (g .expression) ]

/-- Arguments in parentheses. -/
def argumentList (g : Grammar) : Reader :=
  node "argument_list" <| seq [tok "(", sepBy (argument g), tok ")"]

/-- Arguments in brackets. -/
def bracketedArguments (g : Grammar) : Reader :=
  node "bracketed_argument_list" <| seq [tok "[", sepBy1 (argument g), tok "]"]

/-- Arguments in brackets behind a question mark. -/
def elementBinding (g : Grammar) : Reader :=
  node "element_binding_expression" <| seq [tok "[", sepBy1 (argument g), tok "]"]

/-! ### Lambdas -/

/-- The parameters of a lambda. -/
def lambdaParameters (g : Grammar) : Reader :=
  branch (at? "(") (field "parameters" (g .parameterList))
    (field "parameters" (identifierAs "implicit_parameter"))

/-- A lambda or an anonymous method. -/
def anonymousFunction (g : Grammar) : Reader :=
  let modifiers := many (when (atPair (atAny ["async", "static"]) startsAnonymous)
    (wordAs "modifier" ["async", "static"]))
  choice [
    node "lambda_expression" (seq [modifiers, lambdaParameters g, tok "=>",
      field "body" (branch (at? "\x7b") (g .block) (g .expression))]),
    node "anonymous_method_expression" (seq [modifiers, tok "delegate",
      optional (when (at? "(") (field "parameters" (g .parameterList))), g .block]) ]

/-! ### Creations -/

/-- A list of expressions, or of assignments to members, in braces. -/
def initializer (g : Grammar) : Reader :=
  node "initializer_expression" <| seq [tok "\x7b",
    sepByTrailing (branch (at? "\x7b") (g .initializer) (g .expression)), tok "\x7d"]

/-- The brackets of an array with sizes. -/
def sizedRank (g : Grammar) : Reader :=
  node "array_rank_specifier" <| seq [tok "[",
    optional (seq [optional (g .expression), many (seq [tok ",", optional (g .expression)])]),
    tok "]"]

/-- A member of an anonymous object. -/
def anonymousMember (g : Grammar) : Reader :=
  branch (atPair atIdentifier (at? "=")) (seq [identifier, tok "=", g .expression])
    (g .expression)

/-- The type of a new array: the sizes belong to the first brackets. -/
def newArrayType (g : Grammar) : Reader :=
  seq [foldLeft
    (node "array_type" (seq [field "type" (elementType g), field "rank" (sizedRank g)]))
    fun left => node "array_type" (seq [given (some "type") left, field "rank" emptyRank])]

/-- An expression that starts with `new`. -/
def creation (g : Grammar) : Reader :=
  choice [
    when (atPair (at? "new") (at? "\x7b"))
      (node "anonymous_object_creation_expression"
        (seq [tok "new", tok "\x7b", sepByTrailing (anonymousMember g), tok "\x7d"])),
    when (atPair (at? "new") (at? "["))
      (node "implicit_array_creation_expression"
        (seq [tok "new", tok "[", many (tok ","), tok "]", g .initializer])),
    when (atPair (at? "new") (at? "("))
      (node "implicit_object_creation_expression"
        (seq [tok "new", g .argumentList, optional (g .initializer)])),
    when (fun ts => followedBy (seq [tok "new", elementType g]) (at? "[") ts)
      (node "array_creation_expression"
        (seq [tok "new", field "type" (newArrayType g), optional (g .initializer)])),
    node "object_creation_expression" (seq [tok "new", field "type" (elementType g),
      choice [
        seq [field "arguments" (g .argumentList), optional (field "initializer" (g .initializer))],
        field "initializer" (g .initializer) ]]) ]

/-- An array on the stack. -/
def stackAllocation (g : Grammar) : Reader :=
  choice [
    when (atPair (at? "stackalloc") (at? "["))
      (node "implicit_stackalloc_expression"
        (seq [tok "stackalloc", tok "[", tok "]", g .initializer])),
    node "stackalloc_expression"
      (seq [tok "stackalloc", field "type" (newArrayType g), optional (g .initializer)]) ]

/-- An element of a collection. -/
def collectionElement (g : Grammar) : Reader :=
  node "collection_element" <| branch (at? "..")
    (node "spread_element" (seq [tok "..", g .expression]))
    (node "expression_element" (g .expression))

/-- A collection in brackets. -/
def collection (g : Grammar) : Reader :=
  node "collection_expression" <| seq [tok "[", sepByTrailing (collectionElement g), tok "]"]

/-! ### Interpolated strings -/

/-- A token of a class, as a leaf of a named kind. -/
def classAs (kind : String) (test : TokenClass → Bool) : Reader :=
  single (fun t => test t.cls) (Token.named kind)

/-- The quotes of an interpolated string. -/
def interpolationQuote : Reader :=
  single (fun t => t.cls matches .interpolationQuote) fun t => .leaf "\"" false t.start t.stop

/-- A hole of an interpolated string. -/
def interpolation (g : Grammar) : Reader :=
  node "interpolation" <| seq [
    classAs "interpolation_brace" (fun | .interpolationOpen => true | _ => false),
    g .expression,
    optional (node "interpolation_alignment_clause" (seq [tok ",", g .expression])),
    optional (node "interpolation_format_clause" (tok ":")),
    classAs "interpolation_brace" (fun | .interpolationClose => true | _ => false) ]

/-- An interpolated string. -/
def interpolatedString (g : Grammar) : Reader :=
  node "interpolated_string_expression" <| seq [
    classAs "interpolation_start" (fun | .interpolationStart => true | _ => false),
    interpolationQuote,
    many (choice [
      classAs "string_content" (fun | .interpolationText => true | _ => false),
      classAs "escape_sequence" (fun | .interpolationEscape => true | _ => false),
      interpolation g ]),
    interpolationQuote ]

/-! ### Primary expressions -/

/-- A literal word. -/
def literalWord : Reader :=
  choice [
    wordAs "null_literal" ["null"],
    node "boolean_literal" (anyOf ["true", "false"]) ]

/-- A keyword with a type in parentheses. -/
def ofType (g : Grammar) (kind word : String) : Reader :=
  node kind <| seq [tok word, tok "(", field "type" (g .type), tok ")"]

/-- The end of an expression in parentheses, when the first of them and an argument are read. The
expression stands there without the node of the argument. -/
def parenthesizedEnd : List Concrete.Child → Reader
  | [paren, (_, .node _ _ [(_, inner)])] =>
    node "parenthesized_expression" (seq [given none [paren, (none, inner)], tok ")"])
  | _ => refuse

/-- An expression in parentheses, or a tuple of expressions. -/
def parenthesized (g : Grammar) : Reader :=
  andThen (seq [tok "(", argument g]) fun xs =>
    branch (at? ",")
      (node "tuple_expression" (seq [given none xs, some1 (seq [tok ",", argument g]), tok ")"]))
      (parenthesizedEnd xs)

/-- Whether a cast starts here: a type in parentheses, and an operand after it. -/
def startsCast (g : Grammar) (ts : List Token) : Bool :=
  followedBy (seq [tok "(", g .type, tok ")"]) startsCastOperand ts

/-- The clauses of a query after its first. -/
def queryClause (g : Grammar) : Reader :=
  let bound := branch (atPair atIdentifier (at? "in")) (field "name" identifier)
    (seq [field "type" (g .type), field "name" identifier])
  let fromClause := node "from_clause" (seq [tok "from", bound, tok "in", g .expression])
  let letClause := node "let_clause"
    (seq [tok "let", field "name" identifier, tok "=", g .expression])
  let joinClause := node "join_clause" (seq [tok "join", bound, tok "in", g .expression,
    tok "on", g .expression, tok "equals", g .expression,
    optional (node "join_into_clause" (seq [tok "into", identifier]))])
  let whereClause := node "where_clause" (seq [tok "where", g .expression])
  let ordering := seq [g .expression, optional (anyOf ["ascending", "descending"])]
  let orderClause := node "order_by_clause" (seq [tok "orderby", sepBy1 ordering])
  let selectClause := node "select_clause" (seq [tok "select", g .expression])
  let groupClause := node "group_clause"
    (seq [tok "group", g .expression, tok "by", g .expression])
  choice [fromClause, letClause, joinClause, whereClause, orderClause, selectClause, groupClause,
    seq [tok "into", identifier]]

/-- A query. -/
def query (g : Grammar) : Reader :=
  node "query_expression" <| some1 (queryClause g)

/-- An expression without operators. -/
def primary (g : Grammar) : Reader :=
  choice [
    literal,
    interpolatedString g,
    when (atPair atIdentifier (at? "::")) (aliasedName g),
    when (fun ts => !at? "await" ts) (nameExpression g),
    anyOf ["this", "base"],
    literalWord,
    when (at? "(") (parenthesized g),
    when (at? "new") (creation g),
    when (at? "[") (collection g),
    when (at? "typeof") (ofType g "typeof_expression" "typeof"),
    when (at? "sizeof") (ofType g "sizeof_expression" "sizeof"),
    when (atPair (at? "default") (at? "(")) (ofType g "default_expression" "default"),
    node "default_expression" (tok "default"),
    when (atPair (atAny ["checked", "unchecked"]) (at? "("))
      (node "checked_expression"
        (seq [anyOf ["checked", "unchecked"], tok "(", g .expression, tok ")"])),
    when (at? "stackalloc") (stackAllocation g),
    predefinedType ]

/-! ### Operators -/

/-- A mark made of a closing angle bracket and what directly follows it. -/
def joined (parts : List String) : Reader := fun ts =>
  match ts with
  | t :: _ =>
    if t.isText (parts.headD "") then loop t.start t.stop (parts.drop 1) (ts.drop 1) else none
  | [] => none
where
  /-- The further parts, which must follow without space. -/
  loop (start stop : Nat) : List String → Reader
    | [], ts => some ([(none, .leaf (String.join parts) false start stop)], ts)
    | p :: ps, t :: rest =>
      if t.isText p && t.start == stop then loop start t.stop ps rest else none
    | _ :: _, [] => none

/-- Binary operators with their strengths; a stronger operator groups first. -/
def binaryOperators : List (Nat × Bool × List (List String)) :=
  [ (3, true, [["??"]]),
    (4, false, [["||"]]),
    (5, false, [["&&"]]),
    (6, false, [["|"]]),
    (7, false, [["^"]]),
    (8, false, [["&"]]),
    (9, false, [["=="], ["!="]]),
    (11, false, [["<<"], [">", ">", ">"], [">", ">"]]),
    (10, false, [["<"], ["<="], [">", "="], [">"]]),
    (12, false, [["+"], ["-"]]),
    (13, false, [["*"], ["/"], ["%"]]) ]

/-- Whether an assignment operator that starts with a closing angle bracket stands here. -/
def atAngleAssignment (ts : List Token) : Bool :=
  (joined [">", ">", "="] ts).isSome || (joined [">", ">", ">", "="] ts).isSome ||
    (joined [">", ">="] ts).isSome

/-- The operators of assignments. -/
def assignmentOperator : Reader :=
  choice [
    anyOf ["=", "+=", "-=", "*=", "/=", "%=", "&=", "|=", "^=", "<<=", "??="],
    joined [">", ">", "="],
    joined [">", ">", ">", "="] ]

/-- The access to a member. -/
def memberAccess (g : Grammar) (left : List Concrete.Child) : Reader :=
  node "member_access_expression" <| seq [given (some "expression") left, anyOf [".", "->"],
    field "name" (nameExpression g)]

/-- The marks after an operand: accesses, calls, elements and increments. -/
def postfixMark (g : Grammar) (left : List Concrete.Child) : Reader :=
  choice [
    memberAccess g left,
    when (at? "(") (node "invocation_expression"
      (seq [given (some "function") left, field "arguments" (g .argumentList)])),
    when (at? "[") (node "element_access_expression"
      (seq [given (some "expression") left, field "subscript" (bracketedArguments g)])),
    when (atPair (at? "?") (at? ".")) (node "conditional_access_expression"
      (seq [given (some "condition") left, tok "?",
        node "member_binding_expression" (seq [tok ".", field "name" (nameExpression g)])])),
    when (fun ts => atPair (at? "?") (at? "[") ts &&
        !followedBy (seq [tok "?", collection g]) (at? ":") ts)
      (node "conditional_access_expression"
        (seq [given (some "condition") left, tok "?", elementBinding g])),
    node "postfix_unary_expression" (seq [given none left, anyOf ["++", "--"]]),
    when (at? "!") (node "postfix_unary_expression" (seq [given none left, tok "!"])) ]

/-- An arm of a switch expression. -/
def switchArm (g : Grammar) : Reader :=
  node "switch_expression_arm" <| seq [g .pattern,
    optional (node "when_clause" (seq [tok "when", g .expression])), tok "=>", g .expression]

/-- An assignment to a member in a copy. -/
def withInitializer (g : Grammar) : Reader :=
  node "with_initializer" <| seq [identifier, tok "=", g .expression]

/-- The forms in braces after an operand: a choice by patterns, and a changed copy. -/
def bracedMark (g : Grammar) (left : List Concrete.Child) : Reader :=
  choice [
    when (atPair (at? "switch") (at? "\x7b")) (node "switch_expression"
      (seq [given none left, tok "switch", tok "\x7b", sepByTrailing (switchArm g), tok "\x7d"])),
    when (atPair (at? "with") (at? "\x7b")) (node "with_expression"
      (seq [given none left, tok "with", tok "\x7b", sepByTrailing (withInitializer g),
        tok "\x7d"])) ]

/-- An operand with the operators in front of it and the marks behind it. -/
def unary (g : Grammar) : Reader :=
  choice [
    when startsAnonymous (anonymousFunction g),
    when (at? "await") (node "await_expression" (seq [tok "await", g .unary])),
    when (at? "throw") (node "throw_expression" (seq [tok "throw", g .expression])),
    node "prefix_unary_expression" (seq [anyOf ["!", "~", "+", "-", "++", "--", "^"], g .unary]),
    when (at? "*") (node "pointer_indirection_expression" (seq [tok "*", g .unary])),
    when (at? "&") (node "address_of_expression" (seq [tok "&", g .unary])),
    when (startsCast g) (node "cast_expression" (seq [tok "(", field "type" (g .type), tok ")",
      field "value" (g .unary)])),
    foldLeft (primary g) (postfixMark g) ]

/-- The tests of a type or a pattern. -/
def typeTest (g : Grammar) (left : List Concrete.Child) : Reader :=
  choice [
    when (at? "as") (node "as_expression"
      (seq [given (some "left") left, tok "as",
        field "right" (operandType g startsOperand)])),
    when (at? "is") (node "is_pattern_expression"
      (seq [given (some "expression") left, tok "is", field "pattern" (g .pattern)])),
    when (at? "is") (node "is_expression"
      (seq [given (some "left") left, tok "is",
        field "right" (operandType g startsOperand)])) ]

/-- An operator of a strength behind an operand, and the operand after it. -/
def operatorMark (g : Grammar) (left : List Concrete.Child) :
    Nat × Bool × List (List String) → Reader
  | (strength, right, marks) =>
    node "binary_expression" <| seq [given none left, choice (marks.map joined),
      g (.binary (if right then strength else strength + 1))]

/-- The operators of at least the given strength behind an operand. -/
def binaryMark (g : Grammar) (strength : Nat) (left : List Concrete.Child) : Reader :=
  branch atAngleAssignment refuse <| choice [
    bracedMark g left,
    when (at? "..") (node "range_expression"
      (seq [given none left, tok "..", optional (when startsOperand (g .unary))])),
    when (fun _ => strength ≤ 10) (typeTest g left),
    choice ((binaryOperators.filter fun o => strength ≤ o.1).map (operatorMark g left)) ]

/-- A binary expression whose operators have at least the given strength. -/
def binary (g : Grammar) (strength : Nat) : Reader :=
  foldLeft
    (choice [
      when (at? "..") (node "range_expression"
        (seq [tok "..", optional (when startsOperand (g .unary))])),
      unary g ])
    (binaryMark g strength)

/-- The rest of a conditional expression. -/
def conditionalTail (g : Grammar) (condition : List Concrete.Child) : Reader :=
  node "conditional_expression" <| seq [given (some "condition") condition, tok "?",
    field "consequence" (g .expression), tok ":", field "alternative" (g .expression)]

/-- The rest of an assignment. -/
def assignmentTail (g : Grammar) (target : List Concrete.Child) : Reader :=
  node "assignment_expression" <| seq [given (some "left") target,
    field "operator" assignmentOperator,
    field "right" (branch (at? "\x7b") (g .initializer) (g .expression))]

/-- An expression. -/
def expression (g : Grammar) : Reader :=
  choice [
    when (startsQuery g) (query g),
    when (at? "ref") (node "ref_expression" (seq [tok "ref", g .expression])),
    andThen (binary g 0) fun left =>
      branch (at? "?") (conditionalTail g left)
        (branch (followedBy assignmentOperator fun _ => true) (assignmentTail g left)
          (keep left)) ]

end ViewLint.Grammar
