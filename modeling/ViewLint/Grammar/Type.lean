import ViewLint.Grammar.Reader

/-!
# Types and names

Names with generic arguments and namespaces, and the types built from them. Reading a type never
reads an expression, so it can be used to look ahead.
-/

namespace ViewLint.Grammar

open Reader

/-! ### Names -/

/-- Generic arguments; between the brackets there may also be only commas. -/
def typeArguments (g : Grammar) : Reader :=
  node "type_argument_list" <| seq [tok "<",
    choice [seq [sepBy1 (g .type), tok ">"], seq [many (tok ","), tok ">"]]]

/-- A name without a namespace. -/
def simpleName (g : Grammar) : Reader :=
  branch (atPair atIdentifier (at? "<"))
    (choice [node "generic_name" (seq [identifier, typeArguments g]), identifier])
    identifier

/-- A name whose namespace may start with an alias. -/
def aliasedName (g : Grammar) : Reader :=
  branch (atPair atIdentifier (at? "::"))
    (node "alias_qualified_name"
      (seq [field "alias" identifier, tok "::", field "name" (simpleName g)]))
    (simpleName g)

/-- A name with its namespace. -/
def name (g : Grammar) : Reader :=
  foldLeft (aliasedName g) fun left =>
    node "qualified_name" <| seq [given (some "qualifier") left, tok ".",
      field "name" (simpleName g)]

/-! ### Types -/

/-- A type that the language itself names. -/
def predefinedType : Reader :=
  wordAs "predefined_type" Token.predefinedTypes

/-- The type that the compiler infers. -/
def implicitType : Reader :=
  node "implicit_type" (tok "var")

/-- An element of a tuple type. -/
def tupleElement (g : Grammar) : Reader :=
  node "tuple_element" <| seq [field "type" (g .type), optional (field "name" identifier)]

/-- A tuple of at least two types. -/
def tupleType (g : Grammar) : Reader :=
  node "tuple_type" <| seq [tok "(", tupleElement g, some1 (seq [tok ",", tupleElement g]), tok ")"]

/-- A type without array, pointer or nullable marks behind it. -/
def plainType (g : Grammar) : Reader :=
  choice [
    predefinedType,
    when (at? "var") (branch (atPair (at? "var") (atAny [".", "<", "::"])) (name g) implicitType),
    tupleType g,
    when (at? "ref")
      (node "ref_type" (seq [tok "ref", optional (tok "readonly"), field "type" (g .type)])),
    when
      (atPair (at? "scoped") fun ts => atIdentifier ts || atAny ("ref" :: Token.predefinedTypes) ts)
      (node "scoped_type" (seq [tok "scoped", field "type" (g .type)])),
    when (fun ts => !at? "await" ts) (name g) ]

/-- The brackets of an array without sizes. -/
def emptyRank : Reader :=
  node "array_rank_specifier" <| seq [tok "[", many (tok ","), tok "]"]

/-- The marks after a type. -/
def typeMark (left : List Concrete.Child) : Reader :=
  choice [
    node "array_type" (seq [given (some "type") left, field "rank" emptyRank]),
    node "nullable_type" (seq [given (some "type") left, tok "?"]),
    node "pointer_type" (seq [given (some "type") left, tok "*"]) ]

/-- A type. -/
def type (g : Grammar) : Reader :=
  foldLeft (plainType g) typeMark

/-- A type to whose right an operator may stand, as in `x is T ? a : b`: no question mark or star
is taken that an operand follows. -/
def operandType (g : Grammar) (startsOperand : List Token → Bool) : Reader :=
  foldLeft (plainType g) fun left =>
    branch (atPair (atAny ["?", "*"]) startsOperand) refuse (typeMark left)

/-- A type with sizes in the first of its array brackets. -/
def elementType (g : Grammar) : Reader :=
  foldLeft (plainType g) fun left =>
    choice [
      node "nullable_type" (seq [given (some "type") left, tok "?"]),
      node "pointer_type" (seq [given (some "type") left, tok "*"]) ]

/-! ### Type parameters -/

/-- A type parameter. -/
def typeParameter (g : Grammar) : Reader :=
  node "type_parameter" <| seq [many (g .attributeList), optional (anyOf ["in", "out"]),
    field "name" identifier]

/-- The type parameters of a declaration. -/
def typeParameters (g : Grammar) : Reader :=
  node "type_parameter_list" <| seq [tok "<", sepBy1 (typeParameter g), tok ">"]

/-- What a type parameter is asked to be. -/
def constraint (g : Grammar) : Reader :=
  node "type_parameter_constraint" <| choice [
    seq [tok "class", optional (tok "?")],
    tok "struct",
    when (atPair (at? "notnull") (atAny [",", "\x7b", ";", "=>", "where"])) (tok "notnull"),
    when (atPair (at? "unmanaged") (atAny [",", "\x7b", ";", "=>", "where"])) (tok "unmanaged"),
    node "constructor_constraint" (seq [tok "new", tok "(", tok ")"]),
    field "type" (g .type) ]

/-- The constraints of one type parameter. -/
def constraints (g : Grammar) : Reader :=
  node "type_parameter_constraints_clause" <| seq [tok "where", identifier, tok ":",
    sepBy1 (constraint g)]

end ViewLint.Grammar
