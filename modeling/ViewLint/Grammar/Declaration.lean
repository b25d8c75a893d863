import ViewLint.Grammar.Statement

/-!
# Declarations

Types and namespaces with their members.
-/

namespace ViewLint.Grammar

open Reader

/-- The attributes and modifiers in front of a declaration. -/
def declarationHead (g : Grammar) : Reader :=
  seq [many (g .attributeList), modifiers]

/-- A semicolon right behind a closing brace, which belongs to no node. -/
def hiddenSemicolon (stop : Nat) : List Token → List Token
  | t :: rest => if t.isText ";" && t.start == stop then rest else t :: rest
  | [] => []

/-- Reads a declaration, and passes over a semicolon right behind its closing brace. -/
def endedByBrace (p : Reader) : Reader := fun ts =>
  match p ts with
  | some (xs, rest) =>
    let last := (xs.getLast?.bind fun x => x.2.stop?).getD 0
    some (xs, hiddenSemicolon last rest)
  | none => none

/-- Members in braces. -/
def declarationList (g : Grammar) : Reader :=
  node "declaration_list" <| seq [tok "\x7b", many (g .declaration), tok "\x7d"]

/-- A base type with arguments for its constructor. -/
def constructedBase (g : Grammar) : Reader :=
  node "primary_constructor_base_type" <| seq [field "type" (name g), g .argumentList]

/-- The types that a type is based on. -/
def baseList (g : Grammar) : Reader :=
  node "base_list" <| seq [tok ":", sepBy1 (branch
    (followedBy (g .type) (at? "(")) (constructedBase g) (g .type))]

/-- The body of a type: members, or a semicolon. -/
def typeBody (g : Grammar) : Reader :=
  choice [endedByBrace (field "body" (declarationList g)), tok ";"]

/-- A class, structure or interface: its keyword and what follows. -/
def typeDeclaration (g : Grammar) (kind : String) (keyword : Reader) : Reader :=
  node kind <| seq [declarationHead g, keyword, field "name" identifier,
    optional (typeParameters g), optional (g .parameterList), optional (baseList g),
    many (constraints g), typeBody g]

/-- A member of an enumeration. -/
def enumMember (g : Grammar) : Reader :=
  node "enum_member_declaration" <| seq [many (g .attributeList), field "name" identifier,
    optional (seq [tok "=", field "value" (g .expression)])]

/-- An enumeration. -/
def enumDeclaration (g : Grammar) : Reader :=
  node "enum_declaration" <| seq [declarationHead g, tok "enum", field "name" identifier,
    optional (node "base_list" (seq [tok ":", g .type])),
    endedByBrace (field "body" (node "enum_member_declaration_list"
      (seq [tok "\x7b", sepByTrailing (enumMember g), tok "\x7d"])))]

/-- A type of functions. -/
def delegateDeclaration (g : Grammar) : Reader :=
  node "delegate_declaration" <| seq [declarationHead g, tok "delegate",
    field "type" (g .type), field "name" identifier,
    optional (field "type_parameters" (typeParameters g)),
    field "parameters" (g .parameterList), many (constraints g), tok ";"]

/-- Whether a keyword stands here behind attributes and modifiers. -/
def headThen (g : Grammar) (test : List Token → Bool) : List Token → Bool :=
  followedBy (declarationHead g) test

/-- Whether a record is declared here. -/
def startsRecord : List Token → Bool :=
  atPair (at? "record") fun rest => atIdentifier rest || atAny ["class", "struct"] rest

/-- A type, of any kind. -/
def anyType (g : Grammar) : Reader :=
  choice [
    when (headThen g (at? "class")) (typeDeclaration g "class_declaration" (tok "class")),
    when (headThen g (at? "struct")) (typeDeclaration g "struct_declaration" (tok "struct")),
    when (headThen g (atPair (at? "ref") (at? "struct")))
      (typeDeclaration g "struct_declaration" (seq [tok "ref", tok "struct"])),
    when (headThen g (at? "interface"))
      (typeDeclaration g "interface_declaration" (tok "interface")),
    when (headThen g startsRecord) (typeDeclaration g "record_declaration"
      (seq [tok "record", optional (anyOf ["class", "struct"])])),
    when (headThen g (at? "enum")) (enumDeclaration g),
    when (headThen g (at? "delegate")) (delegateDeclaration g) ]

/-! ### Members -/

/-- The interface that a member implements explicitly, in front of the name of the member: a dot
and a name belong to it if another dot follows. -/
def explicitInterface (g : Grammar) : Reader :=
  node "explicit_interface_specifier" <| seq [
    foldLeft (simpleName g) fun left =>
      when (followedBy (seq [tok ".", simpleName g]) (at? "."))
        (node "qualified_name" (seq [given (some "qualifier") left, tok ".",
          field "name" (simpleName g)])),
    tok "."]

/-- An accessor of a property or an event. -/
def accessor (g : Grammar) : Reader :=
  node "accessor_declaration" <| seq [many (g .attributeList), modifiers,
    field "name" (choice [anyOf ["get", "set", "add", "remove", "init"], identifier]),
    functionBody g]

/-- The accessors of a property or an event. -/
def accessorList (g : Grammar) : Reader :=
  node "accessor_list" <| seq [tok "\x7b", many (accessor g), tok "\x7d"]

/-- A variable of a type. -/
def fieldDeclaration (g : Grammar) : Reader :=
  node "field_declaration" <| seq [declarationHead g, variableDeclaration g, tok ";"]

/-- A method. -/
def methodDeclaration (g : Grammar) : Reader :=
  node "method_declaration" <| seq [declarationHead g, field "returns" (g .type),
    optional (explicitInterface g), field "name" identifier,
    optional (field "type_parameters" (typeParameters g)),
    field "parameters" (g .parameterList), many (constraints g), functionBody g]

/-- A property. -/
def propertyDeclaration (g : Grammar) : Reader :=
  node "property_declaration" <| seq [declarationHead g, field "type" (g .type),
    optional (explicitInterface g), field "name" identifier,
    choice [
      seq [field "accessors" (accessorList g),
        optional (seq [tok "=", field "value" (g .expression), tok ";"])],
      seq [field "value" (arrowClause g), tok ";"] ]]

/-- An indexer. -/
def indexerDeclaration (g : Grammar) : Reader :=
  node "indexer_declaration" <| seq [declarationHead g, field "type" (g .type),
    optional (explicitInterface g), tok "this", field "parameters" (bracketedParameters g),
    choice [
      field "accessors" (accessorList g),
      seq [field "value" (arrowClause g), tok ";"] ]]

/-- An event. -/
def eventDeclaration (g : Grammar) : Reader :=
  choice [
    node "event_field_declaration"
      (seq [declarationHead g, tok "event", variableDeclaration g, tok ";"]),
    node "event_declaration" (seq [declarationHead g, tok "event", field "type" (g .type),
      optional (explicitInterface g), field "name" identifier,
      choice [field "accessors" (accessorList g), tok ";"]]) ]

/-- The operators that a type can define. -/
def overloadableOperator : Reader :=
  choice [
    anyOf ["!", "~", "++", "--", "true", "false", "+", "-", "*", "/", "%", "^", "|", "&", "<<",
      "==", "!=", "<=", "<"],
    joined [">", ">", ">"], joined [">", ">"], joined [">", "="], joined [">"] ]

/-- An operator. -/
def operatorDeclaration (g : Grammar) : Reader :=
  node "operator_declaration" <| seq [declarationHead g, field "type" (g .type),
    optional (explicitInterface g), tok "operator", optional (tok "checked"),
    field "operator" overloadableOperator, field "parameters" (g .parameterList), functionBody g]

/-- A conversion. -/
def conversionDeclaration (g : Grammar) : Reader :=
  node "conversion_operator_declaration" <| seq [declarationHead g,
    anyOf ["implicit", "explicit"], optional (explicitInterface g), tok "operator",
    optional (tok "checked"), field "type" (g .type), field "parameters" (g .parameterList),
    functionBody g]

/-- A constructor. -/
def constructorDeclaration (g : Grammar) : Reader :=
  node "constructor_declaration" <| seq [declarationHead g, field "name" identifier,
    field "parameters" (g .parameterList),
    optional (node "constructor_initializer"
      (seq [tok ":", anyOf ["base", "this"], g .argumentList])),
    functionBody g]

/-- A destructor. -/
def destructorDeclaration (g : Grammar) : Reader :=
  node "destructor_declaration" <| seq [many (g .attributeList), optional (tok "extern"),
    tok "~", field "name" identifier, field "parameters" (g .parameterList), functionBody g]

/-- Whether tokens that fit stand here behind the head of a member, its type and, if it implements
one, its interface. -/
def typedThen (g : Grammar) (test : List Token → Bool) : List Token → Bool :=
  followedBy (seq [declarationHead g, g .type, optional (explicitInterface g)]) test

/-- Whether one of some marks stands behind the name of a member with a type. -/
def namedThen (g : Grammar) (marks : List String) : List Token → Bool :=
  typedThen g (atPair atIdentifier (atAny marks))

/-- A member whose head is followed by a type and a name. -/
def typedMember (g : Grammar) : Reader :=
  branch (typedThen g (at? "this")) (indexerDeclaration g) <|
  branch (typedThen g (at? "operator")) (operatorDeclaration g) <|
  branch (namedThen g ["(", "<"]) (methodDeclaration g) <|
  branch (namedThen g ["\x7b", "=>"]) (propertyDeclaration g) <|
  fieldDeclaration g

/-! ### Namespaces -/

/-- The use of a namespace or a type. -/
def usingDirective (g : Grammar) : Reader :=
  node "using_directive" <| seq [optional (tok "global"), tok "using",
    choice [
      seq [optional (tok "unsafe"), field "name" identifier, tok "=", g .type],
      seq [optional (tok "static"), optional (tok "unsafe"), name g] ],
    tok ";"]

/-- A namespace with its members in braces. -/
def namespaceDeclaration (g : Grammar) : Reader :=
  node "namespace_declaration" <| seq [tok "namespace", field "name" (name g),
    endedByBrace (field "body" (declarationList g))]

/-- A namespace that goes to the end of the file. -/
def fileNamespace (g : Grammar) : Reader :=
  node "file_scoped_namespace_declaration" <| seq [tok "namespace", field "name" (name g),
    tok ";"]

/-- A member of a type or a namespace. -/
def declaration (g : Grammar) : Reader :=
  choice [
    when (at? "#if") (conditionalPart (g .declaration)),
    anyType g,
    when (at? "namespace") (namespaceDeclaration g),
    when (fun ts => at? "using" ts || atPair (at? "global") (at? "using") ts) (usingDirective g),
    when (headThen g (at? "event")) (eventDeclaration g),
    when (headThen g (atAny ["implicit", "explicit"])) (conversionDeclaration g),
    when (headThen g (at? "~")) (destructorDeclaration g),
    when (headThen g (atPair (at? "extern") (at? "~"))) (destructorDeclaration g),
    when (headThen g (atPair atIdentifier (at? "("))) (constructorDeclaration g),
    typedMember g ]

end ViewLint.Grammar
