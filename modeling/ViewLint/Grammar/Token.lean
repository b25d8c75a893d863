import ViewLint.Grammar.Concrete

/-!
# Tokens of C#

The tokens that the reader of C# works on. Comments and most directives are no tokens; the lexer
sets them aside.
-/

namespace ViewLint

/-- The classes of tokens. -/
inductive TokenClass where
  /-- An identifier or a keyword. -/
  | word
  /-- An identifier that the mark in front keeps from being a keyword. -/
  | verbatimWord
  | punctuation
  /-- A literal, with its parts. -/
  | literal (parts : Concrete)
  /-- The mark in front of an interpolated string. -/
  | interpolationStart
  | interpolationQuote
  | interpolationText
  | interpolationEscape
  | interpolationOpen
  | interpolationClose
  /-- A directive of conditional compilation, such as `#if`. -/
  | directive
  /-- A character that starts no token. -/
  | unknown
deriving Repr, Inhabited

/-- A token: its class, its text and its range of bytes. -/
structure Token where
  cls : TokenClass
  text : String
  start : Nat
  stop : Nat
deriving Repr, Inhabited

namespace Token

/-- The words that are never identifiers. -/
def reservedWords : List String :=
  ["abstract", "as", "base", "bool", "break", "byte", "case", "catch", "char", "checked", "class",
    "const", "continue", "decimal", "default", "delegate", "do", "double", "else", "enum", "event",
    "explicit", "extern", "false", "finally", "fixed", "float", "for", "foreach", "goto", "if",
    "implicit", "in", "int", "interface", "internal", "is", "lock", "long", "namespace", "new",
    "null", "object", "operator", "out", "override", "params", "private", "protected", "public",
    "readonly", "ref", "return", "sbyte", "sealed", "short", "sizeof", "stackalloc", "static",
    "string", "struct", "switch", "this", "throw", "true", "try", "typeof", "uint", "ulong",
    "unchecked", "unsafe", "ushort", "using", "virtual", "void", "volatile", "while"]

/-- The keywords that can also be identifiers; as such they are nodes of their own. -/
def contextualWords : List String :=
  ["alias", "ascending", "by", "descending", "equals", "file", "from", "global", "group", "into",
    "join", "let", "notnull", "on", "orderby", "scoped", "select", "unmanaged", "var", "when",
    "where", "yield"]

/-- The words for the types that the language itself names. -/
def predefinedTypes : List String :=
  ["bool", "byte", "char", "decimal", "double", "float", "int", "long", "object", "sbyte", "short",
    "string", "uint", "ulong", "ushort", "nint", "nuint", "void"]

/-- The words that can modify a declaration. -/
def modifierWords : List String :=
  ["abstract", "async", "const", "extern", "file", "fixed", "internal", "new", "override",
    "partial", "private", "protected", "public", "readonly", "required", "sealed", "static",
    "unsafe", "virtual", "volatile"]

/-- Whether the token is the given keyword or punctuation mark. -/
def isText (t : Token) (text : String) : Bool :=
  match t.cls with
  | .word => t.text == text
  | .punctuation => t.text == text
  | .directive => t.text == text
  | _ => false

/-- Whether the token can be an identifier. -/
def isIdentifier (t : Token) : Bool :=
  match t.cls with
  | .word => !reservedWords.contains t.text
  | .verbatimWord => true
  | _ => false

/-- The token as a leaf of the kind that its text names. -/
def plain (t : Token) : Concrete :=
  .leaf t.text false t.start t.stop

/-- The token as a leaf of a kind that the grammar names. -/
def named (kind : String) (t : Token) : Concrete :=
  .leaf kind true t.start t.stop

/-- The token as an identifier. -/
def identifier (t : Token) : Concrete :=
  match t.cls with
  | .word =>
    if contextualWords.contains t.text then .node "identifier" true [(none, t.plain)]
    else t.named "identifier"
  | _ => t.named "identifier"

end Token

end ViewLint
