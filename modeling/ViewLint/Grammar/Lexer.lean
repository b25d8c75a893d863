import ViewLint.Grammar.Token
import ViewLint.Text.Cut
import ViewLint.Text.Identifier

/-!
# Cutting C# source into tokens

Each class of token has a small scanner of its own, which takes the characters from its place on
and gives the lexeme with the characters after it. The lexer runs through the source with a stack
of the interpolated strings that are open, because the text of such a string and the code in its
holes follow different rules.

## Main definitions

* `scanWord`, `scanNumber`, `scanString` and their companions: the scanners.
* `Frame`: an open interpolated string or an open hole of one.
* `Step`, `step`: one step of the lexer.
* `Lexed`: the tokens of a source, with the comments and directives set aside.
* `lex`: the tokens of a source.
-/

namespace ViewLint

namespace Lexer

/-- The number of bytes of a text. -/
def byteLength (cs : List Char) : Nat :=
  cs.foldl (fun n c => n + c.utf8Size) 0

/-! ### Trivia -/

/-- The characters that may stand between tokens without meaning. -/
def isSpace (c : Char) : Bool :=
  (9 ≤ c.toNat && c.toNat ≤ 13) || c == ' ' || c.toNat == 0xA0 || c.toNat == 0xFEFF ||
    c.toNat == 0x3000

/-- A comment to the end of the line; its slashes have been read. -/
def lineComment (cs : List Char) : List Char × List Char :=
  cs.span fun c => c != '\n' && c != '\r'

/-- A comment between slash and star; its opening has been read. -/
def blockComment : List Char → Option (List Char × List Char)
  | '*' :: '/' :: rest => some (['*', '/'], rest)
  | c :: rest => (blockComment rest).map fun (text, r) => (c :: text, r)
  | [] => none

/-! ### Words and numbers -/

/-- An identifier or keyword, if one stands here. -/
def scanWord : List Char → Option (List Char × List Char)
  | c :: rest =>
    if Text.isIdentifierStart c then
      let (more, r) := rest.span Text.isIdentifierPart
      some (c :: more, r)
    else none
  | [] => none

/-- An identifier with the mark that keeps it from being a keyword, if one stands here. -/
def scanVerbatimWord : List Char → Option (List Char × List Char)
  | '@' :: rest => (scanWord rest).map fun (word, rest) => ('@' :: word, rest)
  | _ => none

/-- A digit or an underscore between digits. -/
def isDigitPart (c : Char) : Bool :=
  c.isDigit || c == '_'

/-- Whether a character is a hexadecimal digit or an underscore between them. -/
def isHexPart (c : Char) : Bool :=
  c.isDigit || ('a' ≤ c && c ≤ 'f') || ('A' ≤ c && c ≤ 'F') || c == '_'

/-- The suffix of an integer: unsigned, long, or both. -/
def integerSuffix (cs : List Char) : List Char × List Char :=
  let isU (c : Char) : Bool := c == 'u' || c == 'U'
  let isL (c : Char) : Bool := c == 'l' || c == 'L'
  match cs with
  | a :: b :: rest =>
    if (isU a && isL b) || (isL a && isU b) then ([a, b], rest)
    else if isU a || isL a then ([a], b :: rest)
    else ([], cs)
  | [a] => if isU a || isL a then ([a], []) else ([], cs)
  | [] => ([], [])

/-- The exponent of a real number, if one stands here. -/
def exponent? : List Char → Option (List Char × List Char)
  | e :: rest =>
    if e == 'e' || e == 'E' then
      match rest with
      | s :: d :: r =>
        if (s == '+' || s == '-') && d.isDigit then
          let (more, r) := r.span isDigitPart
          some (e :: s :: d :: more, r)
        else if s.isDigit then
          let (more, r) := rest.span isDigitPart
          some (e :: more, r)
        else none
      | [d] => if d.isDigit then some ([e, d], []) else none
      | [] => none
    else none
  | [] => none

/-- The suffix of a real number, if one stands here. -/
def realSuffix? : List Char → Option (List Char × List Char)
  | c :: rest => if "fFdDmM".toList.contains c then some ([c], rest) else none
  | [] => none

/-- A fraction with its dot, if one stands here. -/
def fraction? : List Char → Option (List Char × List Char)
  | '.' :: d :: rest =>
    if d.isDigit then
      let (more, r) := rest.span isDigitPart
      some ('.' :: d :: more, r)
    else none
  | _ => none

/-- The optional parts of a real number, from `read` on. -/
def realTail (read cs : List Char) : List Char × List Char :=
  let (e, cs) := (exponent? cs).getD ([], cs)
  let (s, cs) := (realSuffix? cs).getD ([], cs)
  (read ++ e ++ s, cs)

/-- A number that starts with a digit: its kind, its text and the rest. -/
def scanNumber (cs : List Char) : String × List Char × List Char :=
  let radix (isPart : Char → Bool) (mark : List Char) (rest : List Char) :
      String × List Char × List Char :=
    let (digits, r) := rest.span isPart
    let (suffix, r) := integerSuffix r
    ("integer_literal", mark ++ digits ++ suffix, r)
  match cs with
  | '0' :: 'x' :: rest => radix isHexPart ['0', 'x'] rest
  | '0' :: 'X' :: rest => radix isHexPart ['0', 'X'] rest
  | '0' :: 'b' :: rest => radix (fun c => c == '0' || c == '1' || c == '_') ['0', 'b'] rest
  | '0' :: 'B' :: rest => radix (fun c => c == '0' || c == '1' || c == '_') ['0', 'B'] rest
  | _ =>
    let (digits, r) := cs.span isDigitPart
    match fraction? r with
    | some (f, r) =>
      let (text, r) := realTail (digits ++ f) r
      ("real_literal", text, r)
    | none =>
      if (exponent? r).isSome || (realSuffix? r).isSome then
        let (text, r) := realTail digits r
        ("real_literal", text, r)
      else
        let (suffix, r) := integerSuffix r
        ("integer_literal", digits ++ suffix, r)

/-! ### Strings and characters -/

/-- An escape whose backslash has been read: the characters after the backslash, and the rest. -/
def scanEscape : List Char → Option (List Char × List Char)
  | 'x' :: rest =>
    let digits := (rest.take 4).takeWhile fun c => isHexPart c && c != '_'
    if digits.length < 1 then none else some ('x' :: digits, rest.drop digits.length)
  | 'u' :: rest => hex 'u' 4 rest
  | 'U' :: rest => hex 'U' 8 rest
  | c :: rest => if "abefnrtv'\"\\?0".toList.contains c then some ([c], rest) else none
  | [] => none
where
  /-- An escape by a fixed number of hexadecimal digits. -/
  hex (mark : Char) (count : Nat) (rest : List Char) : Option (List Char × List Char) :=
    let digits := rest.take count
    if digits.length = count ∧ digits.all fun c => isHexPart c && c != '_' then
      some (mark :: digits, rest.drop count)
    else none

/-- The parts of a string in quotes after its opening quote, which starts at `start`, up to and
with the closing one: its leaves, the offset after it and the rest. -/
def stringParts : Nat → Nat → List Char → Option (List Concrete × Nat × List Char)
  | 0, _, _ => none
  | limit + 1, start, cs =>
    match cs with
    | '"' :: rest => some ([.leaf "\"" false start (start + 1)], start + 1, rest)
    | '\\' :: rest => do
      let (escape, rest) ← scanEscape rest
      let stop := start + 1 + byteLength escape
      let (more, last, rest) ← stringParts limit stop rest
      return (.leaf "escape_sequence" true start stop :: more, last, rest)
    | _ =>
      let (text, rest) := cs.span fun c => c != '"' && c != '\\' && c != '\n'
      if text.isEmpty then none
      else do
        let stop := start + byteLength text
        let (more, last, rest) ← stringParts limit stop rest
        return (.leaf "string_literal_content" true start stop :: more, last, rest)

/-- The mark for a string of bytes after a literal that stops at `start`. -/
def encodingMark (start : Nat) (cs : List Char) : List Concrete × Nat × List Char :=
  match cs with
  | u :: '8' :: rest =>
    if u == 'u' || u == 'U' then
      ([.leaf "string_literal_encoding" true start (start + 2)], start + 2, rest)
    else ([], start, cs)
  | _ => ([], start, cs)

/-- A string in quotes whose opening quote stands at `start`, and the characters after it. -/
def scanString (start : Nat) (cs : List Char) : Option (Concrete × Nat × List Char) := do
  let (parts, stop, rest) ← stringParts (cs.length + 1) (start + 1) cs
  let (mark, stop, rest) := encodingMark stop rest
  let leaves := Concrete.leaf "\"" false start (start + 1) :: parts ++ mark
  return (.node "string_literal" true (leaves.map fun l => (none, l)), stop, rest)

/-- What stands between the quotes of a character: its kind, its text and the rest. -/
def characterContent : List Char → Option (String × List Char × List Char)
  | '\\' :: rest =>
    (scanEscape rest).map fun (escape, rest) => ("escape_sequence", '\\' :: escape, rest)
  | c :: rest => if c == '\'' then none else some ("character_literal_content", [c], rest)
  | [] => none

/-- A character in quotes whose opening quote stands at `start`. -/
def scanCharacter (start : Nat) (cs : List Char) : Option (Concrete × Nat × List Char) := do
  let (kind, content, rest) ← characterContent cs
  let stop := start + 1 + byteLength content
  match rest with
  | '\'' :: rest =>
    let leaves := [Concrete.leaf "'" false start (start + 1),
      Concrete.leaf kind true (start + 1) stop, Concrete.leaf "'" false stop (stop + 1)]
    return (.node "character_literal" true (leaves.map fun l => (none, l)), stop + 1, rest)
  | _ => none

/-- The rest of a verbatim string, in which a doubled quote stands for one. -/
def verbatimRest : List Char → Option (List Char × List Char)
  | '"' :: '"' :: rest => (verbatimRest rest).map fun (t, r) => ('"' :: '"' :: t, r)
  | '"' :: rest => some (['"'], rest)
  | c :: rest => (verbatimRest rest).map fun (t, r) => (c :: t, r)
  | [] => none

/-- A verbatim string whose mark stands at `start`; mark and opening quote have been read. -/
def scanVerbatim (start : Nat) (cs : List Char) : Option (Concrete × Nat × List Char) := do
  let (text, rest) ← verbatimRest cs
  let (_, stop, rest) := encodingMark (start + 2 + byteLength text) rest
  return (.leaf "verbatim_string_literal" true start stop, stop, rest)

/-- The text up to `count` quotes in a row. -/
def rawContent (count : Nat) : List Char → Option (List Char × List Char)
  | [] => none
  | c :: rest =>
    if Text.startsWith (List.replicate count '"') (c :: rest) then
      some ([], (c :: rest).drop count)
    else (rawContent count rest).map fun (t, r) => (c :: t, r)

/-- A raw string of `count` quotes whose opening quotes stand at `start`. -/
def scanRaw (count start : Nat) (cs : List Char) : Option (Concrete × Nat × List Char) := do
  let (content, rest) ← rawContent count cs
  let a := start + count
  let b := a + byteLength content
  let (mark, stop, rest) := encodingMark (b + count) rest
  let leaves := [Concrete.leaf "raw_string_start" true start a,
    Concrete.leaf "raw_string_content" true a b,
    Concrete.leaf "raw_string_end" true b (b + count)] ++ mark
  return (.node "raw_string_literal" true (leaves.map fun l => (none, l)), stop, rest)

/-! ### Punctuation -/

/-- The marks of more than one character, longer ones before their beginnings. Marks that start
with a closing angle bracket are put together by the reader, since such a bracket also closes
generic arguments. -/
def longMarks : List (List Char) :=
  ["<<=", "??=", "=>", "==", "!=", "<=", "<<", "&&", "||", "++", "--", "+=", "-=", "*=", "/=",
    "%=", "&=", "|=", "^=", "->", "??", "::", ".."].map String.toList

/-- The marks of one character. -/
def shortMarks : List Char :=
  "\x7b\x7d()[].,;:?!~+-*/%&|^<>=".toList

/-- The punctuation mark that stands here. -/
def scanMark (cs : List Char) : Option (List Char × List Char) :=
  match longMarks.find? fun m => Text.startsWith m cs with
  | some m => some (m, cs.drop m.length)
  | none =>
    match cs with
    | c :: rest => if shortMarks.contains c then some ([c], rest) else none
    | [] => none

/-! ### Directives -/

/-- The blanks within a line. -/
def isLineSpace (c : Char) : Bool :=
  c == ' ' || c == '\t'

/-- A directive whose mark stands at `start`: its word, the text with the mark, and the rest. -/
def scanDirective : List Char → Option (String × List Char × List Char)
  | '#' :: rest =>
    let (space, rest) := rest.span isLineSpace
    let (word, rest) := rest.span fun c => c.isAlpha
    some (String.ofList word, '#' :: space ++ word, rest)
  | _ => none

/-- The words and marks of directives that are kinds of their own. -/
def directiveKeywords : List String :=
  ["warning", "disable", "restore", "checksum", "enable", "annotations", "warnings", "default",
    "hidden", ","]

/-- A word in a directive, or a single character that belongs to none. -/
def scanDirectiveWord : List Char → List Char × List Char
  | c :: rest =>
    if Text.isIdentifierPart c then (c :: rest).span Text.isIdentifierPart else ([c], rest)
  | [] => ([], [])

/-- The leaf of a word in a directive. -/
def directiveLeaf (word : List Char) (start stop : Nat) : Concrete :=
  let text := String.ofList word
  if directiveKeywords.contains text then .leaf text false start stop
  else if word.head?.any Char.isDigit then .leaf "integer_literal" true start stop
  else .leaf "identifier" true start stop

/-- The words of a directive from `start` on, with their texts; `limit` bounds their number. -/
def directiveWords : Nat → Nat → List Char → List (Concrete × String)
  | 0, _, _ => []
  | limit + 1, start, cs =>
    let (space, rest) := cs.span fun c => isLineSpace c || c == '\r'
    if rest.isEmpty then []
    else
      let start := start + byteLength space
      let (word, rest) := scanDirectiveWord rest
      let stop := start + byteLength word
      (directiveLeaf word start stop, String.ofList word) :: directiveWords limit stop rest

/-- Whether words are names or numbers divided by commas. -/
def isWordList : List String → Bool
  | [] => true
  | [word] => word != ","
  | word :: comma :: rest => word != "," && comma == "," && !rest.isEmpty && isWordList rest

/-- Whether the words of a directive are what it allows. -/
def allowsWords : String → List String → Bool
  | "pragma", "warning" :: action :: codes =>
    ["disable", "restore"].contains action && isWordList codes
  | "pragma", words => words.head? == some "checksum"
  | "nullable", state :: targets =>
    ["enable", "disable", "restore"].contains state &&
      [[], ["annotations"], ["warnings"]].contains targets
  | "line", words => !words.isEmpty
  | _, _ => false

/-- The text that a directive takes as its argument, if its line from `start` on holds any. -/
def directiveArgument (start : Nat) (line : List Char) : List Concrete :=
  let (space, argument) := line.span isLineSpace
  let start := start + byteLength space
  if argument.isEmpty || argument == ['\r'] then []
  else [.leaf "preproc_arg" true start (start + byteLength argument)]

/-- The parts of a directive that stands apart from the code, behind its word: a text, or the words
that it allows. -/
def directiveParts (word : String) (start : Nat) (line : List Char) : Option (List Concrete) :=
  let argument := directiveArgument start line
  let words := directiveWords (line.length + 1) start line
  if ["region", "endregion"].contains word then some argument
  else if ["error", "warning", "define", "undef"].contains word then
    if argument.isEmpty then none else some argument
  else if allowsWords word (words.map fun w => w.2) then some (words.map fun w => w.1)
  else none

/-- A directive that stands apart from the code, at `start`: its node, the offset after its line
and the rest. Its line has to end before the source does. -/
def standaloneDirective (start : Nat) (cs : List Char) :
    Option (Concrete × Nat × List Char) := do
  let (word, mark, rest) ← scanDirective cs
  let stop := start + byteLength mark
  let (line, after) := rest.span (· != '\n')
  let parts ← directiveParts word stop line
  if after.isEmpty then none
  else
    let leaves := Concrete.leaf ("#" ++ word) false start stop :: parts
    return (.node ("preproc_" ++ word) true (leaves.map fun l => (none, l)),
      stop + byteLength line, after)

/-! ### Interpolated strings -/

/-- The opening of an interpolated string: its mark, whether it is verbatim, the number of its
quotes and of the braces of its holes, and the rest after the quotes. -/
def interpolationOpening (cs : List Char) : Option (List Char × Bool × Nat × Nat × List Char) :=
  match cs with
  | '$' :: '@' :: '"' :: rest => some (['$', '@'], true, 1, 1, rest)
  | '@' :: '$' :: '"' :: rest => some (['@', '$'], true, 1, 1, rest)
  | '$' :: _ =>
    let (dollars, rest) := cs.span (· == '$')
    let quotes := (rest.takeWhile (· == '"')).length
    if 3 ≤ quotes then some (dollars, false, quotes, dollars.length, rest.drop quotes)
    else if quotes = 0 ∨ dollars.length ≠ 1 then none
    else some (dollars, false, 1, 1, rest.drop 1)
  | _ => none

/-- The number of characters in front that belong together to the text of an interpolated string:
two for a doubled quote in a verbatim string, and none before a hole, an escape or the closing
quotes. -/
def textUnit (verbatim : Bool) (quotes : Nat) : List Char → Nat
  | [] => 0
  | '{' :: _ => 0
  | '\\' :: _ => if verbatim || 3 ≤ quotes then 1 else 0
  | '"' :: '"' :: rest =>
    if verbatim then 2
    else if 3 ≤ quotes && !Text.startsWith (List.replicate quotes '"') ('"' :: '"' :: rest) then 1
    else 0
  | '"' :: _ => if 3 ≤ quotes then 1 else 0
  | _ => 1

/-- The text of an interpolated string up to its next hole, escape or closing quotes. A doubled
brace does not open a hole, but it starts a piece of text of its own. -/
def interpolationText (verbatim : Bool) (quotes : Nat) : Nat → List Char → List Char × List Char
  | 0, cs => ([], cs)
  | limit + 1, cs =>
    let unit := textUnit verbatim quotes cs
    if unit = 0 then ([], cs)
    else
      let (text, rest) := interpolationText verbatim quotes limit (cs.drop unit)
      (cs.take unit ++ text, rest)

/-! ### Steps -/

/-- What the lexer is inside of: the text of an interpolated string, closed by `quotes` quotes and
with holes opened by `braces` braces, or a hole with `depth` open brackets. -/
inductive Frame where
  | text (verbatim : Bool) (quotes braces : Nat)
  | hole (braces depth : Nat)

/-- The frames with another number of open brackets, if a hole is open. -/
def Frame.nest (change : Nat → Nat) : List Frame → List Frame
  | .hole braces depth :: outer => .hole braces (change depth) :: outer
  | frames => frames

/-- The frames after a punctuation mark. -/
def Frame.afterMark (mark : List Char) (frames : List Frame) : List Frame :=
  if [['('], ['['], ['{']].contains mark then nest (· + 1) frames
  else if [[')'], [']'], ['}']].contains mark then nest (· - 1) frames
  else frames

/-- What one step of the lexer gives: the tokens it found, the comments and standalone directives
that it set aside, and the frames, the offset and the characters with which the lexer goes on. -/
structure Step where
  tokens : List Token
  extras : List Concrete
  frames : List Frame
  offset : Nat
  rest : List Char

namespace Step

variable (frames : List Frame) (offset : Nat)

/-- A step over blanks. -/
def skip (text rest : List Char) : Step :=
  ⟨[], [], frames, offset + byteLength text, rest⟩

/-- A step over a comment or a directive, which is set aside. -/
def aside (extra : Concrete) (stop : Nat) (rest : List Char) : Step :=
  ⟨[], [extra], frames, stop, rest⟩

/-- A step over the text of one token. -/
def token (cls : TokenClass) (text rest : List Char) : Step :=
  let stop := offset + byteLength text
  ⟨[⟨cls, String.ofList text, offset, stop⟩], [], frames, stop, rest⟩

/-- A step over a literal that stands in front of `cs`, or over one character if there is none. -/
def literal (cs : List Char) : Option (Concrete × Nat × List Char) → Step
  | some (parts, stop, rest) =>
    let text := cs.take (cs.length - rest.length)
    ⟨[⟨.literal parts, String.ofList text, offset, stop⟩], [], frames, stop, rest⟩
  | none => token frames offset .unknown (cs.take 1) (cs.drop 1)

end Step

/-- A step at the braces in the text of an interpolated string: into a hole, or over braces that
belong to the text. -/
def braceStep (verbatim : Bool) (quotes braces : Nat) (outer : List Frame) (offset : Nat)
    (cs : List Char) : Step :=
  let frames := .text verbatim quotes braces :: outer
  let run := cs.takeWhile (· == '{')
  if run.length < 2 * braces && braces ≤ run.length then
    let extra := run.length - braces
    if extra = 0 then
      .token (.hole braces 0 :: frames) offset .interpolationOpen (List.replicate braces '{')
        (cs.drop braces)
    else
      .token frames offset .interpolationText (List.replicate extra '{') (cs.drop extra)
  else
    let (more, rest) :=
      interpolationText verbatim quotes (cs.length + 1) (cs.drop run.length)
    .token frames offset .interpolationText (run ++ more) rest

/-- A step inside the text of an interpolated string. -/
def textStep (verbatim : Bool) (quotes braces : Nat) (outer : List Frame) (offset : Nat)
    (cs : List Char) : Option Step :=
  let frames := .text verbatim quotes braces :: outer
  let (text, rest) := interpolationText verbatim quotes (cs.length + 1) cs
  if !text.isEmpty then some (.token frames offset .interpolationText text rest)
  else
    match cs with
    | [] => none
    | '"' :: _ =>
      some (.token outer offset .interpolationQuote (List.replicate quotes '"') (cs.drop quotes))
    | '\\' :: rest =>
      match scanEscape rest with
      | some (escape, rest) =>
        some (.token frames offset .interpolationEscape ('\\' :: escape) rest)
      | none => some (.token frames offset .unknown ['\\'] rest)
    | _ => some (braceStep verbatim quotes braces outer offset cs)

/-- A step at the end of a hole, or over the colon and the format in front of the end. -/
def closingStep (frames : List Frame) (offset : Nat) (cs : List Char) : Option Step :=
  match frames with
  | .hole braces 0 :: outer =>
    let close := List.replicate braces '}'
    if Text.startsWith close cs then
      some (.token outer offset .interpolationClose close (cs.drop braces))
    else
      match cs with
      | ':' :: rest =>
        let (format, after) := rest.span fun c => c != '}' && c != '"'
        let colon : Token := ⟨.punctuation, ":", offset, offset + 1⟩
        some ⟨[colon], [], frames, offset + 1 + byteLength format, after⟩
      | _ => none
  | _ => none

/-- A step over a directive: one that stands apart from the code is set aside, and others are
tokens. -/
def directiveStep (frames : List Frame) (offset : Nat) (cs : List Char) : Step :=
  match standaloneDirective offset cs with
  | some (node, stop, after) => .aside frames node stop after
  | none =>
    match scanDirective cs with
    | some (word, text, after) =>
      let stop := offset + byteLength text
      ⟨[⟨.directive, "#" ++ word, offset, stop⟩], [], frames, stop, after⟩
    | none => .token frames offset .unknown (cs.take 1) (cs.drop 1)

/-- A step over blanks, a number, a word or a punctuation mark that starts with `c`. -/
def plainStep (frames : List Frame) (offset : Nat) (c : Char) (rest : List Char) : Step :=
  let cs := c :: rest
  if isSpace c then
    let (space, rest) := cs.span isSpace
    .skip frames offset space rest
  else if c.isDigit then
    let (kind, text, rest) := scanNumber cs
    let stop := offset + byteLength text
    .literal frames offset cs (some (.leaf kind true offset stop, stop, rest))
  else
    match fraction? cs with
    | some (f, rest) =>
      let (text, rest) := realTail f rest
      let stop := offset + byteLength text
      .literal frames offset cs (some (.leaf "real_literal" true offset stop, stop, rest))
    | none =>
      match scanWord cs with
      | some (word, rest) => .token frames offset .word word rest
      | none =>
        match scanVerbatimWord cs with
        | some (word, rest) => .token frames offset .verbatimWord word rest
        | none =>
          match scanMark cs with
          | some (mark, rest) =>
            .token (Frame.afterMark mark frames) offset .punctuation mark rest
          | none => .token frames offset .unknown [c] rest

/-- A step outside of the texts of interpolated strings. -/
def codeStep (frames : List Frame) (offset : Nat) (cs : List Char) : Option Step :=
  match cs with
  | [] => none
  | '/' :: '/' :: rest =>
    let (text, rest) := lineComment rest
    let stop := offset + 2 + byteLength text
    some (.aside frames (.leaf "comment" true offset stop) stop rest)
  | '/' :: '*' :: rest =>
    match blockComment rest with
    | some (text, rest) =>
      let stop := offset + 2 + byteLength text
      some (.aside frames (.leaf "comment" true offset stop) stop rest)
    | none => some (.token frames offset .unknown ['/'] ('*' :: rest))
  | '#' :: _ => some (directiveStep frames offset cs)
  | '\'' :: rest => some (.literal frames offset cs (scanCharacter offset rest))
  | '"' :: rest =>
    let quotes := (cs.takeWhile (· == '"')).length
    some (.literal frames offset cs
      (if 3 ≤ quotes then scanRaw quotes offset (cs.drop quotes) else scanString offset rest))
  | '@' :: '"' :: rest => some (.literal frames offset cs (scanVerbatim offset rest))
  | c :: rest =>
    match interpolationOpening cs with
    | some (mark, verbatim, quotes, braces, after) =>
      let quoteAt := offset + byteLength mark
      let quote := List.replicate quotes '"'
      some ⟨[⟨.interpolationStart, String.ofList mark, offset, quoteAt⟩,
        ⟨.interpolationQuote, String.ofList quote, quoteAt, quoteAt + quotes⟩], [],
        .text verbatim quotes braces :: frames, quoteAt + quotes, after⟩
    | none => some (plainStep frames offset c rest)

/-- One step of the lexer, unless the source is at its end. -/
def step (frames : List Frame) (offset : Nat) (cs : List Char) : Option Step :=
  match frames with
  | .text verbatim quotes braces :: outer => textStep verbatim quotes braces outer offset cs
  | _ => (closingStep frames offset cs).or (codeStep frames offset cs)

/-! ### The lexer -/

/-- The tokens of a source and, set aside, its comments and standalone directives, all in the
order in which they stand. -/
structure Lexed where
  tokens : List Token
  extras : List Concrete

/-- The tokens of a source from `offset` on; `limit` bounds the number of steps. -/
def lexFrom : Nat → List Frame → Nat → List Char → Lexed
  | 0, _, _, _ => ⟨[], []⟩
  | limit + 1, frames, offset, cs =>
    match step frames offset cs with
    | none => ⟨[], []⟩
    | some found =>
      let later := lexFrom limit found.frames found.offset found.rest
      ⟨found.tokens ++ later.tokens, found.extras ++ later.extras⟩

end Lexer

open Lexer in
/-- The tokens of a source. -/
def lex (source : String) : Lexed :=
  let cs := source.toList
  lexFrom (cs.length + 1) [] 0 cs

end ViewLint
