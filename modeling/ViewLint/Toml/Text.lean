/-!
# The lexical forms of TOML

Strings, bare words, comments and line breaks of a TOML document. Each reader takes the characters
from its place on and gives what it read with the characters after it.

## Main definitions

* `basicString`, `literalString` and their multi-line companions: the four kinds of string.
* `bareWord`: keys without quotes, numbers and times.
* `skipBlanks`, `skipLines`: the space between the parts of a document.
-/

namespace ViewLint.Toml

/-- A space or a tab. -/
def isSpace (c : Char) : Bool :=
  c == ' ' || c == '\t'

/-- A control character that may stand nowhere in a document, besides line breaks. -/
def isControl (c : Char) : Bool :=
  (c.toNat < 0x20 && c != '\t') || c.toNat == 0x7F

/-- The rest after spaces and tabs. -/
def skipBlanks (cs : List Char) : List Char :=
  cs.dropWhile isSpace

/-- The rest after a line break. -/
def lineBreak? : List Char → Option (List Char)
  | '\n' :: cs => some cs
  | '\r' :: '\n' :: cs => some cs
  | _ => none

/-- The rest after a comment, if one stands here; its line break is left. -/
def skipComment : List Char → List Char
  | '#' :: cs => cs.dropWhile fun c => !isControl c
  | cs => cs

/-- The end of a line: spaces, a comment, and a line break or the end of the document. -/
def endOfLine? (cs : List Char) : Option (List Char) :=
  match skipComment (skipBlanks cs) with
  | [] => some []
  | rest => lineBreak? rest

/-- The rest after spaces, comments and line breaks, of which `limit` bounds the number. -/
def skipLines : Nat → List Char → List Char
  | 0, cs => cs
  | limit + 1, cs =>
    let rest := skipComment (skipBlanks cs)
    match lineBreak? rest with
    | some next => skipLines limit next
    | none => rest

/-! ### Escapes -/

/-- The value of a hexadecimal digit. -/
def hexDigit? (c : Char) : Option Nat :=
  if '0' ≤ c ∧ c ≤ '9' then some (c.toNat - 48)
  else if 'a' ≤ c ∧ c ≤ 'f' then some (c.toNat - 87)
  else if 'A' ≤ c ∧ c ≤ 'F' then some (c.toNat - 55)
  else none

/-- The character with a code given by `count` hexadecimal digits. -/
def hexChar? (count : Nat) (cs : List Char) : Option (Char × List Char) := do
  let digits ← if count ≤ cs.length then (cs.take count).mapM hexDigit? else none
  let code := digits.foldl (fun n d => 16 * n + d) 0
  if Nat.isValidChar code then return (Char.ofNat code, cs.drop count) else none

/-- The character of an escape whose backslash has been read. -/
def escape? : List Char → Option (Char × List Char)
  | 'b' :: cs => some (Char.ofNat 8, cs)
  | 't' :: cs => some ('\t', cs)
  | 'n' :: cs => some ('\n', cs)
  | 'f' :: cs => some (Char.ofNat 12, cs)
  | 'r' :: cs => some ('\r', cs)
  | 'e' :: cs => some (Char.ofNat 27, cs)
  | '"' :: cs => some ('"', cs)
  | '\\' :: cs => some ('\\', cs)
  | 'x' :: cs => hexChar? 2 cs
  | 'u' :: cs => hexChar? 4 cs
  | 'U' :: cs => hexChar? 8 cs
  | _ => none

/-! ### Strings -/

/-- The rest of a string in double quotes; `limit` bounds its length. -/
def basicString : Nat → List Char → Option (List Char × List Char)
  | 0, _ => none
  | limit + 1, cs =>
    match cs with
    | [] => none
    | '"' :: rest => some ([], rest)
    | '\\' :: rest => do
      let (c, rest) ← escape? rest
      let (text, rest) ← basicString limit rest
      return (c :: text, rest)
    | c :: rest => do
      if isControl c then none
      let (text, rest) ← basicString limit rest
      return (c :: text, rest)

/-- The rest of a string in single quotes. -/
def literalString : List Char → Option (List Char × List Char)
  | [] => none
  | c :: rest =>
    if c = '\'' then some ([], rest)
    else if isControl c then none
    else (literalString rest).map fun (text, rest) => (c :: text, rest)

/-- Quotes at the end of a multi-line string: of up to five in a row, the last three close it. -/
def closing? (quote : Char) (cs : List Char) : Option (List Char × List Char) :=
  let run := (cs.takeWhile (· == quote)).length
  if run < 3 then none
  else
    let kept := min (run - 3) 2
    some (List.replicate kept quote, cs.drop (kept + 3))

/-- The rest after the blanks and line breaks that a backslash at the end of a line removes. -/
def joinLines (cs : List Char) : Option (List Char) :=
  match lineBreak? (skipBlanks cs) with
  | some rest => some (rest.dropWhile fun c => isSpace c || c == '\n' || c == '\r')
  | none => none

/-- The rest of a multi-line string in double quotes; `limit` bounds its length. -/
def multiLineBasic : Nat → List Char → Option (List Char × List Char)
  | 0, _ => none
  | limit + 1, cs =>
    match closing? '"' cs with
    | some found => some found
    | none =>
      match cs with
      | [] => none
      | '\\' :: rest =>
        match joinLines rest with
        | some rest => multiLineBasic limit rest
        | none => do
          let (c, rest) ← escape? rest
          let (text, rest) ← multiLineBasic limit rest
          return (c :: text, rest)
      | c :: rest => do
        if isControl c && (lineBreak? cs).isNone then none
        let (text, rest) ← multiLineBasic limit rest
        return (c :: text, rest)

/-- The rest of a multi-line string in single quotes; `limit` bounds its length. -/
def multiLineLiteral : Nat → List Char → Option (List Char × List Char)
  | 0, _ => none
  | limit + 1, cs =>
    match closing? '\'' cs with
    | some found => some found
    | none =>
      match cs with
      | [] => none
      | c :: rest => do
        if isControl c && (lineBreak? cs).isNone then none
        let (text, rest) ← multiLineLiteral limit rest
        return (c :: text, rest)

/-- A string that can be a key: one on a single line. -/
def singleLineString? : List Char → Option (String × List Char)
  | '"' :: cs => (basicString (cs.length + 1) cs).map fun (t, rest) => (String.ofList t, rest)
  | '\'' :: cs => (literalString cs).map fun (t, rest) => (String.ofList t, rest)
  | _ => none

/-- A string of any kind. A line break right after the opening quotes of a multi-line string does
not belong to it. -/
def string? (cs : List Char) : Option (String × List Char) :=
  let open3 (rest : List Char) : List Char := (lineBreak? rest).getD rest
  match cs with
  | '"' :: '"' :: '"' :: rest =>
    (multiLineBasic (rest.length + 1) (open3 rest)).map fun (t, r) => (String.ofList t, r)
  | '\'' :: '\'' :: '\'' :: rest =>
    (multiLineLiteral (rest.length + 1) (open3 rest)).map fun (t, r) => (String.ofList t, r)
  | _ => singleLineString? cs

/-! ### Bare words -/

/-- The characters of keys without quotes. -/
def isBare (c : Char) : Bool :=
  c.isAlphanum || c == '_' || c == '-'

/-- A part of a key. -/
def simpleKey? (cs : List Char) : Option (String × List Char) :=
  match singleLineString? cs with
  | some found => some found
  | none =>
    match cs.takeWhile isBare with
    | [] => none
    | word => some (String.ofList word, cs.dropWhile isBare)

/-- The further parts of a dotted key; `limit` bounds their number. -/
def keyTail : Nat → List Char → Option (List String × List Char)
  | 0, _ => none
  | limit + 1, cs =>
    match skipBlanks cs with
    | '.' :: rest => do
      let (part, rest) ← simpleKey? (skipBlanks rest)
      let (parts, rest) ← keyTail limit rest
      return (part :: parts, rest)
    | rest => some ([], rest)

/-- A dotted key, with the blanks after it. -/
def key? (cs : List Char) : Option (List String × List Char) := do
  let (part, rest) ← simpleKey? cs
  let (parts, rest) ← keyTail (rest.length + 1) rest
  return (part :: parts, rest)

/-- Digits in groups that single underscores join; `isDigit` says which digits count. -/
def isDigits (isDigit : Char → Bool) : List Char → Bool
  | [] => false
  | [c] => isDigit c
  | c :: '_' :: rest => isDigit c && isDigits isDigit rest
  | c :: rest => isDigit c && isDigits isDigit rest

/-- The rest after a sign, if there is one. -/
def afterSign : List Char → List Char
  | '+' :: cs => cs
  | '-' :: cs => cs
  | cs => cs

/-- Whether a word is a decimal number without a leading zero. -/
def isDecimal (word : List Char) : Bool :=
  match word with
  | ['0'] => true
  | '0' :: _ => false
  | _ => isDigits Char.isDigit word

/-- Whether a word is an integer. -/
def isInteger (word : List Char) : Bool :=
  match word with
  | '0' :: 'x' :: rest => isDigits (fun c => (hexDigit? c).isSome) rest
  | '0' :: 'o' :: rest => isDigits (fun c => '0' ≤ c ∧ c ≤ '7') rest
  | '0' :: 'b' :: rest => isDigits (fun c => c == '0' || c == '1') rest
  | _ => isDecimal (afterSign word)

/-- Whether a word is a floating point number. -/
def isFloat (word : List Char) : Bool :=
  let body := afterSign word
  let mantissa := body.takeWhile fun c => c != 'e' && c != 'E'
  let exponent := body.drop mantissa.length
  let whole := mantissa.takeWhile (· != '.')
  let fraction := mantissa.drop whole.length
  body == "inf".toList || body == "nan".toList ||
    (isDecimal whole && (fraction.isEmpty || isDigits Char.isDigit (fraction.drop 1)) &&
      (exponent.isEmpty || isDigits Char.isDigit (afterSign (exponent.drop 1))) &&
      !(fraction.isEmpty && exponent.isEmpty))

/-! ### Times -/

/-- A number of exactly `count` digits between `lo` and `hi`. -/
def number? (count lo hi : Nat) (cs : List Char) : Option (Nat × List Char) :=
  let digits := cs.take count
  let n := digits.foldl (fun n c => 10 * n + (c.toNat - 48)) 0
  if digits.length = count ∧ digits.all Char.isDigit ∧ lo ≤ n ∧ n ≤ hi then
    some (n, cs.drop count)
  else none

/-- The rest after one expected character. -/
def expect? (c : Char) : List Char → Option (List Char)
  | d :: cs => if c = d then some cs else none
  | [] => none

/-- The number of days of a month. -/
def daysIn (year month : Nat) : Nat :=
  if month = 2 then
    if year % 4 = 0 ∧ (year % 100 ≠ 0 ∨ year % 400 = 0) then 29 else 28
  else if month = 4 ∨ month = 6 ∨ month = 9 ∨ month = 11 then 30 else 31

/-- The rest after a date. -/
def date? (cs : List Char) : Option (List Char) := do
  let (year, cs) ← number? 4 0 9999 cs
  let (month, cs) ← number? 2 1 12 (← expect? '-' cs)
  let (_, cs) ← number? 2 1 (daysIn year month) (← expect? '-' cs)
  return cs

/-- The rest after the fraction of a second, if there is one. -/
def fraction? : List Char → Option (List Char)
  | '.' :: c :: cs => if c.isDigit then some (cs.dropWhile Char.isDigit) else none
  | '.' :: [] => none
  | cs => some cs

/-- The rest after a time of day; seconds may be left out. -/
def time? (cs : List Char) : Option (List Char) := do
  let (_, cs) ← number? 2 0 23 cs
  let (_, cs) ← number? 2 0 59 (← expect? ':' cs)
  match cs with
  | ':' :: seconds => do
    let (_, rest) ← number? 2 0 60 seconds
    fraction? rest
  | rest => some rest

/-- Whether a text is an offset from universal time. -/
def isOffset (cs : List Char) : Bool :=
  match cs with
  | [] => true
  | ['Z'] => true
  | ['z'] => true
  | sign :: rest =>
    (sign == '+' || sign == '-') &&
      (do let (_, r) ← number? 2 0 23 rest
          let (_, r) ← number? 2 0 59 (← expect? ':' r)
          return r) == some []

/-- Whether a text is a date, a time of day, or both with an optional offset. -/
def isDateTime (cs : List Char) : Bool :=
  match date? cs with
  | some [] => true
  | some (c :: rest) =>
    (c == 'T' || c == 't' || c == ' ') && ((time? rest).map isOffset).getD false
  | none => time? cs == some []

/-- The characters of numbers and times. -/
def isWordChar (c : Char) : Bool :=
  isBare c || c == '+' || c == '.' || c == ':'

/-- A bare word and the rest. A space can join a date and a time of day. -/
def bareWord (cs : List Char) : List Char × List Char :=
  let word := cs.takeWhile isWordChar
  let rest := cs.dropWhile isWordChar
  match date? word, rest with
  | some [], ' ' :: more =>
    if (more.head?.map Char.isDigit).getD false then
      (word ++ ' ' :: more.takeWhile isWordChar, more.dropWhile isWordChar)
    else (word, rest)
  | _, _ => (word, rest)

end ViewLint.Toml
