/-!
# JSON strings

The written form of strings, and their reading. Everything works on lists of characters and
returns the characters that are left.

## Main definitions

* `isBlank`, `skipBlanks`: the blanks between tokens.
* `escape`, `quote`: the written form of a string.
* `scanString`: reads a string after its opening quote.
* `skipString`: passes over a string without asking whether its escapes name characters.
-/

namespace ViewLint.Json

/-- The blanks between tokens. -/
def isBlank (c : Char) : Bool :=
  c == ' ' || c == '\n' || c == '\t' || c == '\r'

/-- The characters from the first that is no blank on. -/
def skipBlanks (cs : List Char) : List Char :=
  cs.dropWhile isBlank

/-! ### Writing -/

/-- A character as it stands in a written string. -/
def escape (c : Char) : List Char :=
  if c == '"' then ['\\', '"']
  else if c == '\\' then ['\\', '\\']
  else if c == '\n' then ['\\', 'n']
  else if c == '\r' then ['\\', 'r']
  else if c == '\t' then ['\\', 't']
  else if c.toNat == 8 then ['\\', 'b']
  else if c.toNat == 12 then ['\\', 'f']
  else if c.toNat < 32 then
    ['\\', 'u', '0', '0', Nat.digitChar (c.toNat / 16), Nat.digitChar (c.toNat % 16)]
  else [c]

/-- The written form of a string. -/
def quote (s : String) : List Char :=
  '"' :: s.toList.flatMap escape ++ ['"']

/-! ### Reading -/

/-- The value of a hexadecimal digit. -/
def hexDigit? (c : Char) : Option Nat :=
  if '0' ≤ c && c ≤ '9' then some (c.toNat - '0'.toNat)
  else if 'a' ≤ c && c ≤ 'f' then some (c.toNat - 'a'.toNat + 10)
  else if 'A' ≤ c && c ≤ 'F' then some (c.toNat - 'A'.toNat + 10)
  else none

/-- The value of four hexadecimal digits. -/
def hex4? (a b c d : Char) : Option Nat := do
  return ((← hexDigit? a) * 16 + (← hexDigit? b)) * 256 + (← hexDigit? c) * 16 + (← hexDigit? d)

/-- The character that a backslash with one letter stands for. -/
def simpleEscape? (c : Char) : Option Char :=
  if c == '"' || c == '\\' || c == '/' then some c
  else if c == 'b' then some (Char.ofNat 8)
  else if c == 'f' then some (Char.ofNat 12)
  else if c == 'n' then some '\n'
  else if c == 'r' then some '\r'
  else if c == 't' then some '\t'
  else none

/-- Whether a code unit is the first half of a character. -/
def isHighSurrogate (n : Nat) : Bool :=
  decide (0xD800 ≤ n) && decide (n < 0xDC00)

/-- Whether a code unit is the second half of a character. -/
def isLowSurrogate (n : Nat) : Bool :=
  decide (0xDC00 ≤ n) && decide (n < 0xE000)

/-- Reads an escape after its backslash: the character, and what is left. Half a character must be
followed by the escape of its other half. -/
def scanEscape : List Char → Option (Char × List Char)
  | 'u' :: a :: b :: c :: d :: rest =>
    match hex4? a b c d with
    | none => none
    | some n =>
      if isLowSurrogate n then none
      else if isHighSurrogate n then
        match rest with
        | '\\' :: 'u' :: a :: b :: c :: d :: rest =>
          match hex4? a b c d with
          | none => none
          | some m =>
            if isLowSurrogate m then
              some (Char.ofNat (0x10000 + (n - 0xD800) * 0x400 + (m - 0xDC00)), rest)
            else none
        | _ => none
      else some (Char.ofNat n, rest)
  | c :: rest => (simpleEscape? c).map fun e => (e, rest)
  | [] => none

/-- What is left after an escape is shorter. -/
theorem length_lt_of_scanEscape {cs rest : List Char} {c : Char}
    (h : scanEscape cs = some (c, rest)) : rest.length < cs.length := by
  unfold scanEscape at h
  split at h
  · repeat' (split at h <;> try contradiction)
    all_goals
      simp only [Option.some.injEq, Prod.mk.injEq] at h
      obtain ⟨-, rfl⟩ := h
      simp only [List.length_cons]
      omega
  · simp only [Option.map_eq_some_iff, Prod.mk.injEq] at h
    obtain ⟨_, _, _, rfl⟩ := h
    simp
  · contradiction

/-- Reads a string after its opening quote: its characters, and what is left after its closing
quote. -/
def scanString (cs : List Char) : Option (List Char × List Char) :=
  match cs with
  | [] => none
  | '"' :: rest => some ([], rest)
  | '\\' :: rest =>
    match h : scanEscape rest with
    | none => none
    | some (c, left) =>
      have := length_lt_of_scanEscape h
      (scanString left).map fun (text, left) => (c :: text, left)
  | c :: rest =>
    if c.toNat < 32 then none
    else (scanString rest).map fun (text, left) => (c :: text, left)
termination_by cs.length
decreasing_by all_goals simp_all <;> omega

/-- Passes over a string after its opening quote. -/
def skipString : List Char → Option (List Char)
  | [] => none
  | '"' :: rest => some rest
  | '\\' :: 'u' :: a :: b :: c :: d :: rest =>
    if (hex4? a b c d).isSome then skipString rest else none
  | '\\' :: c :: rest => if (simpleEscape? c).isSome then skipString rest else none
  | ['\\'] => none
  | c :: rest => if c.toNat < 32 then none else skipString rest

end ViewLint.Json
