import ViewLint.Json.Value
import ViewLint.Text.Quoted

/-!
# Decoding JSON

Records are decoded while their text is read, so that the first problem met is the one that is
reported, be it a fault of the text or a value that does not fit.

## Main definitions

* `Mismatch`: why a value does not fit, with its `message`.
* `DecodeError`: a fault of the text, or a mismatch.
* `Decoder`: reads a value of some type from the front of a text.
* `record`: decodes a record from an object or an array.
* `decode`: decodes a whole text.
-/

namespace ViewLint.Json

/-! ### Mismatches -/

/-- What is found where some other value is expected. -/
inductive Found where
  | null
  | boolean (b : Bool)
  | number (n : Number)
  | string (s : String)
  | sequence
  | map
deriving DecidableEq, Repr

/-- What a value counts as. -/
def Value.found : Value → Found
  | .null => .null
  | .boolean b => .boolean b
  | .number n => .number n
  | .string s => .string s
  | .array _ => .sequence
  | .object _ => .map

/-- The words for what is found. -/
def Found.describe : Found → String
  | .null => "null"
  | .boolean b => "boolean `" ++ (if b then "true" else "false") ++ "`"
  | .number (.real minus x) => "floating point `" ++ (Number.real minus x).render ++ "`"
  | .number n => "integer `" ++ n.render ++ "`"
  | .string s => "string " ++ Text.quoted s
  | .sequence => "sequence"
  | .map => "map"

/-- Why a well-formed value does not fit. -/
inductive Mismatch where
  | missingField (name : String)
  | duplicateField (name : String)
  | invalidType (found : Found) (expected : String)
  | invalidValue (found : Found) (expected : String)
  | unknownVariant (name expected : String)
  | invalidLength (length : Nat) (expected : String)
deriving DecidableEq, Repr

/-- The message of a mismatch. -/
def Mismatch.message : Mismatch → String
  | .missingField name => "missing field `" ++ name ++ "`"
  | .duplicateField name => "duplicate field `" ++ name ++ "`"
  | .invalidType found expected => "invalid type: " ++ found.describe ++ ", expected " ++ expected
  | .invalidValue found expected => "invalid value: " ++ found.describe ++ ", expected " ++ expected
  | .unknownVariant name expected => "unknown variant `" ++ name ++ "`, expected " ++ expected
  | .invalidLength length expected =>
    "invalid length " ++ toString length ++ ", expected " ++ expected

/-- Why a text is not decoded. -/
inductive DecodeError where
  /-- The text is not well formed. -/
  | malformed
  /-- A value does not fit. -/
  | mismatch (cause : Mismatch)
deriving DecidableEq, Repr

/-! ### Scalars -/

/-- The natural number that is found. -/
def Found.index : Found → Except Mismatch Nat
  | .number (.natural n) => .ok n
  | .number (.negative n) => .error (.invalidValue (.number (.negative n)) "usize")
  | found => .error (.invalidType found "usize")

/-- The string that is found; `expected` says for what. -/
def Found.text (expected : String) : Found → Except Mismatch String
  | .string s => .ok s
  | found => .error (.invalidType found expected)

/-- Nothing but null. -/
def Found.unit : Found → Except Mismatch Unit
  | .null => .ok ()
  | found => .error (.invalidType found "unit")

/-- Reads a value of some type from the front of a text. -/
abbrev Decoder (α : Type) := List Char → Except DecodeError (α × List Char)

/-- What stands at the front. A scalar is read; of an array or an object only the start is seen. -/
def scanFound (cs : List Char) : Except DecodeError (Found × List Char) :=
  match skipBlanks cs with
  | '[' :: rest => .ok (.sequence, rest)
  | '\x7b' :: rest => .ok (.map, rest)
  | cs =>
    match Value.scanScalar cs with
    | some (v, rest) => .ok (v.found, rest)
    | none => .error .malformed

/-- Decodes a scalar. -/
def scalar {α : Type} (read : Found → Except Mismatch α) : Decoder α := fun cs =>
  match scanFound cs with
  | .error e => .error e
  | .ok (found, rest) =>
    match read found with
    | .ok a => .ok (a, rest)
    | .error m => .error (.mismatch m)

/-- Decodes a natural number. -/
def index : Decoder Nat :=
  scalar Found.index

/-- Decodes a string. -/
def text : Decoder String :=
  scalar (Found.text "a string")

/-- Decodes the text of a path. -/
def path : Decoder String :=
  scalar (Found.text "path string")

/-! ### Passing over values -/

mutual

/-- Passes over a value of any form; `steps` bounds the number of values in it. -/
def skipValue : Nat → List Char → Option (List Char)
  | 0, _ => none
  | steps + 1, cs =>
    match skipBlanks cs with
    | '"' :: rest => skipString rest
    | '[' :: rest =>
      match skipBlanks rest with
      | ']' :: rest => some rest
      | _ => skipItems steps rest
    | '\x7b' :: rest =>
      match skipBlanks rest with
      | '\x7d' :: rest => some rest
      | _ => skipMembers steps rest
    | 'n' :: rest => Value.afterWord? ['u', 'l', 'l'] rest
    | 't' :: rest => Value.afterWord? ['r', 'u', 'e'] rest
    | 'f' :: rest => Value.afterWord? ['a', 'l', 's', 'e'] rest
    | cs => (NumberText.scan cs).map (·.2)

/-- Passes over the items of an array and its end. -/
def skipItems : Nat → List Char → Option (List Char)
  | 0, _ => none
  | steps + 1, cs => do
    let rest ← skipValue steps cs
    match skipBlanks rest with
    | ',' :: rest => skipItems steps rest
    | ']' :: rest => some rest
    | _ => none

/-- Passes over the members of an object and its end. -/
def skipMembers : Nat → List Char → Option (List Char)
  | 0, _ => none
  | steps + 1, cs => do
    match skipBlanks cs with
    | '"' :: rest =>
      match skipBlanks (← skipString rest) with
      | ':' :: rest =>
        match skipBlanks (← skipValue steps rest) with
        | ',' :: rest => skipMembers steps rest
        | '\x7d' :: rest => some rest
        | _ => none
      | _ => none
    | _ => none

end

/-- Passes over a value. -/
def ignored : Decoder Unit := fun cs =>
  match skipValue (2 * cs.length + 2) cs with
  | some rest => .ok ((), rest)
  | none => .error .malformed

/-! ### Sequences -/

/-- The next item of an array that is open: where it starts, or nothing at the end of the array.
Between items stands a comma. -/
def nextItem (first : Bool) (cs : List Char) : Except DecodeError (Option (List Char)) :=
  match skipBlanks cs with
  | ']' :: _ => .ok none
  | ',' :: rest =>
    if first then .ok (some (',' :: rest))
    else
      match skipBlanks rest with
      | [] => .error .malformed
      | ']' :: _ => .error .malformed
      | cs => .ok (some cs)
  | [] => .error .malformed
  | cs => if first then .ok (some cs) else .error .malformed

/-- The end of an array. -/
def endOfArray (cs : List Char) : Except DecodeError (List Char) :=
  match skipBlanks cs with
  | ']' :: rest => .ok rest
  | _ => .error .malformed

/-- The items of an array that is open, up to its end; `limit` bounds their number. -/
def items {α : Type} (item : Decoder α) : Nat → Bool → Decoder (List α)
  | 0, _, _ => .error .malformed
  | limit + 1, first, cs => do
    match ← nextItem first cs with
    | none => return ([], ← endOfArray cs)
    | some cs =>
      let (a, rest) ← item cs
      let (as, rest) ← items item limit false rest
      return (a :: as, rest)

/-- Decodes an array. -/
def sequence {α : Type} (item : Decoder α) : Decoder (List α) := fun cs => do
  match ← scanFound cs with
  | (.sequence, rest) => items item (cs.length + 1) true rest
  | (found, _) => .error (.mismatch (.invalidType found "a sequence"))

/-! ### Records -/

/-- A field of a record: its name, its decoder, and its value when it is absent. -/
structure Field (α : Type) where
  name : String
  decoder : Decoder α
  absent? : Option α

/-- The start of the next name of an object that is open, or nothing at the end of the object. -/
def nextName (first : Bool) (cs : List Char) : Except DecodeError (Option (List Char)) :=
  match skipBlanks cs with
  | '\x7d' :: _ => .ok none
  | '"' :: rest => if first then .ok (some rest) else .error .malformed
  | ',' :: rest =>
    if first then .error .malformed
    else
      match skipBlanks rest with
      | '"' :: rest => .ok (some rest)
      | _ => .error .malformed
  | _ => .error .malformed

/-- The colon after a name. -/
def afterColon (cs : List Char) : Except DecodeError (List Char) :=
  match skipBlanks cs with
  | ':' :: rest => .ok rest
  | _ => .error .malformed

/-- The end of an object. -/
def endOfObject (cs : List Char) : Except DecodeError (List Char) :=
  match skipBlanks cs with
  | '\x7d' :: rest => .ok rest
  | _ => .error .malformed

/-- The members of an object that is open, up to its end. A name that is no field is passed over
with its value; a field must not come twice. -/
def members {α : Type} (fields : List (Field α)) :
    Nat → Bool → List (String × α) → Decoder (List (String × α))
  | 0, _, _, _ => .error .malformed
  | limit + 1, first, seen, cs => do
    match ← nextName first cs with
    | none => return (seen, ← endOfObject cs)
    | some rest =>
      match scanString rest with
      | none => .error .malformed
      | some (chars, rest) =>
        let name := String.ofList chars
        match fields.find? (·.name == name) with
        | none =>
          let (_, rest) ← ignored (← afterColon rest)
          members fields limit false seen rest
        | some field =>
          if (seen.lookup name).isSome then .error (.mismatch (.duplicateField name))
          else
            let (a, rest) ← field.decoder (← afterColon rest)
            members fields limit false ((name, a) :: seen) rest

/-- The values of the fields in order; the first field that must be there and is not is
reported. -/
def complete {α : Type} (fields : List (Field α)) (seen : List (String × α)) :
    Except DecodeError (List α) :=
  fields.mapM fun field =>
    match (seen.lookup field.name).or field.absent? with
    | some a => .ok a
    | none => .error (.mismatch (.missingField field.name))

/-- The values of the fields from an array that is open, without its end. -/
def positional {α : Type} (what : String) (total : Nat) :
    List (Field α) → Nat → Decoder (List α)
  | [], _, cs => .ok ([], cs)
  | field :: fields, position, cs => do
    let (a, rest) ←
      match ← nextItem (position == 0) cs with
      | some cs => field.decoder cs
      | none =>
        match field.absent? with
        | some a => .ok (a, cs)
        | none =>
          .error (.mismatch (.invalidLength position
            (what ++ " with " ++ toString total ++ " elements")))
    let (as, rest) ← positional what total fields (position + 1) rest
    return (a :: as, rest)

/-- Decodes a record: an object with the fields by name, or an array with the fields in order. -/
def record {α : Type} (what : String) (fields : List (Field α)) : Decoder (List α) := fun cs => do
  match ← scanFound cs with
  | (.map, rest) =>
    let (seen, rest) ← members fields (cs.length + 1) true [] rest
    return (← complete fields seen, rest)
  | (.sequence, rest) =>
    let (as, rest) ← positional what fields.length fields 0 rest
    return (as, ← endOfArray rest)
  | (found, _) => .error (.mismatch (.invalidType found what))

/-! ### Variants -/

/-- The name of a variant. -/
def variantName {α : Type} (variants : List (String × α)) (expected : String) :
    Decoder α := fun cs => do
  match ← scanFound cs with
  | (.string s, rest) =>
    match variants.lookup s with
    | some a => .ok (a, rest)
    | none => .error (.mismatch (.unknownVariant s expected))
  | (found, _) => .error (.mismatch (.invalidType found "variant identifier"))

/-- Decodes one of some variants: its name, or an object with that name and null. -/
def variant {α : Type} (variants : List (String × α)) (expected : String) : Decoder α :=
  fun cs => do
    match skipBlanks cs with
    | '"' :: rest => variantName variants expected ('"' :: rest)
    | '\x7b' :: rest =>
      let (a, rest) ← variantName variants expected rest
      let (_, rest) ← scalar Found.unit (← afterColon rest)
      return (a, ← endOfObject rest)
    | _ => .error .malformed

/-! ### Whole texts -/

/-- Decodes a text that holds one value. -/
def decode {α : Type} (decoder : Decoder α) (s : String) : Except DecodeError α := do
  let (a, rest) ← decoder s.toList
  if (skipBlanks rest).isEmpty then return a else .error .malformed

end ViewLint.Json
