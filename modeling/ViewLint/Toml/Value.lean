/-!
# TOML values

The values of a TOML document. Numbers and times are kept as they are written, since no option
and no model entry is a number or a time; it matters only that they are well formed.
-/

namespace ViewLint.Toml

/-- A value of a TOML document. The entries of a table have distinct keys. -/
inductive Value where
  | string (text : String)
  | integer (text : String)
  | float (text : String)
  | boolean (b : Bool)
  | datetime (text : String)
  | array (items : List Value)
  | table (entries : List (String × Value))
deriving Repr, Inhabited

namespace Value

/-- The text of a string. -/
def string? : Value → Option String
  | .string s => some s
  | _ => none

/-- The truth value of a boolean. -/
def boolean? : Value → Option Bool
  | .boolean b => some b
  | _ => none

/-- The items of an array. -/
def array? : Value → Option (List Value)
  | .array xs => some xs
  | _ => none

/-- The texts of an array of strings. -/
def strings? (v : Value) : Option (List String) :=
  v.array?.bind (·.mapM string?)

/-- A record with the given fields: a table with no other keys, or an array that gives the fields
in order, all up to the last one that must be there. The result lists what is given for each
field. -/
def record? (fields : List String) (required : Nat) : Value → Option (List (Option Value))
  | .table entries =>
    if entries.all fun e => fields.contains e.1 then some (fields.map fun f => entries.lookup f)
    else none
  | .array items =>
    if required ≤ items.length then
      some ((List.range fields.length).map fun i => items[i]?)
    else none
  | _ => none

end Value

end ViewLint.Toml
