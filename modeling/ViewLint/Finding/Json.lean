import ViewLint.Finding.Basic
import ViewLint.Json.Decode

/-!
# Findings as JSON

## Main definitions

* `Finding.toJson`: the value that a finding is written as.
* `Finding.ofJson`: decodes a finding from a text.
* `Span.ofJson`: decodes a span from a value.
-/

namespace ViewLint

/-- The value that a span is written as. -/
def Span.toJson (s : Span) : Json.Value :=
  .object [("start", .natural s.start), ("end", .natural s.stop)]

/-- The name of the field that holds the view of a finding. -/
def Finding.viewField : String :=
  "dictionaryView"

/-- The value that a finding is written as. -/
def Finding.toJson (f : Finding) : Json.Value :=
  .object [
    ("rule_id", .string f.ruleId),
    ("rule_name", .string f.ruleName),
    ("category", .string f.category),
    ("severity", .string f.severity),
    ("message", .string f.message),
    ("file", .string f.file),
    ("line", .natural f.line),
    ("col", .natural f.column),
    ("span", f.span.toJson),
    (Finding.viewField, .string f.view.member),
    ("message_args", .array (f.messageArgs.map .string)) ]

/-! ### Spans -/

/-- The fields of a span. -/
def Span.fields : List (Json.Field Nat) :=
  [⟨"start", Json.index, none⟩, ⟨"end", Json.index, none⟩]

/-- Decodes a span. -/
def Span.decoder : Json.Decoder Span := fun cs => do
  match ← Json.record "struct TextSpan" Span.fields cs with
  | ([start, stop], rest) => return (⟨start, stop⟩, rest)
  | _ => .error .malformed

/-- Decodes a span from a value: an object with both offsets or an array of them. The offsets of an
object are looked at in the order of their names, but a missing start is reported first. -/
def Span.ofJson (v : Json.Value) : Except Json.Mismatch Span :=
  match v with
  | .object _ => do
    let stop? ← (v.get? "end").mapM fun x => x.found.index
    let start? ← (v.get? "start").mapM fun x => x.found.index
    match start?, stop? with
    | some start, some stop => return ⟨start, stop⟩
    | none, _ => .error (.missingField "start")
    | some _, none => .error (.missingField "end")
  | .array [] => .error (.invalidLength 0 "struct TextSpan with 2 elements")
  | .array [a] => do
    let _ ← a.found.index
    .error (.invalidLength 1 "struct TextSpan with 2 elements")
  | .array (a :: b :: more) => do
    let start ← a.found.index
    let stop ← b.found.index
    if more.isEmpty then return ⟨start, stop⟩
    else .error (.invalidLength (more.length + 2) "fewer elements in array")
  | v => .error (.invalidType v.found "struct TextSpan")

/-! ### Findings -/

/-- A value of a field of a finding. -/
inductive FindingField where
  | text (s : String)
  | index (n : Nat)
  | span (s : Span)
  | view (v : View)
  | texts (ss : List String)

namespace FindingField

/-- Decodes with `decoder` and keeps the result as the value of a field. -/
def decoding {α : Type} (decoder : Json.Decoder α) (wrap : α → FindingField) :
    Json.Decoder FindingField := fun cs => do
  let (a, rest) ← decoder cs
  return (wrap a, rest)

/-- Decodes a view. -/
def viewDecoder : Json.Decoder View :=
  Json.variant [("Keys", .keys), ("Values", .values)] "`Keys` or `Values`"

/-- The fields of a finding in order. The name of the rule and the arguments of the message may be
absent. -/
def all : List (Json.Field FindingField) :=
  [ ⟨"rule_id", decoding Json.text .text, none⟩,
    ⟨"rule_name", decoding Json.text .text, some (.text "")⟩,
    ⟨"category", decoding Json.text .text, none⟩,
    ⟨"severity", decoding Json.text .text, none⟩,
    ⟨"message", decoding Json.text .text, none⟩,
    ⟨"file", decoding Json.path .text, none⟩,
    ⟨"line", decoding Json.index .index, none⟩,
    ⟨"col", decoding Json.index .index, none⟩,
    ⟨"span", decoding Span.decoder .span, none⟩,
    ⟨Finding.viewField, decoding viewDecoder .view, none⟩,
    ⟨"message_args", decoding (Json.sequence Json.text) .texts, some (.texts [])⟩ ]

end FindingField

/-- Decodes a finding. -/
def Finding.decoder : Json.Decoder Finding := fun cs => do
  match ← Json.record "struct Finding" FindingField.all cs with
  | ([.text ruleId, .text ruleName, .text category, .text severity, .text message, .text file,
      .index line, .index column, .span span, .view view, .texts messageArgs], rest) =>
    return (⟨ruleId, ruleName, category, severity, message, file, line, column, span, view,
      messageArgs⟩, rest)
  | _ => .error .malformed

/-- Decodes a finding from a text. -/
def Finding.ofJson (s : String) : Except Json.DecodeError Finding :=
  Json.decode Finding.decoder s

end ViewLint
