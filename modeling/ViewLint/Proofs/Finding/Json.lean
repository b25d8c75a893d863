import ViewLint.Finding.Json
import ViewLint.Proofs.Json.Decode

/-!
# Written findings are decoded

A finding whose numbers have 64 bits is decoded from its written form, whatever characters its
strings have. Each field of the record is an entry with its decoder, the value it is written as and
the result read from that.

## Main definitions

* `Finding.Fits`: line, column and both offsets have 64 bits.
* `Finding.entries`: the fields of a finding with their written values.

## Main results

* `Finding.reads_decoder`: the decoder of findings reads the written finding.
* `Finding.ofJson_compact_toJson`: the text of a finding is decoded as that finding.
-/

namespace ViewLint

open Json

/-! ### Spans -/

/-- Both offsets have 64 bits. -/
structure Span.Fits (s : Span) : Prop where
  start : s.start < NumberText.bound
  stop : s.stop < NumberText.bound

/-- The fields of a span with their written values. -/
def Span.entries (s : Span) (h : s.Fits) : List (Json.Entry Nat) :=
  [ ⟨⟨"start", index, none⟩, .natural s.start, s.start, reads_index h.start⟩,
    ⟨⟨"end", index, none⟩, .natural s.stop, s.stop, reads_index h.stop⟩ ]

theorem Span.distinct_entries (s : Span) (h : s.Fits) : Json.Entry.Distinct (s.entries h) := by
  have hnames : (Span.fields.map (·.name)).Nodup := by decide
  exact hnames

theorem Span.reads_decoder {s : Span} (h : s.Fits) : Reads Span.decoder s.toJson s := by
  intro rest hrest
  have hrecord : record "struct TextSpan" Span.fields (s.toJson.compactChars ++ rest) =
      .ok ([s.start, s.stop], rest) :=
    reads_record "struct TextSpan" (s.distinct_entries h) rest hrest
  simp only [Span.decoder, hrecord, ok_bind]
  rfl

/-! ### Findings -/

namespace FindingField

theorem reads_decoding {α : Type} {decoder : Decoder α} {v : Value} {a : α}
    (h : Reads decoder v a) (wrap : α → FindingField) :
    Reads (decoding decoder wrap) v (wrap a) := by
  intro rest hrest
  simp only [decoding, h rest hrest, ok_bind]
  rfl

theorem reads_viewDecoder (v : View) : Reads viewDecoder (.string v.member) v := by
  cases v with
  | keys => exact reads_variant rfl _
  | values => exact reads_variant rfl _

theorem reads_texts (ss : List String) :
    Reads (sequence Json.text) (.array (ss.map .string)) ss := by
  have hreadable (s : String) : (Value.string s).Readable 0 := .scalar (.string s)
  exact reads_sequence ss (fun s _ => reads_text s) fun s _ => hreadable s

end FindingField

namespace Finding

/-- Line, column and both offsets have 64 bits. -/
structure Fits (f : Finding) : Prop where
  line : f.line < NumberText.bound
  column : f.column < NumberText.bound
  span : f.span.Fits

open FindingField in
/-- The fields of a finding with their written values. -/
def entries (f : Finding) (h : f.Fits) : List (Json.Entry FindingField) :=
  [ ⟨⟨"rule_id", _, none⟩, _, _, reads_decoding (reads_text f.ruleId) .text⟩,
    ⟨⟨"rule_name", _, some (.text "")⟩, _, _, reads_decoding (reads_text f.ruleName) .text⟩,
    ⟨⟨"category", _, none⟩, _, _, reads_decoding (reads_text f.category) .text⟩,
    ⟨⟨"severity", _, none⟩, _, _, reads_decoding (reads_text f.severity) .text⟩,
    ⟨⟨"message", _, none⟩, _, _, reads_decoding (reads_text f.message) .text⟩,
    ⟨⟨"file", _, none⟩, _, _, reads_decoding (reads_path f.file) .text⟩,
    ⟨⟨"line", _, none⟩, _, _, reads_decoding (reads_index h.line) .index⟩,
    ⟨⟨"col", _, none⟩, _, _, reads_decoding (reads_index h.column) .index⟩,
    ⟨⟨"span", _, none⟩, _, _, reads_decoding (Span.reads_decoder h.span) .span⟩,
    ⟨⟨viewField, _, none⟩, _, _, reads_decoding (reads_viewDecoder f.view) .view⟩,
    ⟨⟨"message_args", _, some (.texts [])⟩, _, _,
      reads_decoding (reads_texts f.messageArgs) .texts⟩ ]

/-- The entries are the fields that are decoded. -/
theorem map_field_entries (f : Finding) (h : f.Fits) :
    (f.entries h).map (·.field) = FindingField.all :=
  rfl

/-- The entries are the members that are written. -/
theorem object_entries (f : Finding) (h : f.Fits) :
    Value.object ((f.entries h).map Json.Entry.member) = f.toJson :=
  rfl

theorem distinct_entries (f : Finding) (h : f.Fits) : Json.Entry.Distinct (f.entries h) := by
  have hnames : (FindingField.all.map (·.name)).Nodup := by decide
  exact hnames

/-- The decoder of findings reads the written finding. -/
theorem reads_decoder {f : Finding} (h : f.Fits) : Reads Finding.decoder f.toJson f := by
  intro rest hrest
  have hrecord := reads_record "struct Finding" (f.distinct_entries h) rest hrest
  rw [map_field_entries, object_entries] at hrecord
  simp only [Finding.decoder, hrecord, ok_bind]
  rfl

/-- **A written finding is decoded as that finding.** Whatever its strings hold, every escape is
undone; no field of the record is missing, and none comes twice. -/
theorem ofJson_compact_toJson {f : Finding} (h : f.Fits) :
    Finding.ofJson f.toJson.compact = .ok f :=
  decode_compact (reads_decoder h)

/-- A finding with the largest numbers, and with quotes, backslashes, control characters and
characters beyond ASCII in its strings. -/
def escaped : Finding where
  ruleId := "KV-P001"
  ruleName := ""
  category := "\\\"\\"
  severity := "MEDIUM"
  message := "a \"quoted\" word,\n\ta \\ and \x00\x08\x0c\x1f\x7f"
  file := "C:\\Büro\\😀.cs"
  line := 18446744073709551615
  column := 0
  span := ⟨18446744073709551615, 7⟩
  view := .values
  messageArgs := ["", "\"", ",\r]", "\\u0041"]

theorem ofJson_compact_toJson_escaped :
    escaped.Fits ∧ Finding.ofJson escaped.toJson.compact = .ok escaped := by
  have hfits : escaped.Fits := ⟨by decide, by decide, ⟨by decide, by decide⟩⟩
  exact ⟨hfits, ofJson_compact_toJson hfits⟩

end Finding

end ViewLint
