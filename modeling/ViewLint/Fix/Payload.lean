import ViewLint.Finding.Json
import ViewLint.Fix.Basic

/-!
# Fixing a written finding

A finding can be handed over as JSON. Only its span and its view are read.

## Main definitions

* `readPayload`: the span and the view of a written finding.
* `Tree.fixPayload`: the tree after the fix.
-/

namespace ViewLint

/-- The span and the view of a written finding. -/
def readPayload (json : String) : Except PayloadError (Span × View) :=
  match Json.Value.parse? json with
  | none => .error .notJson
  | some payload =>
    match payload.get? "span" with
    | none => .error .missingSpan
    | some value =>
      match Span.ofJson value with
      | .error cause => .error (.invalidSpan cause)
      | .ok span =>
        match (payload.get? Finding.viewField).bind (·.string?) with
        | none => .error .missingView
        | some name =>
          match View.ofMember? name with
          | none => .error (.unknownView name)
          | some view => .ok (span, view)

/-- The tree after the fix that a written finding describes. -/
def Tree.fixPayload (t : Tree) (json : String) : Except FixError Tree :=
  match readPayload json with
  | .error cause => .error (.malformedPayload cause)
  | .ok (span, view) => t.fixAt span view

end ViewLint
