import ViewLint.Json.Decode
import ViewLint.Rule.View
import ViewLint.Tree.Span

/-!
# Refused fixes

## Main definitions

* `PayloadError`: what is wrong with a written finding.
* `FixError`: why a fix is refused.
* `FixError.message`: the text of a refusal.
-/

namespace ViewLint

/-- What is wrong with a written finding. -/
inductive PayloadError where
  /-- The text is no JSON. -/
  | notJson
  | missingSpan
  | invalidSpan (cause : Json.Mismatch)
  | missingView
  | unknownView (text : String)
deriving DecidableEq, Repr

/-- The words for what is wrong, where they say more than that the finding is malformed. -/
def PayloadError.detail? : PayloadError → Option String
  | .notJson => none
  | .missingSpan => some "missing `span`"
  | .invalidSpan cause => some ("invalid `span`: " ++ cause.message)
  | .missingView => some "missing `dictionaryView`"
  | .unknownView text => some (View.unknownMessage text)

/-- Why a fix is refused. The tree stays as it is. -/
inductive FixError where
  | nodeNotFound (span : Span)
  | notAnInvocation (span : Span) (kind : String)
  | missingReceiver (span : Span)
  | malformedPayload (cause : PayloadError)
deriving DecidableEq, Repr

/-- The text of a refusal. -/
def FixError.message : FixError → String
  | .nodeNotFound span => "no node at " ++ span.render
  | .notAnInvocation span kind =>
    "node at " ++ span.render ++ " is a `" ++ kind ++ "`, not an invocation"
  | .missingReceiver span => "invocation at " ++ span.render ++ " has no member-access receiver"
  | .malformedPayload cause =>
    "malformed finding payload" ++ (cause.detail?.elim "" fun detail => ": " ++ detail)

end ViewLint
