import ViewLint.Rule.View
import ViewLint.Tree.Span

/-!
# Findings

A finding reports one flagged call: the rule, a message, the file with line and column, and the
span and the view that a fix needs.
-/

namespace ViewLint

/-- The identity of the rule. -/
structure RuleInfo where
  id : String
  name : String
  category : String
deriving DecidableEq, Repr

/-- The one rule of this linter. -/
def dictionaryViewRule : RuleInfo :=
  ⟨"KV-P001", "DictionarySelectKeyValue", "Performance"⟩

/-- A flagged call. Line and column count from one, the column in bytes. -/
structure Finding where
  ruleId : String
  ruleName : String
  category : String
  severity : String
  message : String
  file : String
  line : Nat
  column : Nat
  span : Span
  view : View
  messageArgs : List String
deriving DecidableEq, Repr, Inhabited

namespace Finding

/-- The severity of every finding. -/
def severityLevel : String :=
  "MEDIUM"

/-- The advice to use `view` in place of a projection onto `component`. -/
def advice (view : View) (component : String) : String :=
  "Prefer the `." ++ view.member ++ "` view instead of selecting `." ++ component ++ "`"

end Finding

end ViewLint
