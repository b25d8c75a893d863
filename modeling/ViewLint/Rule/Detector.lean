import ViewLint.Model.Basic
import ViewLint.Rule.Lambda
import ViewLint.Rule.Settings

/-!
# Detecting projections of a dictionary

A call `receiver.Select(kv => kv.Key)` projects a dictionary onto its keys, for which it has a
view. A node is flagged if its callee is a projection method, its receiver is a dictionary, and
its first argument is a function of one parameter that returns a component of that parameter.

## Main definitions

* `ViewMatch`: the view that can replace a call, and the component that the call selects.
* `calleeOf?`, `receiverOf?`, `selectorOf?`: the parts of a call.
* `selectedMember?`: the member of its parameter that a function returns.
* `Settings.match?`: whether a node is a projection that has a view.
-/

namespace ViewLint

/-- The view that can replace a call, and the component that the call selects. -/
structure ViewMatch where
  view : View
  component : String
deriving DecidableEq, Repr

/-- The callee of a call through a member access. -/
def calleeOf? (call : Node) : Option Node :=
  if call.kind = "invocation_expression" then
    (call.field? "function").filter (·.kind == "member_access_expression")
  else none

/-- The expression on which a member access is made. -/
def receiverOf? (access : Node) : Option Node :=
  access.field? "expression"

/-- The function that a call takes as its first argument. -/
def selectorOf? (call : Node) : Option Node := do
  let arguments ← call.field? "arguments"
  let argument ← arguments.significant.head?.filter (·.kind == "argument")
  argument.significant.getLast?.filter (·.isAnonymousFunction)

/-- The member that a function of one parameter takes of its parameter and returns. -/
def selectedMember? (lambda : Node) : Option String := do
  let shape ← LambdaShape.of? lambda
  let parameter ← shape.single?
  let projection ← (returned? lambda).filter (·.kind == "member_access_expression")
  let target ← (projection.field? "expression").filter (·.kind == "identifier")
  if target.text = parameter then
    let member ← (projection.field? "name").filter (·.kind == "identifier")
    return member.text
  else none

/-- Whether the callee denotes a projection method. -/
def Settings.isTransform (s : Settings) (m : Model) (callee : Node) : Bool :=
  match (m.symbolOf callee).bind Symbol.method? with
  | some method => s.transforms.any (·.covers method)
  | none => false

/-- Whether an expression is typed as a dictionary. -/
def Settings.isDictionary (s : Settings) (m : Model) (receiver : Node) : Bool :=
  match (m.symbolOf receiver).bind Symbol.declaredType? with
  | some type => m.implementsAny type s.capabilities
  | none => false

/-- The view that can replace a node, if the node projects a dictionary onto a component. -/
def Settings.match? (s : Settings) (m : Model) (node : Node) : Option ViewMatch := do
  let callee ← calleeOf? node
  if s.isTransform m callee then
    let receiver ← receiverOf? callee
    if s.isDictionary m receiver then
      let lambda ← selectorOf? node
      let member ← selectedMember? lambda
      let view ← s.components.viewOf member
      return ⟨view, s.components.component view⟩
    else none
  else none

end ViewLint
