import ViewLint.Finding.Basic
import ViewLint.Fix.Error
import ViewLint.Tree.Find
import ViewLint.Tree.Layout

/-!
# Fixing a finding

A fix replaces the flagged call by a member access: the receiver of the call, a dot and the member
of the view. The call is found again by its span. A span that fits no call is refused, never
widened to an enclosing one.

## Main definitions

* `Node.memberAccess`: the member access on a receiver.
* `Tree.callAt`: the address of the call with a span.
* `Tree.fixAt`, `Tree.fix`: the tree after the fix.
-/

namespace ViewLint

/-- The access to `member` of `receiver`. The receiver keeps the trivia before it; the new tokens
have none, and follow the receiver directly. -/
def Node.memberAccess (receiver : Node) (member : String) : Node :=
  let stop := receiver.span.stop
  let dot := Node.token "." false ⟨stop, stop + 1⟩ "" "."
  let name := Node.token "identifier" true ⟨stop + 1, stop + 1 + member.utf8ByteSize⟩ "" member
  Node.ofChildren "member_access_expression"
    [(some "expression", receiver), (none, dot), (some "name", name)] true

namespace Tree

/-- The address and the node of the call that spans exactly `span`: the outermost node with that
span or, where that is a wrapper such as an argument, its first child that is a call with it. -/
def callAt (t : Tree) (span : Span) : Except FixError (Address × Node) :=
  match t.locate span with
  | none => .error (.nodeNotFound span)
  | some address =>
    match t.root.at? address with
    | none => .error (.nodeNotFound span)
    | some located =>
      if located.kind = "invocation_expression" then .ok (address, located)
      else
        let isCall (c : Child) : Bool :=
          c.2.kind == "invocation_expression" && c.2.span == span
        match located.children.findIdx? isCall, located.children.find? isCall with
        | some i, some call => .ok (address ++ [i], call.2)
        | _, _ => .error (.notAnInvocation span located.kind)

/-- The receiver of a call through a member access. -/
def receiverOfCall? (call : Node) : Option Node :=
  ((call.field? "function").filter (·.kind == "member_access_expression")).bind
    (·.field? "expression")

/-- The tree in which the call at `span` is replaced by the view of its receiver. -/
def fixAt (t : Tree) (span : Span) (view : View) : Except FixError Tree :=
  match t.callAt span with
  | .error e => .error e
  | .ok (address, call) =>
    match receiverOfCall? call with
    | none => .error (.missingReceiver span)
    | some receiver =>
      match t.replace address (receiver.memberAccess view.member) with
      | some fixed => .ok fixed
      | none => .error (.nodeNotFound span)

/-- The tree after the fix for a finding. -/
def fix (t : Tree) (f : Finding) : Except FixError Tree :=
  t.fixAt f.span f.view

end Tree

end ViewLint
