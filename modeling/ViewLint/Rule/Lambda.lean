import ViewLint.Tree.Basic

/-!
# Anonymous functions

An argument can be a lambda, `kv => ...` or `(kv) => ...`, or an anonymous method,
`delegate (T kv) { ... }`. This module reads their parameters and the expression they return.

## Main definitions

* `LambdaShape`: the parameters of an anonymous function.
* `LambdaShape.of?`: the shape of a node.
* `LambdaShape.single?`: the parameter of a function that has exactly one.
* `returned?`: the expression that a function returns.
-/

namespace ViewLint

namespace Node

/-- Whether a node is a lambda or an anonymous method. -/
def isAnonymousFunction (n : Node) : Bool :=
  n.kind == "lambda_expression" || n.kind == "anonymous_method_expression"

end Node

/-- The parameters of an anonymous function: a bare name, or a list in parentheses. -/
inductive LambdaShape where
  | simple (name : String)
  | parenthesized (names : List String)
deriving DecidableEq, Repr

namespace LambdaShape

/-- The name of a parameter, if it is a plain identifier. -/
def parameterName? (parameter : Node) : Option String :=
  ((parameter.field? "name").filter (·.kind == "identifier")).map Node.text

/-- The shape of a parameter list. Every parameter in it must have a name. -/
def ofList? (list : Node) : Option LambdaShape :=
  ((list.significant.filter (·.kind == "parameter")).mapM parameterName?).map parenthesized

/-- The kinds of node that can stand for the parameters of a lambda. -/
def isParameters (n : Node) : Bool :=
  n.kind == "parameter_list" || n.kind == "implicit_parameter" || n.kind == "identifier"

/-- The node with the parameters of a lambda: its field, or else the first child that can be. -/
def parametersOf? (lambda : Node) : Option Node :=
  (lambda.field? "parameters").or (lambda.significant.find? isParameters)

/-- The shape of an anonymous function. Other nodes have none, nor has an anonymous method
without a parameter list. -/
def of? (n : Node) : Option LambdaShape :=
  if n.kind = "anonymous_method_expression" then
    ((n.field? "parameters").filter (·.kind == "parameter_list")).bind ofList?
  else if n.kind = "lambda_expression" then do
    let parameters ← parametersOf? n
    if parameters.kind = "implicit_parameter" ∨ parameters.kind = "identifier" then
      return simple parameters.text
    else if parameters.kind = "parameter_list" then ofList? parameters
    else none
  else none

/-- The parameter of a function that has exactly one. -/
def single? : LambdaShape → Option String
  | .simple name => some name
  | .parenthesized [name] => some name
  | .parenthesized _ => none

end LambdaShape

/-- The only element of a list. -/
def only? {α : Type} : List α → Option α
  | [a] => some a
  | _ => none

/-- The expression that an anonymous function returns: its body, or, where the body is a block,
the operand of the single `return` that makes up the block. -/
def returned? (lambda : Node) : Option Node := do
  let body ← (lambda.field? "body").or lambda.significant.getLast?
  if body.kind = "block" then
    let statement ← only? body.significant
    if statement.kind = "return_statement" then only? statement.significant else none
  else return body

end ViewLint
