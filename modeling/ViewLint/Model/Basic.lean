import ViewLint.Model.Symbol
import ViewLint.Text.Blank
import ViewLint.Tree.Basic

/-!
# Semantic models

A model tells what the tree alone cannot: which symbol an expression denotes and which interfaces
a type implements. It is a record of declarations. The last binding of an expression and the last
method of a name count, while the interfaces declared for a type add up.

## Main definitions

* `Model`: bindings of expressions, declared interfaces and extension methods.
* `Model.symbolOf`: the symbol that an expression denotes.
* `Model.allInterfaces`: the interfaces of a type, also those of its interfaces.
* `Model.implementsAny`: whether a type is, or implements, one of some types.
-/

namespace ViewLint

/-- A record of declarations. The newest binding and the newest method come first; the interface
declarations come in the order in which they were made. -/
structure Model where
  bindings : List (String × Symbol)
  declarations : List (QualifiedName × List QualifiedName)
  extensions : List Method
deriving Repr, Inhabited

namespace Model

/-- The model that knows nothing. -/
def empty : Model :=
  ⟨[], [], []⟩

/-! ### Declaring -/

/-- The model in which the expression `expr` denotes `symbol`. Blanks in `expr` do not count. -/
def bind (m : Model) (expr : String) (symbol : Symbol) : Model :=
  { m with bindings := (Text.squeeze expr, symbol) :: m.bindings }

/-- The model in which `type` directly implements `interfaces`, besides those it already has. -/
def declareType (m : Model) (type : QualifiedName) (interfaces : List QualifiedName) : Model :=
  { m with declarations := m.declarations ++ [(type, interfaces)] }

/-- The model in which a member access that names `method` denotes it, unless it is bound. -/
def registerExtension (m : Model) (method : Method) : Model :=
  { m with extensions := method :: m.extensions }

/-! ### Symbols -/

/-- The symbol bound to an expression with the given text. -/
def binding? (m : Model) (text : String) : Option Symbol :=
  m.bindings.lookup (Text.squeeze text)

/-- The extension method with the given name. -/
def extension? (m : Model) (name : String) : Option Method :=
  m.extensions.find? (·.name == name)

/-- The symbol that an expression denotes: the one bound to its text, or the extension method that
a member access names. -/
def symbolOf (m : Model) (expr : Node) : Option Symbol :=
  match m.binding? expr.text with
  | some symbol => some symbol
  | none =>
    if expr.kind = "member_access_expression" then do
      let member ← expr.field? "name"
      let name ← member.simpleName?
      let method ← m.extension? name
      return .method method
    else none

/-! ### Interfaces -/

/-- The interfaces that declarations give to a type, in the order of declaration. -/
def direct (declarations : List (QualifiedName × List QualifiedName)) (type : QualifiedName) :
    List QualifiedName :=
  declarations.flatMap fun d => if d.1 = type then d.2 else []

/-- The declarations for other types than `type`. -/
def without (declarations : List (QualifiedName × List QualifiedName)) (type : QualifiedName) :
    List (QualifiedName × List QualifiedName) :=
  declarations.filter (·.1 ≠ type)

theorem length_without_le (declarations : List (QualifiedName × List QualifiedName))
    (type : QualifiedName) : (without declarations type).length ≤ declarations.length :=
  List.length_filter_le _ _

/-- A type without declarations has no direct interface. -/
theorem direct_eq_nil_of_length_without {declarations : List (QualifiedName × List QualifiedName)}
    {type : QualifiedName} (h : (without declarations type).length = declarations.length) :
    direct declarations type = [] := by
  have hall := List.length_filter_eq_length_iff.mp h
  rw [direct, List.flatMap_eq_nil_iff]
  intro d hd
  simpa using fun heq => absurd heq (by simpa using hall d hd)

/-- The interfaces reached from a stack of pending ones, each listed once when it is first taken
from the stack; `self` is left out. The direct interfaces of the one taken go on top of the stack,
the last declared of them uppermost. An interface that was listed needs its declarations no
more, so they are dropped, which bounds the search also when interfaces lead back to themselves. -/
def closure (self : QualifiedName) (declarations : List (QualifiedName × List QualifiedName))
    (seen pending : List QualifiedName) : List QualifiedName :=
  match pending with
  | [] => []
  | q :: rest =>
    if q = self ∨ q ∈ seen then closure self declarations seen rest
    else
      q :: closure self (without declarations q) (q :: seen)
        ((direct declarations q).reverse ++ rest)
termination_by (declarations.length, pending.length)
decreasing_by
  · exact Prod.Lex.right _ (by simp)
  · by_cases h : (without declarations q).length < declarations.length
    · exact Prod.Lex.left _ _ h
    · have heq : (without declarations q).length = declarations.length := by
        have := length_without_le declarations q
        omega
      rw [heq, direct_eq_nil_of_length_without heq]
      exact Prod.Lex.right _ (by simp)

/-- All interfaces that a type implements, directly or through others, without the type itself. -/
def allInterfaces (m : Model) (type : QualifiedName) : List QualifiedName :=
  closure type m.declarations [] (direct m.declarations type).reverse

/-- Whether a type is one of `capabilities` or implements one of them. -/
def implementsAny (m : Model) (type : QualifiedName) (capabilities : List QualifiedName) : Bool :=
  capabilities.contains type || (m.allInterfaces type).any capabilities.contains

end Model

end ViewLint
