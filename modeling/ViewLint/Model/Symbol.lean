import ViewLint.QualifiedName

/-!
# Symbols

What an expression denotes: a variable, field, property or parameter with its type, a method with
the type that declares it, or a type or a namespace used as an expression.
-/

namespace ViewLint

/-- A method: its name, the type that declares it, and the type it returns where known. -/
structure Method where
  name : String
  container : QualifiedName
  returns : Option QualifiedName
deriving DecidableEq, Repr, Inhabited

/-- The sorts of symbol that hold a value of a declared type. -/
inductive ValueSort where
  | localVariable
  | field
  | property
  | parameter
deriving DecidableEq, Repr, Inhabited

/-- What an expression denotes. A call denotes the method that it calls. -/
inductive Symbol where
  | value (sort : ValueSort) (name : String) (type : QualifiedName)
  | method (method : Method)
  | type (name : QualifiedName)
  | namespaceName (name : String)
deriving DecidableEq, Repr, Inhabited

namespace Symbol

/-- The type of the value that the symbol produces. Types, namespaces and methods whose result is
unknown have none. -/
def declaredType? : Symbol → Option QualifiedName
  | .value _ _ declared => some declared
  | .method m => m.returns
  | .type _ => none
  | .namespaceName _ => none

/-- The method that the symbol denotes. -/
def method? : Symbol → Option Method
  | .method m => some m
  | _ => none

end Symbol

end ViewLint
