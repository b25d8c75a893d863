import ViewLint.Text.Blank
import ViewLint.Text.Cut

/-!
# Qualified names

A type is named by its namespace and its simple name. The written form of a type may carry
generic arguments (`Dictionary<K, V>`) or an arity mark; neither belongs to the name. What
follows them, such as the brackets of an array, does.

## Main definitions

* `QualifiedName`: a namespace and a simple name.
* `stripGenerics`: a written name without its first group of generic arguments.
* `QualifiedName.parse`: the name that a dotted text writes.
-/

namespace ViewLint

/-- The name of a type: its namespace, empty for the global one, and its simple name. -/
structure QualifiedName where
  namespaceName : String
  name : String
deriving DecidableEq, Repr, Inhabited

namespace QualifiedName

/-- Whether a character opens generic arguments: an angle bracket, or the mark before an arity. -/
def opensGenerics (c : Char) : Bool :=
  c == '<' || c == Char.ofNat 0x60

/-- What follows the first bracket group that is closed again, when `depth` brackets are open. -/
def afterGroup : Nat → List Char → Option (List Char)
  | _, [] => none
  | depth, '<' :: cs => afterGroup (depth + 1) cs
  | depth, '>' :: cs => if depth ≤ 1 then some cs else afterGroup (depth - 1) cs
  | depth, _ :: cs => afterGroup depth cs

/-- A written name without its first group of generic arguments or its first arity mark. Blanks
around the removed part go with it. Of a group that is never closed, nothing after its opening
bracket remains. -/
def stripGenerics (text : List Char) : List Char :=
  let head := text.takeWhile (!opensGenerics ·)
  match text.dropWhile (!opensGenerics ·) with
  | [] => text
  | '<' :: cs => Text.trimEnd head ++ Text.trim ((afterGroup 1 cs).getD [])
  | _ :: cs => Text.trimEnd head ++ Text.trim (cs.dropWhile Char.isDigit)

/-- The name with the given namespace and written simple name. -/
def ofParts (namespaceName name : List Char) : QualifiedName :=
  ⟨String.ofList namespaceName, String.ofList (stripGenerics name)⟩

/-- The name that a dotted text writes: the last dot ends the namespace. -/
def parse (text : String) : QualifiedName :=
  let stripped := stripGenerics (Text.trim text.toList)
  match Text.cutLast '.' stripped with
  | some (namespaceName, name) => ofParts namespaceName name
  | none => ofParts [] stripped

/-- The dotted form of a name. -/
def render (q : QualifiedName) : String :=
  if q.namespaceName.isEmpty then q.name else q.namespaceName ++ "." ++ q.name

end QualifiedName

end ViewLint
