import ViewLint.Config.Basic
import ViewLint.Model.Symbol
import ViewLint.Rule.View
import ViewLint.Text.Blank

/-!
# What the rule looks for

The settings of the rule say which methods are projections, which interfaces make a receiver a
dictionary, and what the components of its entries are called.

## Main definitions

* `Transform`: a projection method, by its declaring type and its name.
* `Settings`: the settings of the rule; `Settings.ofConfig` reads them from the options.
-/

namespace ViewLint

/-- A projection method: the type that declares it and its name. -/
structure Transform where
  container : QualifiedName
  name : String
deriving DecidableEq, Repr, Inhabited

namespace Transform

/-- The method that a text of the form `Namespace.Type.Method` writes. A text without a type, or
without a method, writes none. -/
def parse? (text : String) : Option Transform :=
  match Text.cutLast '.' (Text.trim text.toList) with
  | some (container, name) =>
    if container.isEmpty || name.isEmpty then none
    else some ⟨QualifiedName.parse (String.ofList container), String.ofList name⟩
  | none => none

/-- Whether a method is this projection. -/
def covers (t : Transform) (m : Method) : Bool :=
  m.name == t.name && m.container == t.container

end Transform

/-- The settings of the rule. -/
structure Settings where
  transforms : List Transform
  capabilities : List QualifiedName
  components : Components
deriving Repr, Inhabited

/-- The settings that the options of a project give. A projection method that cannot be read is
left out. -/
def Settings.ofConfig (c : Config) : Settings where
  transforms := c.transformMethods.filterMap Transform.parse?
  capabilities := c.capabilities.map QualifiedName.parse
  components := Components.ofNames c.keyComponent c.valueComponent

end ViewLint
