/-!
# Configuration

The options of a project. An option that is not given has a standard value.

## Main definitions

* `Config`: the options as given.
* `Config.transformMethods` and its companions: the options with their standard values.
-/

namespace ViewLint

/-- The options that a configuration file can give, and the path of that file. -/
structure Config where
  transformMethods? : Option (List String) := none
  capabilities? : Option (List String) := none
  keyComponent? : Option String := none
  valueComponent? : Option String := none
  excludeFolders? : Option (List String) := none
  analyzeGenerated? : Option Bool := none
  model? : Option String := none
  file? : Option String := none
deriving DecidableEq, Repr, Inhabited

namespace Config

/-- The name of the configuration file in a directory. -/
def fileName : String :=
  ".keyview.toml"

/-- The methods whose projections are looked at, with their namespace and type. -/
def transformMethods (c : Config) : List String :=
  c.transformMethods?.getD ["System.Linq.Enumerable.Select"]

/-- The interfaces that make a type a dictionary. -/
def capabilities (c : Config) : List String :=
  c.capabilities?.getD
    ["System.Collections.Generic.IDictionary", "System.Collections.Generic.IReadOnlyDictionary"]

/-- The name of the key component of an entry. -/
def keyComponent (c : Config) : String :=
  c.keyComponent?.getD "Key"

/-- The name of the value component of an entry. -/
def valueComponent (c : Config) : String :=
  c.valueComponent?.getD "Value"

/-- The folders that are not searched, besides the standard ones. -/
def excludeFolders (c : Config) : List String :=
  c.excludeFolders?.getD []

/-- Whether generated files are analyzed. -/
def analyzeGenerated (c : Config) : Bool :=
  c.analyzeGenerated?.getD true

end Config

end ViewLint
