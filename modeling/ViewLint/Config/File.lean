import ViewLint.Config.Basic
import ViewLint.Files.System
import ViewLint.Toml.Document

/-!
# Configuration files

The configuration of a project stands in a TOML file in one of the directories around it. The
nearest file that can be read and understood counts.

## Main definitions

* `Config.ofToml?`: the options of a configuration file.
* `Config.load`: the configuration for a path.
* `Config.modelPath?`: the path of the model file.
-/

namespace ViewLint.Config

/-- The options in the order of their declaration. -/
def optionNames : List String :=
  ["transform_methods", "capabilities", "key_component", "value_component", "exclude_folders",
    "analyze_generated", "model"]

/-- The value of an option, which may be missing but must fit if it is there. -/
def option? {α : Type} (read : Toml.Value → Option α) :
    Option Toml.Value → Option (Option α)
  | none => some none
  | some v => (read v).map some

/-- The options of a table. -/
def ofTable? (v : Toml.Value) : Option Config := do
  match ← v.record? optionNames optionNames.length with
  | [methods, capabilities, key, value, folders, generated, model] =>
    return {
      transformMethods? := ← option? Toml.Value.strings? methods
      capabilities? := ← option? Toml.Value.strings? capabilities
      keyComponent? := ← option? Toml.Value.string? key
      valueComponent? := ← option? Toml.Value.string? value
      excludeFolders? := ← option? Toml.Value.strings? folders
      analyzeGenerated? := ← option? Toml.Value.boolean? generated
      model? := ← option? Toml.Value.string? model }
  | _ => none

/-- The options of a configuration file: those of its table `keyview`, if it has one. -/
def ofToml? (text : String) : Option Config := do
  match ← Toml.parse? text with
  | .table entries =>
    match entries.lookup "keyview" with
    | some v => ofTable? v
    | none => return {}
  | _ => none

/-- The configuration in a directory. -/
def inDirectory? (fs : FileSystem) (directory : String) : Option Config := do
  let path := Path.join directory fileName
  let text ← (fs.readText path).toOption
  let config ← ofToml? text
  return { config with file? := some path }

/-- The directory where the search for a configuration starts: that of a file, or the path. -/
def startDirectory (fs : FileSystem) (path : String) : String :=
  if fs.isFile path then (Path.parent? path).getD path else path

/-- The configuration for a path: that of the nearest directory that has one, or none of the
options. -/
def load (fs : FileSystem) (path : String) : Config :=
  ((Path.ancestors (startDirectory fs path)).findSome? (inDirectory? fs)).getD {}

/-- The path of the model file. A relative one starts at the directory of the configuration
file. -/
def modelPath? (c : Config) : Option String :=
  c.model?.map fun model =>
    if Path.isAbsolute model then model
    else Path.join ((c.file?.bind Path.parent?).getD ".") model

end ViewLint.Config
