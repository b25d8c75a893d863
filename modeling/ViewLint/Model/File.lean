import ViewLint.Model.BaseLibrary
import ViewLint.Text.Cut
import ViewLint.Toml.Document

/-!
# Model files

A model file is a TOML document that declares the types, the extension methods and the symbols of
a project on top of the base class library.

## Main definitions

* `ModelError`: why a file is no model, with its message.
* `Model.TypeEntry`, `Model.MethodEntry`, `Model.SymbolEntry`: the entries of a file.
* `Model.ofToml`: the model that a file declares.
-/

namespace ViewLint

/-- Why a file is no model. -/
inductive ModelError where
  | invalidFile
  | missingType (expr : String)
  | missingContainer (expr : String)
deriving DecidableEq, Repr

/-- The text of a refusal. -/
def ModelError.message : ModelError → String
  | .invalidFile => "invalid model file"
  | .missingType expr => "symbol `" ++ expr ++ "` needs a `type`"
  | .missingContainer expr => "method symbol `" ++ expr ++ "` needs a `container`"

namespace Model

/-! ### Entries -/

/-- A type and the interfaces it directly implements, as written. -/
structure TypeEntry where
  name : String
  interfaces : List String
deriving DecidableEq, Repr

/-- An extension method, as written. -/
structure MethodEntry where
  name : String
  container : String
  returns : Option String
deriving DecidableEq, Repr

/-- The sorts of symbol that a file can declare. -/
inductive SymbolSort where
  | value (sort : ValueSort)
  | method
  | type
  | namespaceName
deriving DecidableEq, Repr

/-- A symbol, as written. -/
structure SymbolEntry where
  expr : String
  sort : SymbolSort
  name? : Option String
  type? : Option String
  container? : Option String
  returns? : Option String
deriving DecidableEq, Repr

/-- The sort that a word names. -/
def SymbolSort.ofWord? (word : String) : Option SymbolSort :=
  match word with
  | "local" => some (.value .localVariable)
  | "field" => some (.value .field)
  | "property" => some (.value .property)
  | "parameter" => some (.value .parameter)
  | "method" => some .method
  | "type" => some .type
  | "namespace" => some .namespaceName
  | _ => none

/-- An entry that may be absent but not of another kind. -/
def optionalString? : Option Toml.Value → Option (Option String)
  | none => some none
  | some v => v.string?.map some

/-- The type declared by an item of a file. -/
def TypeEntry.of? (v : Toml.Value) : Option TypeEntry := do
  match ← v.record? ["name", "interfaces"] 1 with
  | [name, interfaces] =>
    let interfaces ← match interfaces with
      | none => some []
      | some list => list.strings?
    return ⟨← (← name).string?, interfaces⟩
  | _ => none

/-- The extension method declared by an item of a file. -/
def MethodEntry.of? (v : Toml.Value) : Option MethodEntry := do
  match ← v.record? ["name", "container", "returns"] 3 with
  | [name, container, returns] =>
    return ⟨← (← name).string?, ← (← container).string?, ← optionalString? returns⟩
  | _ => none

/-- The sort of a symbol: a word, or a table with that word as its only key and nothing in it. -/
def SymbolSort.of? : Toml.Value → Option SymbolSort
  | .string word => ofWord? word
  | .table [(word, .table [])] => ofWord? word
  | .table [(word, .array [])] => ofWord? word
  | _ => none

/-- The symbol declared by an item of a file. -/
def SymbolEntry.of? (v : Toml.Value) : Option SymbolEntry := do
  match ← v.record? ["expr", "kind", "name", "type", "container", "returns"] 6 with
  | [expr, kind, name, type, container, returns] =>
    return ⟨← (← expr).string?, ← SymbolSort.of? (← kind), ← optionalString? name,
      ← optionalString? type, ← optionalString? container, ← optionalString? returns⟩
  | _ => none

/-! ### Symbols -/

/-- The last identifier of an expression, which is the name of a symbol that is declared without
one: the calls without arguments at the end and all from the first parenthesis on are cut off,
and of the rest what follows the last dot is taken. -/
def defaultName (expr : String) : String :=
  let called := Text.dropTails ['(', ')'] (Text.trim expr.toList)
  let callee := called.takeWhile (· != '(')
  let last := match Text.cutLast '.' callee with
    | some (_, last) => last
    | none => callee
  String.ofList (Text.trim last)

/-- The symbol that an entry declares. -/
def SymbolEntry.toSymbol (e : SymbolEntry) : Except ModelError Symbol :=
  let name := e.name?.getD (defaultName e.expr)
  match e.sort with
  | .value sort =>
    match e.type? with
    | some type => .ok (.value sort name (QualifiedName.parse type))
    | none => .error (.missingType e.expr)
  | .method =>
    match e.container? with
    | some container =>
      .ok (.method ⟨name, QualifiedName.parse container, e.returns?.map QualifiedName.parse⟩)
    | none => .error (.missingContainer e.expr)
  | .type =>
    match e.type? with
    | some type => .ok (.type (QualifiedName.parse type))
    | none => .error (.missingType e.expr)
  | .namespaceName => .ok (.namespaceName name)

/-! ### Files -/

/-- What a model file declares. -/
structure Declarations where
  types : List TypeEntry
  symbols : List SymbolEntry
  methods : List MethodEntry
deriving DecidableEq, Repr

/-- The items of an array that may be absent. -/
def items? : Option Toml.Value → Option (List Toml.Value)
  | none => some []
  | some v => v.array?

/-- The declarations of a document. -/
def Declarations.of? (v : Toml.Value) : Option Declarations := do
  match ← v.record? ["types", "symbols", "extension_methods"] 0 with
  | [types, symbols, methods] =>
    return ⟨← (← items? types).mapM TypeEntry.of?, ← (← items? symbols).mapM SymbolEntry.of?,
      ← (← items? methods).mapM MethodEntry.of?⟩
  | _ => none

/-- The model with the declarations added: first the types, then the methods, then the symbols. -/
def declare (m : Model) (d : Declarations) : Except ModelError Model :=
  let typed := d.types.foldl
    (fun m t => m.declareType (QualifiedName.parse t.name) (t.interfaces.map QualifiedName.parse)) m
  let extended := d.methods.foldl
    (fun m e => m.registerExtension
      ⟨e.name, QualifiedName.parse e.container, e.returns.map QualifiedName.parse⟩) typed
  d.symbols.foldlM (fun m e => e.toSymbol.map (m.bind e.expr)) extended

/-- The model that a file declares on top of the base class library. -/
def ofToml (document : String) : Except ModelError Model :=
  match (Toml.parse? document).bind Declarations.of? with
  | some declarations => baseLibrary.declare declarations
  | none => .error .invalidFile

end Model

end ViewLint
