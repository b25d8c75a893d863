/-!
# Arguments

The first argument names a command, and the others are its options and paths. They are read from
left to right, and the first one that is wrong or asks for help decides.

## Main definitions

* `Request`: what the arguments ask for.
* `UsageError`: why arguments are refused.
* `Options.read`: the options of a command.
* `Request.parse`: the request of all arguments.
-/

namespace ViewLint.CommandLine

/-- The commands. -/
inductive Command where
  | check
  | fix
deriving DecidableEq, Repr

/-- What a command is told. -/
structure Options where
  /-- The files and directories to look at. -/
  paths : List String := []
  /-- The model file, in place of the configured one. -/
  model? : Option String := none
  excludeFolders : List String := []
  json : Bool := false
  verbose : Bool := false
  dryRun : Bool := false
deriving DecidableEq, Repr

/-- What help is about. -/
inductive Topic where
  | overview
  | command (command : Command)
  | help
deriving DecidableEq, Repr

/-- What the arguments ask for. -/
inductive Request where
  | run (command : Command) (options : Options)
  | help (topic : Topic)
  | version
deriving DecidableEq, Repr

/-- Why arguments are refused. -/
inductive UsageError where
  | missingCommand
  | unknownCommand (word : String)
  | unknownOption (word : String)
  | missingValue (option : String)
  | emptyValue (name : String)
  | unexpectedValue (option : String)
  | repeatedOption (option : String)
deriving DecidableEq, Repr

/-- The text of a refusal. -/
def UsageError.message : UsageError → String
  | .missingCommand => "a command is required"
  | .unknownCommand word => "unknown command '" ++ word ++ "'"
  | .unknownOption word => "unexpected argument '" ++ word ++ "'"
  | .missingValue option => "a value is required for '" ++ option ++ "'"
  | .emptyValue name => "a value is required for '" ++ name ++ "', but it is empty"
  | .unexpectedValue option => "unexpected value for '" ++ option ++ "'"
  | .repeatedOption option => "the argument '" ++ option ++ "' cannot be used multiple times"

/-- The command with a name. -/
def Command.ofWord? : String → Option Command
  | "check" => some .check
  | "fix" => some .fix
  | _ => none

/-! ### Options -/

/-- Options without a value. -/
inductive Flag where
  | json
  | verbose
  | dryRun
  | help
deriving DecidableEq, Repr

/-- Options with a value. -/
inductive Setting where
  | model
  | excludeFolder
deriving DecidableEq, Repr

/-- The name of a setting. -/
def Setting.name : Setting → String
  | .model => "--model"
  | .excludeFolder => "--exclude-folder"

/-- An option of either sort. -/
inductive Switch where
  | flag (flag : Flag)
  | setting (setting : Setting)
deriving DecidableEq, Repr

/-- The option of a command with a long name. Only fixing has a dry run. -/
def Switch.ofName? (command : Command) : String → Option Switch
  | "model" => some (.setting .model)
  | "exclude-folder" => some (.setting .excludeFolder)
  | "exclude" => some (.setting .excludeFolder)
  | "json" => some (.flag .json)
  | "verbose" => some (.flag .verbose)
  | "help" => some (.flag .help)
  | "dry-run" => if command = .fix then some (.flag .dryRun) else none
  | _ => none

/-- The option with a letter. -/
def Switch.ofLetter? : Char → Option Switch
  | 'm' => some (.setting .model)
  | 'v' => some (.flag .verbose)
  | 'h' => some (.flag .help)
  | _ => none

/-- What ends the reading of options early. -/
inductive Stop where
  | usage (error : UsageError)
  | help
deriving DecidableEq, Repr

namespace Options

/-- Sets a flag, which can be done once. -/
def setFlag (o : Options) : Flag → Except Stop Options
  | .json => if o.json then repeated "--json" else .ok { o with json := true }
  | .verbose => if o.verbose then repeated "--verbose" else .ok { o with verbose := true }
  | .dryRun => if o.dryRun then repeated "--dry-run" else .ok { o with dryRun := true }
  | .help => .error .help
where
  repeated (name : String) : Except Stop Options :=
    .error (.usage (.repeatedOption name))

/-- Gives a setting a value. There is one model, and its path is not empty; there can be any number
of excluded folders. -/
def setValue (o : Options) (s : Setting) (value : String) : Except Stop Options :=
  match s with
  | .model =>
    if o.model?.isSome then .error (.usage (.repeatedOption s.name))
    else if value = "" then .error (.usage (.emptyValue s.name))
    else .ok { o with model? := some value }
  | .excludeFolder => .ok { o with excludeFolders := o.excludeFolders ++ [value] }

/-- Adds a path, which is not empty. -/
def addPath (o : Options) (path : String) : Except Stop Options :=
  if path = "" then .error (.usage (.emptyValue "[PATHS]"))
  else .ok { o with paths := o.paths ++ [path] }

end Options

/-- A text up to its first equals sign, and what follows the sign. -/
def splitEquals : List Char → List Char × Option (List Char)
  | [] => ([], none)
  | c :: rest =>
    if c == '=' then ([], some rest)
    else
      let (name, value) := splitEquals rest
      (c :: name, value)

/-- The options that have been read. -/
structure Reading where
  options : Options := {}
  /-- The setting whose value is the next argument. -/
  awaiting? : Option Setting := none
  /-- Whether all further arguments are paths. -/
  literal : Bool := false
deriving DecidableEq, Repr

namespace Reading

/-- The reading with other options, when no value is awaited. -/
def withOptions (r : Reading) (o : Options) : Reading :=
  { r with options := o, awaiting? := none }

/-- Reads an option by its long name, with the value that is attached to it. -/
def long (command : Command) (r : Reading) (text : List Char) : Except Stop Reading :=
  let (name, value?) := splitEquals text
  match Switch.ofName? command (String.ofList name), value? with
  | none, _ => .error (.usage (.unknownOption ("--" ++ String.ofList name)))
  | some (.flag f), none => (r.options.setFlag f).map r.withOptions
  | some (.flag _), some _ => .error (.usage (.unexpectedValue ("--" ++ String.ofList name)))
  | some (.setting s), some value =>
    (r.options.setValue s (String.ofList value)).map r.withOptions
  | some (.setting s), none => .ok { r with awaiting? := some s }

/-- Reads options by their letters. A setting takes the rest of the letters as its value, without an
equals sign before it. -/
def letters (r : Reading) : List Char → Except Stop Reading
  | [] => .ok r
  | c :: rest =>
    match Switch.ofLetter? c with
    | none => .error (.usage (.unknownOption (String.ofList ['-', c])))
    | some (.flag f) =>
      match r.options.setFlag f with
      | .ok o => (r.withOptions o).letters rest
      | .error stop => .error stop
    | some (.setting s) =>
      match rest with
      | [] => .ok { r with awaiting? := some s }
      | '=' :: value => (r.options.setValue s (String.ofList value)).map r.withOptions
      | value => (r.options.setValue s (String.ofList value)).map r.withOptions

/-- Whether an argument is an option or ends the options. A hyphen alone is a value. -/
def isOption : List Char → Bool
  | '-' :: _ :: _ => true
  | _ => false

/-- Reads one argument. -/
def step (command : Command) (r : Reading) (argument : String) : Except Stop Reading :=
  let text := argument.toList
  if r.literal then (r.options.addPath argument).map r.withOptions
  else if isOption text then
    match r.awaiting?, text with
    | some s, _ => .error (.usage (.missingValue s.name))
    | none, ['-', '-'] => .ok { r with literal := true }
    | none, '-' :: '-' :: name => r.long command name
    | none, _ => r.letters text.tail
  else
    match r.awaiting? with
    | some s => (r.options.setValue s argument).map r.withOptions
    | none => (r.options.addPath argument).map r.withOptions

/-- The options, unless a value is still awaited. -/
def finish (r : Reading) : Except Stop Options :=
  match r.awaiting? with
  | some s => .error (.usage (.missingValue s.name))
  | none => .ok r.options

end Reading

/-- The options of a command. -/
def Options.read (command : Command) (arguments : List String) : Except Stop Options := do
  (← arguments.foldlM (Reading.step command) {}).finish

/-! ### Requests -/

namespace Request

/-- The request of a command with its arguments. -/
def ofCommand (command : Command) (arguments : List String) : Except UsageError Request :=
  match Options.read command arguments with
  | .ok options => .ok (.run command options)
  | .error .help => .ok (.help (.command command))
  | .error (.usage e) => .error e

/-- The request for help on a topic. -/
def ofTopic : List String → Except UsageError Request
  | [] => .ok (.help .overview)
  | [word] =>
    match Command.ofWord? word with
    | some command => .ok (.help (.command command))
    | none => if word = "help" then .ok (.help .help) else .error (.unknownCommand word)
  | first :: second :: _ =>
    if (Command.ofWord? first).isSome || first == "help" then .error (.unknownCommand second)
    else .error (.unknownCommand first)

/-- The request of all arguments. -/
def parse : List String → Except UsageError Request
  | [] => .error .missingCommand
  | first :: rest =>
    match Command.ofWord? first with
    | some command => ofCommand command rest
    | none =>
      if first = "help" then ofTopic rest
      else
        match first.toList with
        | ['-', '-'] =>
          match rest with
          | [] => .error .missingCommand
          | word :: _ => .error (.unknownCommand word)
        | '-' :: 'h' :: _ => .ok (.help .overview)
        | '-' :: 'V' :: _ => .ok .version
        | '-' :: _ :: _ =>
          if first = "--help" then .ok (.help .overview)
          else if first = "--version" then .ok .version
          else .error (.unknownOption first)
        | _ => .error (.unknownCommand first)

end Request

end ViewLint.CommandLine
