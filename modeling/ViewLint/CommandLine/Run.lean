import ViewLint.CommandLine.Help
import ViewLint.Model.File
import ViewLint.Project.Linter
import ViewLint.Report.Text

/-!
# Running a request

A request is answered with a text and an exit code. Checking ends with `1` if there are findings,
and fixing if a file could not be read or a fix was refused.

## Main definitions

* `SetupError`: why there is no model to check with.
* `setUp`: the linter for the options of a command.
* `Reply`: the answer to a request.
* `run`: the answer to arguments.
-/

namespace ViewLint.CommandLine

/-- Why there is no model to check with. -/
inductive SetupError where
  | unreadableModel (path : String) (problem : FileProblem)
  | wrongModel (path : String) (error : ModelError)
deriving DecidableEq, Repr

/-- The text of a setup error. -/
def SetupError.message : SetupError → String
  | .unreadableModel path problem =>
    "failed to set up the analyzer: failed to read model file " ++ path ++ ": " ++ problem.message
  | .wrongModel path error =>
    "failed to set up the analyzer: failed to load model file " ++ path ++ ": " ++ error.message

/-- The model in a file. -/
def loadModel (fs : FileSystem) (path : String) : Except SetupError Model :=
  match fs.readText path with
  | .error problem => .error (.unreadableModel path problem)
  | .ok text =>
    match Model.ofToml text with
    | .error e => .error (.wrongModel path e)
    | .ok model => .ok model

/-- The linter for the options of a command. The configuration is that of the first path. -/
def setUp (fs : FileSystem) (o : Options) : Except SetupError Linter := do
  let config := Config.load fs (o.paths.headD ".")
  let model ←
    match o.model? <|> config.modelPath? with
    | some path => loadModel fs path
    | none => .ok Model.baseLibrary
  return (Linter.ofConfig config model).exclude o.excludeFolders

/-- The answer to a request. -/
structure Reply where
  /-- The exit code. -/
  code : Nat
  /-- The text that is printed. -/
  output : String
  /-- The file system afterwards. -/
  files : FileSystem
  /-- The paths of the files that were written. -/
  written : List String := []

/-- The code `1` for trouble, and `0` without it. -/
def exitCode (trouble : Bool) : Nat :=
  if trouble then 1 else 0

/-- The answer to a check. -/
def runCheck (fs : FileSystem) (o : Options) : Except SetupError Reply := do
  let linter ← setUp fs o
  let result := linter.checkPaths fs o.paths
  let output :=
    if o.json then result.toJson.pretty ++ "\n"
    else (if o.verbose then Report.exclusions linter.excludeFolders else "") ++ Report.check result
  return { code := exitCode (!result.findings.isEmpty), output, files := fs }

/-- The answer to a fixing run. -/
def runFix (fs : FileSystem) (o : Options) : Except SetupError Reply := do
  let linter ← setUp fs o
  let (report, files) := linter.fixPaths fs o.paths o.dryRun
  let output := if o.json then report.toJson.pretty ++ "\n" else Report.fix report o.dryRun
  let written := (report.files.filter (·.written)).map (·.file)
  return { code := exitCode (!report.isClean), output, files, written }

/-- The answer to a request. -/
def Request.answer (fs : FileSystem) : Request → Except SetupError Reply
  | .run .check o => runCheck fs o
  | .run .fix o => runFix fs o
  | .help topic => .ok { code := 0, output := topic.text, files := fs }
  | .version => .ok { code := 0, output := versionText, files := fs }

/-- The exit code for arguments that are refused. -/
def usageCode : Nat :=
  2

/-- The answer to arguments. Arguments that are refused print nothing. -/
def run (fs : FileSystem) (arguments : List String) : Except SetupError Reply :=
  match Request.parse arguments with
  | .ok request => request.answer fs
  | .error _ => .ok { code := usageCode, output := "", files := fs }

end ViewLint.CommandLine
