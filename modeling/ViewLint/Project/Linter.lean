import ViewLint.Config.File
import ViewLint.Files.Search
import ViewLint.Pieces
import ViewLint.Project.Result
import ViewLint.Source.Generated
import ViewLint.Source.Lint
import ViewLint.Text.Position

/-!
# Checking and fixing files

A linter is an analyzer with the options of a project. It takes the files below some roots in
chunks. A file of a chunk is read, and passed over if it is generated and the options say so. A file
fails only if its text cannot be read: a text always has a tree, so a file that was read and not
passed over is analyzed.

## Main definitions

* `Linter`: the analyzer, the options and the excluded folders.
* `Linter.checkPaths`: checks the files below some roots.
* `Linter.fixPaths`: fixes them, and gives the report and the new file system.
-/

namespace ViewLint

/-- An analyzer with the options of a project. -/
structure Linter where
  config : Config
  /-- The folders that are not searched, besides the standard ones. -/
  excludeFolders : List String
  analyzer : Analyzer

/-- The linter with the options and the model of a project. -/
def Linter.ofConfig (config : Config) (model : Model) : Linter where
  config := config
  excludeFolders := config.excludeFolders
  analyzer := ⟨Settings.ofConfig config, model⟩

/-- The linter that also excludes some folders. -/
def Linter.exclude (l : Linter) (folders : List String) : Linter :=
  { l with excludeFolders := l.excludeFolders ++ folders }

/-- The number of files that are taken at once. -/
def chunkSize : Nat :=
  500

/-- What became of a file. It fails only where its text cannot be read: the tree of a text can
always be made. -/
inductive FileOutcome (α : Type) where
  | done (value : α)
  | skippedGenerated
  | failed (error : FileError)

namespace Linter

/-- The files below some roots. -/
def collectFiles (l : Linter) (fs : FileSystem) (roots : List String) : List String :=
  fs.collectFiles l.excludeFolders roots

/-- The source of a file. -/
def loadSource (l : Linter) (fs : FileSystem) (file : String) : FileOutcome String :=
  match fs.readText file with
  | .error problem => .failed ⟨file, problem.message⟩
  | .ok source =>
    if !l.config.analyzeGenerated && Source.isGenerated file source then .skippedGenerated
    else .done source

/-! ### Checking -/

/-- Checks a file: its findings and the number of its lines. -/
def checkFile (l : Linter) (fs : FileSystem) (file : String) :
    FileOutcome (List Finding × Nat) :=
  match l.loadSource fs file with
  | .failed e => .failed e
  | .skippedGenerated => .skippedGenerated
  | .done source => .done (l.analyzer.checkSource source file, Text.countLines source)

/-- The result with what became of one more file. -/
def addCheck (r : CheckResult) : FileOutcome (List Finding × Nat) → CheckResult
  | .done (findings, lines) =>
    { r with
      findings := r.findings ++ findings
      summary := { r.summary with totalLines := r.summary.totalLines + lines } }
  | .skippedGenerated =>
    { r with summary := { r.summary with skippedGenerated := r.summary.skippedGenerated + 1 } }
  | .failed e => { r with fileErrors := r.fileErrors ++ [e] }

/-- Checks the files below some roots. -/
def checkPaths (l : Linter) (fs : FileSystem) (roots : List String) : CheckResult :=
  let files := l.collectFiles fs roots
  let start : CheckResult := { summary := { totalFiles := files.length } }
  let result := (piecesOf chunkSize files).foldl
    (fun r chunk => (chunk.map (l.checkFile fs)).foldl addCheck r) start
  { result with
    summary := { result.summary with
      findingsCount := result.findings.length
      fileErrorsCount := result.fileErrors.length } }

/-! ### Fixing -/

/-- Fixes a file: its fixes, if there are any or some were refused, and the file system with the
new content. In a dry run nothing is written. -/
def fixFile (l : Linter) (dryRun : Bool) (fs : FileSystem) (file : String) :
    FileOutcome (Option FileFix) × FileSystem :=
  match l.loadSource fs file with
  | .failed e => (.failed e, fs)
  | .skippedGenerated => (.skippedGenerated, fs)
  | .done source =>
    let outcome := l.analyzer.fixSource source file
    if !outcome.isChanged && outcome.failed.isEmpty then (.done none, fs)
    else
      let written := outcome.isChanged && !dryRun
      let fix : FileFix := ⟨file, outcome.applied.length, outcome.failed, written⟩
      (.done (some fix), if written then fs.write file outcome.source else fs)

/-- The report with what became of one more file. -/
def addFix (r : FixReport) : FileOutcome (Option FileFix) → FixReport
  | .done (some fix) =>
    { r with files := r.files ++ [fix], totalFixes := r.totalFixes + fix.applied }
  | .done none => r
  | .skippedGenerated => r
  | .failed e => { r with fileErrors := r.fileErrors ++ [e] }

/-- The report and the file system after one more file. -/
def fixNext (l : Linter) (dryRun : Bool) (state : FixReport × FileSystem) (file : String) :
    FixReport × FileSystem :=
  let (outcome, fs) := l.fixFile dryRun state.2 file
  (addFix state.1 outcome, fs)

/-- Fixes the files below some roots. -/
def fixPaths (l : Linter) (fs : FileSystem) (roots : List String) (dryRun : Bool) :
    FixReport × FileSystem :=
  let files := l.collectFiles fs roots
  let start : FixReport := { title := fixTitle, totalFiles := files.length }
  (piecesOf chunkSize files).foldl (fun state chunk => chunk.foldl (l.fixNext dryRun) state)
    (start, fs)

end Linter

end ViewLint
