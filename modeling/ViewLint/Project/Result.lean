import ViewLint.Finding.Json
import ViewLint.Fix.All

/-!
# Results of a run over files

## Main definitions

* `FileError`: a file that could not be read.
* `CheckResult`: what a check found.
* `FixReport`: what a fixing run did.
* `CheckResult.toJson`, `FixReport.toJson`: the results as JSON.
-/

namespace ViewLint

/-- A file that could not be read, and why. -/
structure FileError where
  file : String
  error : String
deriving DecidableEq, Repr, Inhabited

/-- The numbers of a check. -/
structure CheckSummary where
  /-- The files that were looked at, whatever became of them. -/
  totalFiles : Nat := 0
  /-- The generated files that were passed over. -/
  skippedGenerated : Nat := 0
  findingsCount : Nat := 0
  fileErrorsCount : Nat := 0
  /-- The lines of the files that were analyzed. -/
  totalLines : Nat := 0
deriving DecidableEq, Repr, Inhabited

/-- What a check found. -/
structure CheckResult where
  findings : List Finding := []
  fileErrors : List FileError := []
  summary : CheckSummary := {}
deriving DecidableEq, Repr, Inhabited

/-- The fixes of one file. -/
structure FileFix where
  file : String
  /-- The number of fixes that were applied. -/
  applied : Nat
  failed : List FailedFix
  /-- Whether the file was written back. -/
  written : Bool
deriving DecidableEq, Repr, Inhabited

/-- What a fixing run did. -/
structure FixReport where
  title : String
  /-- The files with fixes that were applied or refused. -/
  files : List FileFix := []
  fileErrors : List FileError := []
  totalFiles : Nat := 0
  totalFixes : Nat := 0
deriving DecidableEq, Repr, Inhabited

/-- Whether every file was read and no fix was refused. -/
def FixReport.isClean (r : FixReport) : Bool :=
  r.fileErrors.isEmpty && r.files.all (·.failed.isEmpty)

/-- The title of the fix. -/
def fixTitle : String :=
  "Use built-in dictionary iterators"

/-! ### JSON -/

/-- The value that an unreadable file is written as. -/
def FileError.toJson (e : FileError) : Json.Value :=
  .object [("file", .string e.file), ("error", .string e.error)]

/-- The value that the numbers of a check are written as. -/
def CheckSummary.toJson (s : CheckSummary) : Json.Value :=
  .object [
    ("total_files", .natural s.totalFiles),
    ("skipped_generated", .natural s.skippedGenerated),
    ("findings_count", .natural s.findingsCount),
    ("file_errors_count", .natural s.fileErrorsCount),
    ("total_lines_analyzed", .natural s.totalLines) ]

/-- The value that the result of a check is written as. -/
def CheckResult.toJson (r : CheckResult) : Json.Value :=
  .object [
    ("findings", .array (r.findings.map Finding.toJson)),
    ("file_errors", .array (r.fileErrors.map FileError.toJson)),
    ("analysis_summary", r.summary.toJson) ]

/-- The value that a refused fix is written as. -/
def FailedFix.toJson (f : FailedFix) : Json.Value :=
  .object [("finding", f.finding.toJson), ("error", .string f.error)]

/-- The value that the fixes of a file are written as. -/
def FileFix.toJson (f : FileFix) : Json.Value :=
  .object [
    ("file", .string f.file),
    ("fixes_applied", .natural f.applied),
    ("failed", .array (f.failed.map FailedFix.toJson)),
    ("written", .boolean f.written) ]

/-- The value that the report of a fixing run is written as. -/
def FixReport.toJson (r : FixReport) : Json.Value :=
  .object [
    ("title", .string r.title),
    ("files", .array (r.files.map FileFix.toJson)),
    ("file_errors", .array (r.fileErrors.map FileError.toJson)),
    ("total_files", .natural r.totalFiles),
    ("total_fixes", .natural r.totalFixes) ]

end ViewLint
