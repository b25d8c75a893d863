import ViewLint.Files.Display
import ViewLint.Files.Exclusion
import ViewLint.Project.Result
import ViewLint.Report.Table

/-!
# Reports for readers

## Main definitions

* `Report.header`, `Report.exclusions`, `Report.statistics`, `Report.findings`,
  `Report.fileErrors`: the parts of a report.
* `Report.check`: the report of a check.
* `Report.fix`: the report of a fixing run.
-/

namespace ViewLint.Report

/-- Lines as a text. -/
def ofLines (lines : List String) : String :=
  String.join (lines.map (· ++ "\n"))

/-- The folders that are not searched. -/
def exclusions (folders : List String) : String :=
  let always := "Always skipped: " ++ String.intercalate ", " Files.defaultFolders
  let more := if folders.isEmpty then [] else ["Excluding: " ++ String.intercalate ", " folders]
  ofLines (always :: more)

/-- The banner of a report. -/
def header : String :=
  ofLines [
    "",
    "╔════════════════════════════════════════╗",
    "║  Dictionary View Analysis Results      ║",
    "╚════════════════════════════════════════╝",
    ""]

/-- How much source was looked at. -/
def statistics (s : CheckSummary) : String :=
  let scanned := "Scanned " ++ toString s.totalFiles ++ " C# files, " ++ toString s.totalLines ++
    " lines"
  let skipped :=
    if 0 < s.skippedGenerated then
      ["Skipped " ++ toString s.skippedGenerated ++ " generated files"]
    else []
  ofLines (scanned :: skipped ++ [""])

/-- The place of a finding. -/
def location (f : Finding) : String :=
  Files.displayPath f.file ++ ":" ++ toString f.line ++ ":" ++ toString f.column

/-- Findings under a title, one in each row. -/
def findings (title : String) (fs : List Finding) : String :=
  if fs.isEmpty then ""
  else
    let table : Table :=
      ⟨["Location", "Rule", "Suggestion", "Severity"],
        fs.map fun f => [location f, f.ruleId, f.message, f.severity]⟩
    ofLines ["", title, table.render]

/-- The files that could not be read. -/
def fileErrors (errors : List FileError) : String :=
  if errors.isEmpty then ""
  else
    let table : Table :=
      ⟨["File", "Reason"], errors.map fun e => [Files.displayPath e.file, e.error]⟩
    ofLines ["", "Unreadable Files", table.render]

/-- The report of a check. -/
def check (r : CheckResult) : String :=
  header ++ statistics r.summary ++
    if r.findings.isEmpty && r.fileErrors.isEmpty then ofLines ["[OK] No issues found."]
    else
      findings "Dictionary Views" r.findings ++ fileErrors r.fileErrors ++
        ofLines ["", "Found " ++ toString r.findings.length ++ " issue(s)."]

/-- The line for a refused fix. -/
def rejection (f : FailedFix) : String :=
  "  rejected " ++ location f.finding ++ ": " ++ f.error

/-- The report of a fixing run. -/
def fix (r : FixReport) (dryRun : Bool) : String :=
  let banner := if dryRun then "[DRY-RUN] " ++ r.title ++ ":" else r.title ++ "..."
  let body :=
    if r.files.isEmpty then ["  Nothing to fix in " ++ toString r.totalFiles ++ " file(s)."]
    else
      let table : Table :=
        ⟨["File", "Fixes", "Rejected"],
          r.files.map fun f =>
            [Files.displayPath f.file, toString f.applied, toString f.failed.length]⟩
      table.render :: (r.files.flatMap (·.failed)).map rejection
  let touched := (r.files.filter fun f => 0 < f.applied).length
  let verb := if dryRun then "Would apply" else "Applied"
  ofLines (["", banner] ++ body) ++ fileErrors r.fileErrors ++
    ofLines ["", verb ++ " " ++ toString r.totalFixes ++ " fix(es) in " ++ toString touched ++
      " file(s)."]

end ViewLint.Report
