import Mathlib.Algebra.GroupWithZero.Nat
import ViewLint.Project.Linter
import ViewLint.Proofs.Files.Order
import ViewLint.Proofs.Finding.Order
import ViewLint.Proofs.Grammar.Parse

/-!
# Checking many files

A check takes the files in chunks and adds up what became of each. Its result is that of looking at
the files one by one: the chunks leave no trace, every file is counted once, and the findings stand
in the order of the files and, within a file, in the order of their starts.

## Main definitions

* `FileOutcome.done?`, `FileOutcome.error?`, `FileOutcome.isSkipped`: what became of a file.

## Main results

* `FileOutcome.length_eq_add`: every file is analyzed, skipped or failed.
* `Linter.error?_checkFile_eq_some_iff`: a file fails exactly where its text cannot be read.
* `Linter.foldl_addCheck`: what many outcomes add to a result.
* `Linter.pairwise_findings`: the order of the findings.
* `Linter.checkPaths_eq_perFile`: the result of a check, from the outcomes of the files.
-/

namespace ViewLint

namespace FileOutcome

variable {α : Type}

/-- What was found out about a file that was analyzed. -/
def done? : FileOutcome α → Option α
  | .done value => some value
  | _ => none

/-- Why a file failed. -/
def error? : FileOutcome α → Option FileError
  | .failed error => some error
  | _ => none

/-- Whether the file was passed over. -/
def isSkipped : FileOutcome α → Bool
  | .skippedGenerated => true
  | _ => false

/-- Each outcome is of one of three sorts. -/
theorem length_eq_add (outcomes : List (FileOutcome α)) :
    outcomes.length = (outcomes.filterMap done?).length + outcomes.countP isSkipped +
      (outcomes.filterMap error?).length := by
  induction outcomes with
  | nil => rfl
  | cons outcome outcomes ih =>
    rw [List.filterMap_cons, List.countP_cons, List.filterMap_cons, List.length_cons, ih]
    cases outcome <;> simp only [done?, error?, isSkipped, List.length_cons] <;> grind

end FileOutcome

open FileOutcome

namespace Linter

variable {l : Linter} {fs : FileSystem} {file : String}

/-! ### One file -/

theorem readText_of_loadSource {source : String} (h : l.loadSource fs file = .done source) :
    fs.readText file = .ok source := by
  rw [loadSource] at h
  split at h
  next => cases h
  next text htext =>
    split at h
    next => cases h
    next =>
      cases h
      exact htext

/-- The findings of a file that was analyzed are those of its source. -/
theorem done?_checkFile {findings : List Finding} {lines : Nat}
    (h : (l.checkFile fs file).done? = some (findings, lines)) :
    ∃ source, fs.readText file = .ok source ∧ findings = l.analyzer.checkSource source file := by
  rw [checkFile] at h
  split at h
  next => cases h
  next => cases h
  next source hsource =>
    obtain ⟨rfl, -⟩ := Prod.mk.inj (Option.some.inj h)
    exact ⟨source, readText_of_loadSource hsource, rfl⟩

/-- A file fails exactly where its text cannot be read, and the error names the file and says
why. -/
theorem error?_checkFile_eq_some_iff {e : FileError} :
    (l.checkFile fs file).error? = some e ↔
      ∃ problem, fs.readText file = .error problem ∧ e = ⟨file, problem.message⟩ := by
  rw [checkFile, loadSource]
  cases fs.readText file with
  | error problem => simp [error?, eq_comm]
  | ok source =>
    dsimp only
    cases !l.config.analyzeGenerated && Source.isGenerated file source <;> simp [error?]

/-! ### Many files -/

/-- What many outcomes add to a result: the findings and the errors in their order, and the
numbers. -/
theorem foldl_addCheck (r : CheckResult) (outcomes : List (FileOutcome (List Finding × Nat))) :
    outcomes.foldl addCheck r =
      { findings := r.findings ++ (outcomes.filterMap done?).flatMap (·.1)
        fileErrors := r.fileErrors ++ outcomes.filterMap error?
        summary := { r.summary with
          skippedGenerated := r.summary.skippedGenerated + outcomes.countP isSkipped
          totalLines := r.summary.totalLines + ((outcomes.filterMap done?).map (·.2)).sum } } := by
  induction outcomes generalizing r with
  | nil => simp
  | cons outcome outcomes ih =>
    rw [List.foldl_cons, ih]
    cases outcome with
    | done value => simp [addCheck, done?, error?, isSkipped, List.filterMap_cons, Nat.add_assoc]
    | skippedGenerated =>
      simp [addCheck, done?, error?, isSkipped, List.filterMap_cons, List.countP_cons,
        Nat.add_assoc, Nat.add_comm 1]
    | failed error => simp [addCheck, done?, error?, isSkipped, List.filterMap_cons]

/-- What holds of the findings of every file, and of those of any two files, holds of the findings
of all. -/
theorem pairwise_flatMap_done {R : Finding → Finding → Prop} {files : List String}
    (hown : ∀ file source, fs.readText file = .ok source →
      (l.analyzer.checkSource source file).Pairwise R)
    (hfiles : files.Pairwise fun file file' => ∀ f g : Finding, f.file = file → g.file = file' →
      R f g) :
    ((files.filterMap fun file => (l.checkFile fs file).done?).flatMap (·.1)).Pairwise R := by
  rw [List.pairwise_flatMap, List.pairwise_filterMap]
  constructor
  · rintro ⟨findings, lines⟩ hmem
    obtain ⟨file, -, hfile⟩ := List.mem_filterMap.mp hmem
    obtain ⟨source, hsource, rfl⟩ := done?_checkFile hfile
    exact hown file source hsource
  · refine hfiles.imp fun {file file'} happly => ?_
    rintro ⟨findings, lines⟩ hfile ⟨findings', lines'⟩ hfile' f hf g hg
    obtain ⟨source, -, rfl⟩ := done?_checkFile hfile
    obtain ⟨source', -, rfl⟩ := done?_checkFile hfile'
    exact happly f g (Analyzer.file_of_mem_detect hf) (Analyzer.file_of_mem_detect hg)

/-- The findings of the analyzed files are ordered by file, and those of a file by their starts. -/
theorem pairwise_findings (l : Linter) (fs : FileSystem) {files : List String}
    (hfiles : files.Pairwise Path.Before) :
    ((files.filterMap fun file => (l.checkFile fs file).done?).flatMap (·.1)).Pairwise fun f g =>
      Path.Before f.file g.file ∨ f.file = g.file ∧ f.span.start ≤ g.span.start := by
  refine pairwise_flatMap_done (fun file source _ => ?_) (hfiles.imp fun hbefore => ?_)
  · have hstarts := l.analyzer.pairwise_start_detect file (Tree.laidOut_parse source)
    refine hstarts.imp_of_mem fun hf hg hle => .inr ⟨?_, hle⟩
    exact (Analyzer.file_of_mem_detect hf).trans (Analyzer.file_of_mem_detect hg).symm
  · rintro f g rfl rfl
    exact .inl hbefore

/-- The result of a check, from the outcomes of all files. -/
theorem checkPaths_eq (l : Linter) (fs : FileSystem) (roots : List String) :
    let files := l.collectFiles fs roots
    let analyzed := files.filterMap fun file => (l.checkFile fs file).done?
    let findings := analyzed.flatMap (·.1)
    let fileErrors := files.filterMap fun file => (l.checkFile fs file).error?
    l.checkPaths fs roots =
      { findings, fileErrors
        summary :=
          { totalFiles := files.length
            skippedGenerated := files.countP fun file => (l.checkFile fs file).isSkipped
            findingsCount := findings.length
            fileErrorsCount := fileErrors.length
            totalLines := (analyzed.map (·.2)).sum } } := by
  intro files analyzed findings fileErrors
  have hchunks (start : CheckResult) : (piecesOf chunkSize files).foldl
      (fun r chunk => (chunk.map (l.checkFile fs)).foldl addCheck r) start =
        (files.map (l.checkFile fs)).foldl addCheck start := by
    simp only [List.foldl_map, foldl_piecesOf]
  rw [checkPaths, hchunks, foldl_addCheck]
  simp [analyzed, findings, fileErrors, files, List.filterMap_map, List.countP_map,
    Function.comp_def]

/-- **A check of many files is the check of each.** Whatever the number of chunks, the findings and
the errors are those of the files in the order in which they are collected. Every file is counted
once, as analyzed, skipped or failed, and only the lines of analyzed files are counted. The findings
are ordered by file, and those of a file by their starts. -/
theorem checkPaths_eq_perFile (l : Linter) (fs : FileSystem) (roots : List String) :
    let files := l.collectFiles fs roots
    let analyzed := files.filterMap fun file => (l.checkFile fs file).done?
    let r := l.checkPaths fs roots
    r.findings = analyzed.flatMap (·.1) ∧
    r.fileErrors = files.filterMap (fun file => (l.checkFile fs file).error?) ∧
    r.summary.totalFiles = files.length ∧
    r.summary.skippedGenerated = files.countP (fun file => (l.checkFile fs file).isSkipped) ∧
    r.summary.totalFiles =
      analyzed.length + r.summary.skippedGenerated + r.summary.fileErrorsCount ∧
    r.summary.fileErrorsCount = r.fileErrors.length ∧
    r.summary.findingsCount = r.findings.length ∧
    r.summary.totalLines = (analyzed.map (·.2)).sum ∧
    r.findings.Pairwise fun f g =>
      Path.Before f.file g.file ∨ f.file = g.file ∧ f.span.start ≤ g.span.start := by
  intro files analyzed r
  have hcount : files.length = analyzed.length +
      files.countP (fun file => (l.checkFile fs file).isSkipped) +
        (files.filterMap fun file => (l.checkFile fs file).error?).length := by
    simpa [List.filterMap_map, List.countP_map, Function.comp_def]
      using length_eq_add (files.map (l.checkFile fs))
  have hordered := l.pairwise_findings fs (fs.collectFiles_pairwise l.excludeFolders roots)
  have hr := l.checkPaths_eq fs roots
  change r = _ at hr
  clear_value r
  subst hr
  exact ⟨rfl, rfl, rfl, rfl, hcount, rfl, rfl, rfl, hordered⟩

end Linter

end ViewLint
