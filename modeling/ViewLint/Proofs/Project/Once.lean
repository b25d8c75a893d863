import ViewLint.Proofs.Files.Spelling
import ViewLint.Proofs.Finding.Separation
import ViewLint.Proofs.Project.Fix

/-!
# Processing files once

A run over many files takes the collected files one by one. A file is taken twice only if it is
collected with a dot in front of its path and without it. If the roots are spelled alike, this does
not happen: no finding is reported twice, and every file has at most one entry in the report of the
fixes.

## Main results

* `Linter.files_foldl_fixNext`: a run adds at most one entry for each file to a report.
* `Linter.processed_once`: when no file is processed twice.
* `Linter.collectFiles_dotted`: a dot in front of one of two roots makes a file be processed twice.
-/

namespace ViewLint.Linter

open FileOutcome
open ViewLint.Path (bare components)

/-- Fixing a file adds at most one entry to a report, and it is for the file. -/
theorem files_fixNext (l : Linter) (dryRun : Bool) (state : FixReport × FileSystem)
    (file : String) :
    ∃ fixes, (l.fixNext dryRun state file).1.files = state.1.files ++ fixes ∧
      (fixes.map (·.file)).Sublist [file] := by
  have hadd := congrArg FixReport.files (foldl_addFix state.1 [(l.fixFile dryRun state.2 file).1])
  refine ⟨_, hadd, ?_⟩
  cases hfix : (l.fixFile dryRun state.2 file).1.fix? with
  | none =>
    rw [List.filterMap_cons_none hfix]
    exact List.nil_sublist _
  | some fix =>
    obtain ⟨source, -, -, rfl⟩ := fix?_fixFile_eq_some_iff.mp hfix
    rw [List.filterMap_cons_some hfix]
    exact List.Sublist.refl _

/-- A run over files adds at most one entry for each file to a report. -/
theorem files_foldl_fixNext (l : Linter) (dryRun : Bool) (state : FixReport × FileSystem)
    (files : List String) :
    ∃ fixes, (files.foldl (l.fixNext dryRun) state).1.files = state.1.files ++ fixes ∧
      (fixes.map (·.file)).Sublist files := by
  induction files generalizing state with
  | nil => exact ⟨[], (List.append_nil _).symm, List.Sublist.refl _⟩
  | cons file files ih =>
    obtain ⟨first, hfirst, hfile⟩ := l.files_fixNext dryRun state file
    obtain ⟨fixes, hfixes, hfiles⟩ := ih (l.fixNext dryRun state file)
    refine ⟨first ++ fixes, ?_, ?_⟩
    · rw [List.foldl_cons, hfixes, hfirst, List.append_assoc]
    · rw [List.map_append]
      exact hfile.append hfiles

/-- The entries of the report of a run are for some of the collected files, in their order. -/
theorem sublist_files_fixPaths (l : Linter) (fs : FileSystem) (roots : List String)
    (dryRun : Bool) :
    ((l.fixPaths fs roots dryRun).1.files.map (·.file)).Sublist (l.collectFiles fs roots) := by
  rw [fixPaths, foldl_piecesOf]
  obtain ⟨fixes, hfixes, hsublist⟩ := l.files_foldl_fixNext dryRun
    ({ title := fixTitle, totalFiles := (l.collectFiles fs roots).length }, fs)
    (l.collectFiles fs roots)
  rw [hfixes]
  exact hsublist

/-- The findings of a file are all for this file, and have different spans if its tree is solid. -/
theorem pairwise_span_ne_checkSource (l : Linter) {fs : FileSystem} {source file : String}
    (hsource : fs.readText file = .ok source) :
    (l.analyzer.checkSource source file).Pairwise fun f g => f.file = g.file ∧
      ∀ source, fs.readText f.file = .ok source →
        (∀ n ∈ (Tree.parse source).nodes, n.Solid) → f.span ≠ g.span := by
  have hof {f : Finding} (hf : f ∈ l.analyzer.checkSource source file) : f.file = file :=
    Analyzer.file_of_mem_detect hf
  have hspans : (l.analyzer.checkSource source file).Pairwise fun f g =>
      (∀ n ∈ (Tree.parse source).nodes, n.Solid) → f.span ≠ g.span := by
    by_cases hsolid : ∀ n ∈ (Tree.parse source).nodes, n.Solid
    · refine (l.analyzer.pairwise_precedes_detect file (Tree.laidOut_parse source) hsolid).imp ?_
      exact fun hprecedes _ => hprecedes.span_ne
    · exact List.pairwise_of_forall fun f g h => absurd h hsolid
  refine hspans.imp_of_mem fun hf hg hne => ⟨(hof hf).trans (hof hg).symm, ?_⟩
  intro source' hsource' hsolid
  rw [hof hf, hsource] at hsource'
  cases hsource'
  exact hne hsolid

/-- **Files are processed once.** Every source file of a root is collected. Of two collected files
with the same components, dots aside, the first is the second with a dot in front. If all roots are
spelled alike, no two collected files have the same components, dots aside. Then no two findings are
reported for two spellings of one file, those of a file with a solid tree have different spans, and
no two entries of the report of fixes are for one file. -/
theorem processed_once (l : Linter) (fs : FileSystem) (roots : List String) :
    (∀ root ∈ roots, ∀ path ∈ fs.sourceFiles l.excludeFolders root,
      ∃ file ∈ l.collectFiles fs roots, components file = components path) ∧
    ((l.collectFiles fs roots).Pairwise fun a b =>
      bare a = bare b → components a = .current :: components b) ∧
    (Path.SpelledAlike roots →
      ((l.collectFiles fs roots).Pairwise fun a b => bare a ≠ bare b) ∧
      ((l.checkPaths fs roots).findings.Pairwise fun f g => bare f.file = bare g.file →
        f.file = g.file ∧ ∀ source, fs.readText f.file = .ok source →
          (∀ n ∈ (Tree.parse source).nodes, n.Solid) → f.span ≠ g.span) ∧
      ∀ dryRun, ((l.fixPaths fs roots dryRun).1.files.map (·.file)).Pairwise fun a b =>
        bare a ≠ bare b) := by
  refine ⟨fun root hroot path => FileSystem.exists_mem_collectFiles hroot,
    fs.pairwise_bare_collectFiles l.excludeFolders roots, fun halike => ?_⟩
  have hfiles : (l.collectFiles fs roots).Pairwise fun a b => bare a ≠ bare b :=
    fs.pairwise_bare_ne_collectFiles l.excludeFolders halike
  refine ⟨hfiles, ?_, fun dryRun => hfiles.sublist (l.sublist_files_fixPaths fs roots dryRun)⟩
  rw [checkPaths_eq]
  refine pairwise_flatMap_done (fun file source hsource => ?_) (hfiles.imp fun hne => ?_)
  · refine (l.pairwise_span_ne_checkSource hsource).imp ?_
    exact fun h _ => h
  · rintro f g rfl rfl heq
    exact absurd heq hne

/-- Of two roots with a dot in front, one is a file inside the other. It is collected once. -/
theorem processed_once_nested :
    Path.SpelledAlike ["./A.cs", "."] ∧
      (∃ file ∈ ofDictionary.collectFiles twoSources ["./A.cs", "."],
        components file = [.current, .name "A.cs"]) ∧
      (ofDictionary.collectFiles twoSources ["./A.cs", "."]).Pairwise fun a b =>
        bare a ≠ bare b := by
  have halike : Path.SpelledAlike ["./A.cs", "."] := .inr (by decide)
  obtain ⟨hall, -, honce⟩ := ofDictionary.processed_once twoSources ["./A.cs", "."]
  exact ⟨halike, hall "./A.cs" (by decide) "./A.cs" (by decide +kernel), (honce halike).1⟩

/-- **A dot makes a difference.** A file that is named twice, once with a dot in front, is collected
twice, and its finding is reported twice. -/
theorem collectFiles_dotted :
    ofDictionary.collectFiles twoSources ["./A.cs", "A.cs"] = ["./A.cs", "A.cs"] ∧
      bare "./A.cs" = bare "A.cs" ∧ twoSources.resolve "./A.cs" = twoSources.resolve "A.cs" ∧
      ∃ span, (ofDictionary.checkPaths twoSources ["./A.cs", "A.cs"]).findings.map (·.span) =
        [span, span] := by
  have hfiles : ofDictionary.collectFiles twoSources ["./A.cs", "A.cs"] = ["./A.cs", "A.cs"] :=
    twoSources.collectFiles_eq [] (List.cons_ne_nil _ _) (by decide +kernel) (by decide) (by decide)
  refine ⟨hfiles, by decide, rfl, ⟨0, 18⟩, ?_⟩
  rw [checkPaths_eq, hfiles]
  decide +kernel

end ViewLint.Linter
