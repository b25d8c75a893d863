import Mathlib.Algebra.GroupWithZero.Nat
import ViewLint.Proofs.Files.Write
import ViewLint.Proofs.Fix.Agreement
import ViewLint.Proofs.Project.Check

/-!
# Fixing many files

A run that fixes files reads each file after it has written those before. If no two of the files
stand at one place, it reads what was there at the start, so a dry run foretells what it reports.

## Main definitions

* `FileOutcome.fix?`: the entry of a file in the report.
* `FileFix.unwritten`, `FixReport.unwritten`: the report of a run that writes nothing.
* `Linter.revision?`: the new text of a file that is to be changed.
* `Linter.Rewritten`: some files have their new texts, and everything else is as it was.

## Main results

* `Linter.foldl_addFix`: what many outcomes add to a report.
* `Linter.Rewritten.fixFile`: a file that stands apart is read as at the start, and rewritten.
* `Linter.Rewritten.foldl_fixNext`: a run rewrites its files.
* `Linter.fixPaths_foretold`: a dry run foretells the run that writes.
-/

namespace ViewLint

/-- The entry of a file in the report. -/
def FileOutcome.fix? : FileOutcome (Option FileFix) → Option FileFix
  | .done fix => fix
  | _ => none

/-- The fixes of a file that was not written back. -/
def FileFix.unwritten (f : FileFix) : FileFix :=
  { f with written := false }

/-- The report of a run that wrote nothing. -/
def FixReport.unwritten (r : FixReport) : FixReport :=
  { r with files := r.files.map FileFix.unwritten }

theorem FixOutcome.isChanged_iff {outcome : FixOutcome} :
    outcome.isChanged = true ↔ 0 < outcome.applied.length := by
  simp [isChanged, List.length_pos_iff]

open FileOutcome

namespace Linter

variable {l : Linter} {fs fs' cur : FileSystem} {file text : String} {dryRun : Bool}

/-! ### One file -/

/-- The new text of a file that is to be changed. -/
def revision? (l : Linter) (fs : FileSystem) (file : String) : Option String :=
  match l.loadSource fs file with
  | .done source =>
    let outcome := l.analyzer.fixSource source file
    if outcome.isChanged then some outcome.source else none
  | _ => none

theorem loadSource_congr (h : fs.readText file = fs'.readText file) :
    l.loadSource fs file = l.loadSource fs' file := by
  rw [loadSource, loadSource, h]

theorem revision?_eq_some_iff :
    l.revision? fs file = some text ↔ ∃ source, l.loadSource fs file = .done source ∧
      (l.analyzer.fixSource source file).isChanged = true ∧
      (l.analyzer.fixSource source file).source = text := by
  rw [revision?]
  cases l.loadSource fs file <;> simp

/-- What is written depends on the new text of the file. -/
theorem fixFile_snd (l : Linter) (dryRun : Bool) (fs : FileSystem) (file : String) :
    (l.fixFile dryRun fs file).2 =
      if dryRun then fs else (l.revision? fs file).elim fs (fs.write file) := by
  rw [fixFile, revision?]
  cases l.loadSource fs file with
  | failed e => simp
  | skippedGenerated => simp
  | done source =>
    cases hchanged : (l.analyzer.fixSource source file).isChanged <;> cases dryRun <;>
      cases hfailed : (l.analyzer.fixSource source file).failed.isEmpty <;> simp [hchanged, hfailed]

/-- What is reported depends on the text of the file. -/
theorem fixFile_fst_congr (h : l.loadSource fs file = l.loadSource fs' file) :
    (l.fixFile dryRun fs file).1 = (l.fixFile dryRun fs' file).1 := by
  rw [fixFile, fixFile, h]
  cases l.loadSource fs' file with
  | failed e => rfl
  | skippedGenerated => rfl
  | done source =>
    dsimp only
    split <;> rfl

/-- The entry of a file in the report, from its source. -/
theorem fix?_fixFile_eq_some_iff {f : FileFix} :
    (l.fixFile dryRun fs file).1.fix? = some f ↔ ∃ source, l.loadSource fs file = .done source ∧
      let outcome := l.analyzer.fixSource source file
      (outcome.applied ≠ [] ∨ outcome.failed ≠ []) ∧
      f = ⟨file, outcome.applied.length, outcome.failed, outcome.isChanged && !dryRun⟩ := by
  rw [fixFile]
  cases l.loadSource fs file with
  | failed e => simp [fix?]
  | skippedGenerated => simp [fix?]
  | done source =>
    simp only [FileOutcome.done.injEq, exists_eq_left']
    generalize l.analyzer.fixSource source file = outcome
    have hnothing : (!outcome.isChanged && outcome.failed.isEmpty) = true ↔
        outcome.applied = [] ∧ outcome.failed = [] := by
      simp [FixOutcome.isChanged]
    by_cases h : outcome.applied = [] ∧ outcome.failed = []
    · rw [if_pos (hnothing.mpr h)]
      simp [h, fix?]
    · rw [if_neg (mt hnothing.mp h)]
      simp only [fix?, Option.some.injEq, ← not_and_or, h, not_false_eq_true, true_and, eq_comm]

theorem fix?_dryRun (l : Linter) (fs : FileSystem) (file : String) :
    (l.fixFile true fs file).1.fix? =
      (l.fixFile false fs file).1.fix?.map FileFix.unwritten := by
  rw [fixFile, fixFile]
  cases l.loadSource fs file with
  | failed e => rfl
  | skippedGenerated => rfl
  | done source =>
    dsimp only
    split
    · rfl
    · simp [fix?, FileFix.unwritten]

/-- Fixing a file fails where checking it does. -/
theorem error?_fixFile (l : Linter) (dryRun : Bool) (fs : FileSystem) (file : String) :
    (l.fixFile dryRun fs file).1.error? = (l.checkFile fs file).error? := by
  rw [fixFile, checkFile]
  cases l.loadSource fs file with
  | failed e => rfl
  | skippedGenerated => rfl
  | done source =>
    dsimp only
    split <;> rfl

/-! ### Files that are rewritten -/

/-- Some files have their new texts, and everything else is as it was. -/
structure Rewritten (l : Linter) (fs : FileSystem) (files : List String) (cur : FileSystem) :
    Prop where
  aligned : fs.Aligned cur
  revised : ∀ file ∈ files, ∀ text place, l.revision? fs file = some text →
    fs.resolve file = .ok place → cur.look place = some (some text.toUTF8)
  kept : ∀ place, (∀ file ∈ files, l.revision? fs file ≠ none → fs.resolve file ≠ .ok place) →
    cur.look place = fs.look place

namespace Rewritten

variable {files : List String}

theorem nil (l : Linter) (fs : FileSystem) : l.Rewritten fs [] fs :=
  ⟨.refl fs, fun _ h => absurd h List.not_mem_nil, fun _ _ => rfl⟩

/-- A file that stands apart from the rewritten ones is read as at the start. -/
theorem readText_eq (h : l.Rewritten fs files cur) (hapart : ∀ other ∈ files, fs.Apart other file) :
    cur.readText file = fs.readText file := by
  refine (FileSystem.readText_congr (by rw [h.aligned.resolve_eq]) fun place hplace => ?_).symm
  exact (h.kept place fun other hother _ hplace' => hapart other hother place hplace' hplace).symm

theorem skip (h : l.Rewritten fs files cur) (hnone : l.revision? fs file = none) :
    l.Rewritten fs (files ++ [file]) cur := by
  refine ⟨h.aligned, ?_, ?_⟩
  · intro other hother text place htext hplace
    rcases List.mem_append.mp hother with hother | hother
    · exact h.revised other hother text place htext hplace
    · cases List.mem_singleton.mp hother
      cases hnone.symm.trans htext
  · intro place hplace
    exact h.kept place fun other hother => hplace other (List.mem_append_left _ hother)

theorem write {source : String} (h : l.Rewritten fs files cur)
    (hapart : ∀ other ∈ files, fs.Apart other file) (hread : cur.readText file = .ok source)
    (htext : l.revision? fs file = some text) :
    l.Rewritten fs (files ++ [file]) (cur.write file text) := by
  obtain ⟨place, _, hplace, -⟩ := FileSystem.readText_eq_ok_iff.mp hread
  have hwrite (other : Location) := FileSystem.look_write hread hplace text other
  rw [← h.aligned.resolve_eq] at hplace
  refine ⟨h.aligned.trans (FileSystem.aligned_write hread text), ?_, ?_⟩
  · intro other hother text' place' htext' hplace'
    rw [hwrite]
    rcases List.mem_append.mp hother with hother | hother
    · -- A file that was rewritten before is not written over, since it stands elsewhere.
      have hne : place' ≠ place := fun heq => hapart other hother place (heq ▸ hplace') hplace
      rw [if_neg hne]
      exact h.revised other hother text' place' htext' hplace'
    · cases List.mem_singleton.mp hother
      cases htext.symm.trans htext'
      cases hplace.symm.trans hplace'
      rw [if_pos rfl]
  · intro place' hplace'
    have hne : place' ≠ place := by
      rintro rfl
      exact hplace' file (by simp) (by simp [htext]) hplace
    rw [hwrite, if_neg hne]
    exact h.kept place' fun other hother => hplace' other (List.mem_append_left _ hother)

/-- Fixing one more file that stands apart rewrites it. -/
theorem fixFile (h : l.Rewritten fs files cur) (hapart : ∀ other ∈ files, fs.Apart other file) :
    l.Rewritten fs (files ++ [file]) (l.fixFile false cur file).2 := by
  have hload : l.loadSource cur file = l.loadSource fs file :=
    loadSource_congr (h.readText_eq hapart)
  have hrevision : l.revision? cur file = l.revision? fs file := by rw [revision?, hload, revision?]
  rw [fixFile_snd, hrevision, if_neg Bool.false_ne_true]
  cases htext : l.revision? fs file with
  | none => exact h.skip htext
  | some text =>
    obtain ⟨source, hsource, -⟩ := revision?_eq_some_iff.mp htext
    exact h.write hapart (readText_of_loadSource (hload.trans hsource)) htext

/-- The new text of a rewritten file is read. -/
theorem readText_of_revision (h : l.Rewritten fs files cur) (hfile : file ∈ files)
    (htext : l.revision? fs file = some text) : cur.readText file = .ok text := by
  obtain ⟨source, hsource, -⟩ := revision?_eq_some_iff.mp htext
  obtain ⟨place, _, hplace, -⟩ :=
    FileSystem.readText_eq_ok_iff.mp (readText_of_loadSource hsource)
  refine FileSystem.readText_of_look ?_ (h.revised file hfile text place htext hplace)
  rw [← h.aligned.resolve_eq, hplace]

/-- A run over files that stand apart reports what it would report of each at the start, and
rewrites them. -/
theorem foldl_fixNext (h : l.Rewritten fs files cur) (report : FixReport) (todo : List String)
    (hapart : (files ++ todo).Pairwise fs.Apart) :
    let final := todo.foldl (l.fixNext false) (report, cur)
    final.1 = (todo.map fun file => (l.fixFile false fs file).1).foldl addFix report ∧
    l.Rewritten fs (files ++ todo) final.2 := by
  induction todo generalizing files cur report with
  | nil => exact ⟨rfl, by rwa [List.append_nil]⟩
  | cons file todo ih =>
    have hfile : ∀ other ∈ files, fs.Apart other file := fun other hother =>
      (List.pairwise_append.mp hapart).2.2 other hother file List.mem_cons_self
    have hsame : (l.fixFile false cur file).1 = (l.fixFile false fs file).1 :=
      fixFile_fst_congr (loadSource_congr (h.readText_eq hfile))
    rw [List.append_cons] at hapart ⊢
    rw [List.foldl_cons, List.map_cons, List.foldl_cons, ← hsame]
    exact ih (h.fixFile hfile) _ hapart

end Rewritten

/-! ### Many files -/

/-- A dry run over files writes nothing. -/
theorem foldl_fixNext_dryRun (l : Linter) (fs : FileSystem) (report : FixReport)
    (files : List String) :
    files.foldl (l.fixNext true) (report, fs) =
      ((files.map fun file => (l.fixFile true fs file).1).foldl addFix report, fs) := by
  induction files generalizing report with
  | nil => rfl
  | cons file files ih =>
    have hfile : l.fixNext true (report, fs) file =
        (addFix report (l.fixFile true fs file).1, fs) :=
      Prod.ext rfl (l.fixFile_snd true fs file)
    rw [List.foldl_cons, List.map_cons, List.foldl_cons, hfile, ih]

/-- What many outcomes add to a report: the entries and the errors in their order, and the number
of fixes. -/
theorem foldl_addFix (r : FixReport) (outcomes : List (FileOutcome (Option FileFix))) :
    outcomes.foldl addFix r =
      { r with
        files := r.files ++ outcomes.filterMap fix?
        fileErrors := r.fileErrors ++ outcomes.filterMap error?
        totalFixes := r.totalFixes + ((outcomes.filterMap fix?).map (·.applied)).sum } := by
  induction outcomes generalizing r with
  | nil => simp
  | cons outcome outcomes ih =>
    rw [List.foldl_cons, ih]
    rcases outcome with (_ | fix) | _ | error <;>
      simp [addFix, fix?, error?, List.filterMap_cons, Nat.add_assoc]

/-- The report of a run over the files below some roots, from the outcomes at the start. -/
theorem fixPaths_eq (l : Linter) (fs : FileSystem) (roots : List String) (dryRun : Bool)
    (hapart : (l.collectFiles fs roots).Pairwise fs.Apart) :
    let files := l.collectFiles fs roots
    let fixes := files.filterMap fun file => (l.fixFile dryRun fs file).1.fix?
    (l.fixPaths fs roots dryRun).1 =
      { title := fixTitle
        files := fixes
        fileErrors := files.filterMap fun file => (l.fixFile dryRun fs file).1.error?
        totalFiles := files.length
        totalFixes := (fixes.map (·.applied)).sum } := by
  intro files fixes
  have hreport (start : FixReport) : (files.foldl (l.fixNext dryRun) (start, fs)).1 =
      (files.map fun file => (l.fixFile dryRun fs file).1).foldl addFix start := by
    cases dryRun with
    | true => rw [foldl_fixNext_dryRun]
    | false => exact ((Rewritten.nil l fs).foldl_fixNext start files hapart).1
  rw [fixPaths, foldl_piecesOf, hreport, foldl_addFix]
  simp [fixes, files, List.filterMap_map]

/-- A dry run leaves the file system as it is. -/
theorem fixPaths_dryRun_snd (l : Linter) (fs : FileSystem) (roots : List String) :
    (l.fixPaths fs roots true).2 = fs := by
  rw [fixPaths, foldl_piecesOf, foldl_fixNext_dryRun]

/-- A run rewrites the files. -/
theorem rewritten_fixPaths (l : Linter) (fs : FileSystem) (roots : List String)
    (hapart : (l.collectFiles fs roots).Pairwise fs.Apart) :
    l.Rewritten fs (l.collectFiles fs roots) (l.fixPaths fs roots false).2 := by
  rw [fixPaths, foldl_piecesOf]
  exact ((Rewritten.nil l fs).foldl_fixNext _ _ hapart).2

/-- The entries of the report, from the sources of the files. -/
theorem mem_fixes_iff {files : List String} {f : FileFix} :
    f ∈ files.filterMap (fun file => (l.fixFile false fs file).1.fix?) ↔
      f.file ∈ files ∧ ∃ source, l.loadSource fs f.file = .done source ∧
        let outcome := l.analyzer.fixSource source f.file
        (outcome.applied ≠ [] ∨ outcome.failed ≠ []) ∧
        f.applied = outcome.applied.length ∧ f.failed = outcome.failed ∧
        (f.written = true ↔ 0 < f.applied) := by
  simp only [List.mem_filterMap, fix?_fixFile_eq_some_iff]
  constructor
  · rintro ⟨file, hfile, source, hsource, hsome, rfl⟩
    exact ⟨hfile, source, hsource, hsome, rfl, rfl, by simp [FixOutcome.isChanged_iff]⟩
  · rintro ⟨hfile, source, hsource, hsome, happlied, hfailed, hwritten⟩
    refine ⟨f.file, hfile, source, hsource, hsome, ?_⟩
    rw [← happlied, ← hfailed]
    have hchanged : f.written = (l.analyzer.fixSource source f.file).isChanged := by
      rw [Bool.eq_iff_iff, hwritten, FixOutcome.isChanged_iff, happlied]
    rw [Bool.not_false, Bool.and_true, ← hchanged]

/-- A file that is to be changed has an entry with fixes. -/
theorem exists_mem_fixes {files : List String} (hfile : file ∈ files)
    (hrevision : l.revision? fs file ≠ none) :
    ∃ f ∈ files.filterMap (fun file => (l.fixFile false fs file).1.fix?),
      f.file = file ∧ 0 < f.applied := by
  obtain ⟨text, htext⟩ := Option.ne_none_iff_exists'.mp hrevision
  obtain ⟨source, hsource, hchanged, -⟩ := revision?_eq_some_iff.mp htext
  have happlied := FixOutcome.isChanged_iff.mp hchanged
  let outcome := l.analyzer.fixSource source file
  refine ⟨⟨file, outcome.applied.length, outcome.failed, true⟩, ?_, rfl, happlied⟩
  exact mem_fixes_iff.mpr ⟨hfile, source, hsource, .inl (List.ne_nil_of_length_pos happlied), rfl,
    rfl, iff_of_true rfl happlied⟩

/-- The report of a dry run is that of the run, but for what was written. -/
theorem fixPaths_dryRun (l : Linter) (fs : FileSystem) (roots : List String)
    (hapart : (l.collectFiles fs roots).Pairwise fs.Apart) :
    (l.fixPaths fs roots true).1 = (l.fixPaths fs roots false).1.unwritten := by
  rw [l.fixPaths_eq fs roots true hapart, l.fixPaths_eq fs roots false hapart]
  simp only [FixReport.unwritten, fix?_dryRun, error?_fixFile, ← List.map_filterMap, List.map_map,
    Function.comp_def, FileFix.unwritten]

/-- **A dry run foretells the run that writes.** If no two of the files that are collected stand at
one place, then the dry run leaves the file system as it is, and its report is that of the run but
for what was written. The run has an entry for each file with fixes that were applied or refused.
It writes the files with applied fixes, and only those: each then holds what fixing its old source
gives, and all else stands as it was. The fixes are counted file by file. -/
theorem fixPaths_foretold (l : Linter) (fs : FileSystem) (roots : List String)
    (hapart : (l.collectFiles fs roots).Pairwise fs.Apart) :
    let files := l.collectFiles fs roots
    let dry := l.fixPaths fs roots true
    let real := l.fixPaths fs roots false
    dry.2 = fs ∧
    dry.1 = real.1.unwritten ∧
    (∀ f, f ∈ real.1.files ↔ f.file ∈ files ∧ ∃ source, l.loadSource fs f.file = .done source ∧
      let outcome := l.analyzer.fixSource source f.file
      (outcome.applied ≠ [] ∨ outcome.failed ≠ []) ∧
      f.applied = outcome.applied.length ∧ f.failed = outcome.failed ∧
      (f.written = true ↔ 0 < f.applied)) ∧
    dry.1.totalFixes = (dry.1.files.map (·.applied)).sum ∧
    real.1.totalFixes = (real.1.files.map (·.applied)).sum ∧
    real.2.resolve = fs.resolve ∧
    (∀ f ∈ real.1.files, 0 < f.applied → ∃ source, fs.readText f.file = .ok source ∧
      real.2.readText f.file = .ok (l.analyzer.fixSource source f.file).source) ∧
    ∀ place, (∀ f ∈ real.1.files, 0 < f.applied → fs.resolve f.file ≠ .ok place) →
      real.2.look place = fs.look place := by
  intro files dry real
  have hdry : dry.1 = _ := l.fixPaths_eq fs roots true hapart
  have hreal : real.1 = _ := l.fixPaths_eq fs roots false hapart
  have hrewritten := l.rewritten_fixPaths fs roots hapart
  have hfixes : real.1.files = files.filterMap fun file => (l.fixFile false fs file).1.fix? := by
    rw [hreal]
  refine ⟨l.fixPaths_dryRun_snd fs roots, l.fixPaths_dryRun fs roots hapart, fun f => ?_, ?_, ?_,
    hrewritten.aligned.resolve_eq.symm, fun f hf happlied => ?_, fun place hplace => ?_⟩
  · rw [hfixes]
    exact mem_fixes_iff
  · rw [hdry]
  · rw [hreal]
  · rw [hfixes] at hf
    obtain ⟨hfile, source, hsource, -, hlength, -⟩ := mem_fixes_iff.mp hf
    have hchanged : (l.analyzer.fixSource source f.file).isChanged = true :=
      FixOutcome.isChanged_iff.mpr (hlength ▸ happlied)
    refine ⟨source, readText_of_loadSource hsource, hrewritten.readText_of_revision hfile ?_⟩
    exact revision?_eq_some_iff.mpr ⟨source, hsource, hchanged, rfl⟩
  · refine hrewritten.kept place fun file hfile hrevision => ?_
    obtain ⟨f, hf, rfl, happlied⟩ := exists_mem_fixes hfile hrevision
    exact hplace f (hfixes ▸ hf) happlied

/-- A source with a fix, and one without. -/
def twoSources : FileSystem where
  root := .directory [
    ("A.cs", .file "d.Select(e=>e.Key);".toUTF8),
    ("B.cs", .file "d.Count;".toUTF8) ]
  here := []

/-- The linter that knows of one dictionary. -/
def ofDictionary : Linter :=
  ⟨{}, [], .ofDictionary⟩

/-- The first source is rewritten, and the second stays as it is. -/
theorem fixPaths_foretold_two :
    let dry := ofDictionary.fixPaths twoSources ["A.cs", "B.cs"] true
    let real := ofDictionary.fixPaths twoSources ["A.cs", "B.cs"] false
    (ofDictionary.collectFiles twoSources ["A.cs", "B.cs"]).Pairwise twoSources.Apart ∧
    dry.2 = twoSources ∧ dry.1 = real.1.unwritten ∧
    real.2.readText "A.cs" = .ok "d.Keys;" ∧
    real.2.look ["B.cs"] = some (some "d.Count;".toUTF8) := by
  intro dry real
  have hfiles : ofDictionary.collectFiles twoSources ["A.cs", "B.cs"] = ["A.cs", "B.cs"] :=
    twoSources.collectFiles_eq [] (List.cons_ne_nil _ _) (by decide +kernel) (by decide) (by decide)
  have hfirst : twoSources.resolve "A.cs" = .ok ["A.cs"] := rfl
  have hsecond : twoSources.resolve "B.cs" = .ok ["B.cs"] := rfl
  have hapart : (ofDictionary.collectFiles twoSources ["A.cs", "B.cs"]).Pairwise
      twoSources.Apart := by
    rw [hfiles]
    simp [FileSystem.Apart, hfirst, hsecond]
  have hread : twoSources.readText "A.cs" = .ok "d.Select(e=>e.Key);" :=
    FileSystem.readText_of_look hfirst rfl
  have hfixed :
      let outcome := ofDictionary.analyzer.fixSource "d.Select(e=>e.Key);" "A.cs"
      outcome.applied.length = 1 ∧ outcome.failed = [] ∧ outcome.source = "d.Keys;" := by
    decide +kernel
  have hplain : (ofDictionary.analyzer.fixSource "d.Count;" "B.cs").applied.length = 0 := by
    decide +kernel
  obtain ⟨hsame, hreport, hentries, -, -, -, hwritten, hkept⟩ :=
    fixPaths_foretold ofDictionary twoSources ["A.cs", "B.cs"] hapart
  rw [hfiles] at hentries
  refine ⟨hapart, hsame, hreport, ?_, ?_⟩
  · have hload : ofDictionary.loadSource twoSources "A.cs" = .done "d.Select(e=>e.Key);" := by
      rw [loadSource, hread]
      rfl
    have hentry : (⟨"A.cs", 1, [], true⟩ : FileFix) ∈ real.1.files :=
      (hentries _).mpr ⟨by simp, _, hload, .inl (List.ne_nil_of_length_pos (by simp [hfixed.1])),
        hfixed.1.symm, hfixed.2.1.symm, by simp⟩
    obtain ⟨source, hsource, hnew⟩ := hwritten _ hentry Nat.one_pos
    cases hread.symm.trans hsource
    rw [hnew, hfixed.2.2]
  · have hload : ofDictionary.loadSource twoSources "B.cs" = .done "d.Count;" := by
      rw [loadSource, FileSystem.readText_of_look hsecond rfl]
      rfl
    refine hkept ["B.cs"] fun f hf happlied => ?_
    obtain ⟨hfile, source, hsource, -, hlength, -⟩ := (hentries f).mp hf
    have hfile : f.file = "A.cs" ∨ f.file = "B.cs" := by simpa using hfile
    rcases hfile with hfile | hfile
    · simp [hfile, hfirst]
    · rw [hfile] at hsource hlength
      cases hload.symm.trans hsource
      rw [hlength, hplain] at happlied
      exact absurd happlied (Nat.lt_irrefl 0)

end Linter

end ViewLint
