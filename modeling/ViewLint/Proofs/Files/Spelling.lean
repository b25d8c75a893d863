import ViewLint.Proofs.Files.Components
import ViewLint.Proofs.Files.Order

/-!
# Spellings of collected files

Collected files are freed of repetitions by their components. Dots inside a path and repeated
slashes are no components, so they make no difference, but a dot in front of a path is one. Two
files that are collected can therefore be spellings of one path, with the dot and without it. This
needs two roots that differ in the same way, since files are spelled from their roots.

## Main definitions

* `Path.SpelledAlike`: all relative paths have a dot in front, or no path has one.

## Main results

* `Path.components_of_bare_eq`: two spellings of one path differ in the dot.
* `Entry.forall_mem_sources`: what the search of a tree keeps of the path of its root.
* `FileSystem.exists_mem_collectFiles`: no source file is lost with the repetitions.
* `FileSystem.pairwise_bare_collectFiles`: spellings of one path among the collected files.
* `FileSystem.pairwise_bare_ne_collectFiles`: there are none if the roots are spelled alike.
-/

namespace ViewLint

open ViewLint.Path (Component components bare opening)

variable {a b path base root : String} {patterns roots : List String} {layers : List IgnoreLayer}
  {place : Location}

namespace Path

/-- No path has a dot in front, or all have one but those that start at the root. -/
def SpelledAlike (paths : List String) : Prop :=
  (∀ path ∈ paths, opening path ≠ some .current) ∨
    ∀ path ∈ paths, opening path = some .current ∨ opening path = some .root

/-- A path that is not empty starts like another one, or at the root. -/
def SpelledFrom (base path : String) : Prop :=
  path ≠ "" ∧ (opening path = opening base ∨ opening path = some .root)

theorem SpelledFrom.join (name : String) (h : SpelledFrom base path) :
    SpelledFrom base (Path.join path name) := by
  obtain ⟨hne, hsame | habsolute⟩ := opening_join h.1 name
  · exact ⟨hne, hsame ▸ h.2⟩
  · exact ⟨hne, .inr habsolute⟩

theorem not_before_of_components_eq (h : components a = components b) : ¬Before a b := by
  intro hbefore
  have hself : compareComponents (components b) (components b) = .eq := Std.ReflCmp.compare_self
  rw [Before, Path.compare, h, hself] at hbefore
  cases hbefore

/-- Of two spellings of one path, the first in the order has a dot in front. -/
theorem components_of_bare_eq (hbefore : Before a b) (h : bare a = bare b) (hne : bare a ≠ []) :
    components a = .current :: components b := by
  rcases components_eq_or a with ha | ha <;> rcases components_eq_or b with hb | hb
  · exact absurd hbefore (not_before_of_components_eq (by rw [ha, hb, h]))
  · -- The dot comes before every name and every parent, so the path with it is the first.
    obtain ⟨c, cs, hcs⟩ := List.exists_cons_of_ne_nil hne
    rw [hcs] at ha
    rw [← h, hcs] at hb
    obtain ⟨hroot, hcurrent⟩ := not_mem_of_components hb
    rw [Before, Path.compare, ha, hb] at hbefore
    cases c with
    | root => exact absurd List.mem_cons_self hroot
    | current => exact absurd List.mem_cons_self hcurrent
    | parent => cases hbefore
    | name text => cases hbefore
  · rw [ha, hb, h]
  · exact absurd hbefore (not_before_of_components_eq (by rw [ha, hb, h]))

/-- If they are spelled alike, none of two paths is the other with a dot in front. -/
theorem SpelledAlike.components_ne {paths : List String} (h : SpelledAlike paths) (ha : a ∈ paths)
    (hb : b ∈ paths) : components a ≠ .current :: components b := by
  intro hab
  rcases h with h | h
  · exact h a ha (by rw [opening, hab]; rfl)
  · obtain ⟨hroot, hcurrent⟩ := not_mem_of_components hab
    rcases h b hb with hb | hb
    · exact hcurrent (List.mem_of_mem_head? hb)
    · exact hroot (List.mem_of_mem_head? hb)

end Path

/-- A source file has a name, which stays without a dot in front. -/
theorem bare_ne_nil_of_isSource (h : isSource path = true) : bare path ≠ [] := by
  rw [isSource, Path.extension?, Path.fileName?] at h
  split at h
  next => cases h
  next name hname =>
    split at hname
    next text hlast =>
      have hmem := List.mem_of_getLast? hlast
      exact List.ne_nil_of_mem (List.mem_filter.mpr ⟨hmem, rfl⟩)
    next => cases hname

/-! ### What a search keeps -/

mutual

/-- The search of a tree gives source files, and what stays true of a path when a name is joined to
it is true of them if it is true of the path of the tree. -/
theorem Entry.forall_mem_sources {Q : String → Prop}
    (hjoin : ∀ base name, Q base → Q (Path.join base name)) (place : Location) (base : String)
    (layers : List IgnoreLayer) (hbase : Q base) : (e : Entry) →
      ∀ path ∈ e.sources patterns layers place base, isSource path = true ∧ Q path
  | .file _, path, hpath => by
    rw [Entry.sources] at hpath
    split at hpath
    next hsource =>
      obtain rfl := List.mem_singleton.mp hpath
      exact ⟨hsource, hbase⟩
    next => cases hpath
  | .directory entries, path, hpath => by
    rw [Entry.sources] at hpath
    exact forall_mem_sourcesIn hjoin place base _ hbase entries path hpath

/-- So does the search of the entries of a directory. -/
theorem forall_mem_sourcesIn {Q : String → Prop}
    (hjoin : ∀ base name, Q base → Q (Path.join base name)) (place : Location) (base : String)
    (layers : List IgnoreLayer) (hbase : Q base) : (entries : List (String × Entry)) →
      ∀ path ∈ sourcesIn patterns layers place base entries, isSource path = true ∧ Q path
  | [], path, hpath => by cases hpath
  | (name, e) :: rest, path, hpath => by
    rw [sourcesIn, List.mem_append] at hpath
    rcases hpath with hpath | hpath
    · split at hpath
      next => cases hpath
      next =>
        exact e.forall_mem_sources hjoin _ _ layers (hjoin base name hbase) path hpath
    · exact forall_mem_sourcesIn hjoin place base layers hbase rest path hpath

end

/-! ### Collected files -/

theorem dropRepeated_go_sublist (last : List Component) (paths : List String) :
    (dropRepeated.go last paths).Sublist paths := by
  induction paths generalizing last with
  | nil => exact .slnil
  | cons path paths ih =>
    rw [dropRepeated.go]
    split
    next => exact (ih last).cons path
    next => exact (ih _).cons_cons path

theorem dropRepeated_sublist (paths : List String) : (dropRepeated paths).Sublist paths := by
  cases paths with
  | nil => exact .slnil
  | cons path paths => exact (dropRepeated_go_sublist _ paths).cons_cons path

/-- A path is kept, or a path before it with its components. -/
theorem exists_mem_dropRepeated_go {last : List Component} {paths : List String}
    (h : path ∈ paths) : components path = last ∨
      ∃ kept ∈ dropRepeated.go last paths, components kept = components path := by
  induction paths generalizing last with
  | nil => cases h
  | cons first paths ih =>
    rw [dropRepeated.go]
    by_cases hfirst : components first = last
    · rw [if_pos hfirst]
      rcases List.mem_cons.mp h with rfl | h
      · exact .inl hfirst
      · exact ih h
    · rw [if_neg hfirst]
      rcases List.mem_cons.mp h with rfl | h
      · exact .inr ⟨path, List.mem_cons_self, rfl⟩
      · rcases ih h with hsame | ⟨kept, hkept, hsame⟩
        · exact .inr ⟨first, List.mem_cons_self, hsame.symm⟩
        · exact .inr ⟨kept, List.mem_cons_of_mem first hkept, hsame⟩

/-- No components are lost with the repetitions. -/
theorem exists_mem_dropRepeated {paths : List String} (h : path ∈ paths) :
    ∃ kept ∈ dropRepeated paths, components kept = components path := by
  cases paths with
  | nil => cases h
  | cons first paths =>
    rcases List.mem_cons.mp h with rfl | h
    · exact ⟨path, List.mem_cons_self, rfl⟩
    · rcases exists_mem_dropRepeated_go h with hsame | ⟨kept, hkept, hsame⟩
      · exact ⟨first, List.mem_cons_self, hsame.symm⟩
      · exact ⟨kept, List.mem_cons_of_mem first hkept, hsame⟩

namespace FileSystem

variable {fs : FileSystem} {excluded : List String}

/-- A source file of a root is the root, or it is found in the directory of the root. -/
theorem eq_or_mem_sources (h : path ∈ fs.sourceFiles excluded root) :
    path = root ∧ isSource root = true ∨ ∃ place directory, fs.resolve root = .ok place ∧
      path ∈ Entry.sources (excluded ++ Files.defaultFolders) (fs.layersAbove place) place root
        directory := by
  rw [sourceFiles] at h
  split at h
  next =>
    split at h
    next hsource => exact .inl ⟨List.mem_singleton.mp h, hsource⟩
    next => cases h
  next =>
    split at h
    next => cases h
    next =>
      split at h
      next => cases h
      next place hplace =>
        split at h
        next directory _ => exact .inr ⟨place, directory, hplace, List.mem_mergeSort.mp h⟩
        next => cases h

/-- A source file of a root is spelled from the root. -/
theorem opening_of_mem_sourceFiles (h : path ∈ fs.sourceFiles excluded root) :
    isSource path = true ∧ (opening path = opening root ∨ opening path = some .root) := by
  rcases eq_or_mem_sources h with ⟨rfl, hsource⟩ | ⟨place, directory, hplace, hmem⟩
  · exact ⟨hsource, .inl rfl⟩
  · have hroot : Path.SpelledFrom root root := by
      refine ⟨?_, .inl rfl⟩
      rintro rfl
      cases hplace
    obtain ⟨hsource, hspelled⟩ :=
      directory.forall_mem_sources (fun _ => Path.SpelledFrom.join) _ _ _ hroot path hmem
    exact ⟨hsource, hspelled.2⟩

/-- Every collected file is a source file of a root. -/
theorem exists_root_of_mem_collectFiles (h : path ∈ fs.collectFiles excluded roots) :
    ∃ root ∈ if roots.isEmpty then ["."] else roots, path ∈ fs.sourceFiles excluded root := by
  have hmem := (dropRepeated_sublist _).subset h
  rw [List.mem_mergeSort, List.mem_flatMap] at hmem
  exact hmem

/-- Every source file of a root is collected, in some spelling of its components. -/
theorem exists_mem_collectFiles (hroot : root ∈ roots) (h : path ∈ fs.sourceFiles excluded root) :
    ∃ file ∈ fs.collectFiles excluded roots, components file = components path := by
  rw [collectFiles, if_neg (by simpa using List.ne_nil_of_mem hroot)]
  exact exists_mem_dropRepeated (List.mem_mergeSort.mpr (List.mem_flatMap.mpr ⟨root, hroot, h⟩))

/-- Of two spellings of one path among the collected files, the first has a dot in front. -/
theorem pairwise_bare_collectFiles (fs : FileSystem) (excluded roots : List String) :
    (fs.collectFiles excluded roots).Pairwise fun a b =>
      bare a = bare b → components a = .current :: components b := by
  refine (fs.collectFiles_pairwise excluded roots).imp_of_mem fun ha hb hbefore h => ?_
  obtain ⟨root, -, hroot⟩ := exists_root_of_mem_collectFiles ha
  exact Path.components_of_bare_eq hbefore h
    (bare_ne_nil_of_isSource (opening_of_mem_sourceFiles hroot).1)

/-- The files of roots that are spelled alike are spelled alike. -/
theorem spelledAlike_collectFiles (fs : FileSystem) (excluded : List String)
    (h : Path.SpelledAlike roots) :
    Path.SpelledAlike (fs.collectFiles excluded roots) := by
  have hroots : Path.SpelledAlike (if roots.isEmpty then ["."] else roots) := by
    split
    next => exact .inr (by decide)
    next => exact h
  refine hroots.imp (fun hroots path hpath => ?_) fun hroots path hpath => ?_
  · obtain ⟨root, hroot, hpath⟩ := exists_root_of_mem_collectFiles hpath
    rcases (opening_of_mem_sourceFiles hpath).2 with hopening | hopening
    · exact hopening ▸ hroots root hroot
    · simp [hopening]
  · obtain ⟨root, hroot, hpath⟩ := exists_root_of_mem_collectFiles hpath
    rcases (opening_of_mem_sourceFiles hpath).2 with hopening | hopening
    · exact hopening ▸ hroots root hroot
    · exact .inr hopening

/-- If the roots are spelled alike, no two collected files are spellings of one path. -/
theorem pairwise_bare_ne_collectFiles (fs : FileSystem) (excluded : List String)
    (h : Path.SpelledAlike roots) :
    (fs.collectFiles excluded roots).Pairwise fun a b => bare a ≠ bare b := by
  refine (fs.pairwise_bare_collectFiles excluded roots).imp_of_mem fun ha hb hab heq => ?_
  exact (fs.spelledAlike_collectFiles excluded h).components_ne ha hb (hab heq)

end FileSystem

end ViewLint
