import ViewLint.Proofs.Files.Order
import ViewLint.Proofs.Files.Place

/-!
# The source files below a directory

In a tree without ignore files, the search for source files goes into every directory that no
pattern excludes by its name. So a file is found exactly if it has the ending of C# sources and no
directory between the root of the search and the file is excluded. Neither the name of the root nor
that of the file is held against a pattern.

## Main definitions

* `Entry.Every`: a property of an entry and of all entries below it.
* `Entry.WellFormed`: the entries of each directory have names, and no name twice.
* `Entry.Unruled`: no directory holds an ignore file.

## Main results

* `isSource_iff`: which names have the ending of C# sources.
* `Entry.mem_sources_iff`: which paths the search of a tree gives.
* `Entry.pairwise_sources`: the search of a tree gives no components twice.
* `FileSystem.sourceFiles_exact`: the source files of a root.
-/

namespace ViewLint

open ViewLint.Path (Component components)

variable {e : Entry} {entries : List (String × Entry)} {name path base : String}
  {patterns : List String} {layers : List IgnoreLayer} {place names : Location}

/-! ### Trees -/

namespace Entry

/-- A property of an entry and of all entries below it. -/
inductive Every (P : Entry → Prop) : Entry → Prop
  | file {bytes : ByteArray} (self : P (.file bytes)) : Every P (.file bytes)
  | directory {entries : List (String × Entry)} (self : P (.directory entries))
      (below : ∀ e ∈ entries, Every P e.2) : Every P (.directory entries)

/-- The entries of a directory have names, and no name twice. -/
def WellNamed : Entry → Prop
  | .file _ => True
  | .directory entries =>
    (∀ e ∈ entries, Path.IsName e.1) ∧ (entries.map Prod.fst).Nodup

instance : (e : Entry) → Decidable e.WellNamed
  | .file _ => inferInstanceAs (Decidable True)
  | .directory entries => inferInstanceAs (Decidable ((∀ e ∈ entries, Path.IsName e.1) ∧ _))

/-- The entries of each directory have names, and no name twice. -/
def WellFormed (e : Entry) : Prop :=
  e.Every WellNamed

/-- The places below a directory at which its ignore files stand. -/
def ignorePlaces : List Location :=
  [[".ignore"], [".gitignore"], [".git", "info", "exclude"]]

/-- A directory holds no ignore file. -/
def Ruleless (e : Entry) : Prop :=
  ∀ place ∈ ignorePlaces, (e.at? place).any isFile = false

instance (e : Entry) : Decidable e.Ruleless :=
  inferInstanceAs (Decidable (∀ place ∈ ignorePlaces, _))

/-- No directory holds an ignore file. -/
def Unruled (e : Entry) : Prop :=
  e.Every Ruleless

theorem every_file_iff {P : Entry → Prop} {bytes : ByteArray} :
    (file bytes).Every P ↔ P (.file bytes) :=
  ⟨fun | .file self => self, .file⟩

theorem every_directory_iff {P : Entry → Prop} :
    (directory entries).Every P ↔ P (.directory entries) ∧ ∀ e ∈ entries, e.2.Every P :=
  ⟨fun | .directory self below => ⟨self, below⟩, fun h => .directory h.1 h.2⟩

theorem Every.self {P : Entry → Prop} (h : e.Every P) : P e := by
  cases h with
  | file self => exact self
  | directory self => exact self

theorem mem_of_child? {c : Entry} (h : (directory entries).child? name = some c) :
    (name, c) ∈ entries := by
  obtain ⟨before, after, rfl, -⟩ := List.lookup_eq_some_iff.mp h
  exact List.mem_append_right before List.mem_cons_self

/-- Below an entry, names lead to entries in which what holds of every entry holds too. -/
theorem Every.at? {P : Entry → Prop} {e' : Entry} (h : e.Every P) (he' : e.at? place = some e') :
    e'.Every P := by
  induction place generalizing e with
  | nil =>
    cases he'
    exact h
  | cons name place ih =>
    rw [at?_cons] at he'
    obtain ⟨c, hc, hrest⟩ := Option.bind_eq_some_iff.mp he'
    cases h with
    | file => cases hc
    | directory self below => exact ih (below (name, c) (mem_of_child? hc)) hrest

/-- Where no name is there twice, every entry is found under its name. -/
theorem child?_eq_some_iff {c : Entry} (h : (directory entries).WellNamed) :
    (directory entries).child? name = some c ↔ (name, c) ∈ entries := by
  refine ⟨mem_of_child?, fun hmem => ?_⟩
  obtain ⟨before, after, rfl⟩ := List.append_of_mem hmem
  refine List.lookup_eq_some_iff.mpr ⟨before, after, rfl, fun entry hentry => ?_⟩
  have hkeys := h.2
  rw [List.map_append, List.map_cons, List.nodup_append] at hkeys
  have hne := hkeys.2.2 entry.1 (List.mem_map_of_mem hentry) name List.mem_cons_self
  exact bne_iff_ne.mpr (Ne.symm hne)

/-- The places of a well-formed tree are lists of names. -/
theorem WellFormed.isName {e' : Entry} (h : e.WellFormed) (he' : e.at? names = some e') :
    ∀ name ∈ names, Path.IsName name := by
  induction names generalizing e with
  | nil => exact fun _ hname => absurd hname List.not_mem_nil
  | cons name names ih =>
    rw [at?_cons] at he'
    obtain ⟨c, hc, hrest⟩ := Option.bind_eq_some_iff.mp he'
    cases h with
    | file => cases hc
    | directory self below =>
      have hmem := mem_of_child? hc
      exact List.forall_mem_cons.mpr ⟨self.1 _ hmem, ih (below _ hmem) hrest⟩

/-- A file is found along no names exactly if the search starts at it. -/
theorem ne_nil_iff_of_at? {bytes : ByteArray} (h : e.at? names = some (.file bytes)) :
    names ≠ [] ↔ e.isFile = false := by
  cases e with
  | file =>
    cases names with
    | nil => simp [isFile]
    | cons name names => cases h
  | directory =>
    cases names with
    | nil => cases h
    | cons name names => simp [isFile]

end Entry

/-! ### Directories without ignore files -/

/-- A layer brings no rules. -/
structure IgnoreLayer.IsEmpty (l : IgnoreLayer) : Prop where
  ignore : l.ignore = []
  gitIgnore : l.gitIgnore = []
  gitExclude : l.gitExclude = []

theorem rulesAt_of_ruleless (h : e.Ruleless) (hplace : place ∈ Entry.ignorePlaces) :
    rulesAt e place = [] := by
  rw [rulesAt]
  split
  next bytes hfile =>
    have hnone := h place hplace
    rw [hfile] at hnone
    cases hnone
  next => rfl

theorem IgnoreLayer.isEmpty_of (h : e.Ruleless) (depth : Nat) : (IgnoreLayer.of e depth).IsEmpty :=
  ⟨rulesAt_of_ruleless h (by decide), rulesAt_of_ruleless h (by decide),
    rulesAt_of_ruleless h (by decide)⟩

theorem mem_of_mem_repositoryLayers {l : IgnoreLayer} (h : l ∈ repositoryLayers layers) :
    l ∈ layers := by
  induction layers with
  | nil => cases h
  | cons first layers ih =>
    rw [repositoryLayers] at h
    split at h
    next => exact List.mem_singleton.mp h ▸ List.mem_cons_self
    next =>
      rcases List.mem_cons.mp h with rfl | h
      · exact List.mem_cons_self
      · exact List.mem_cons_of_mem first (ih h)

/-- Without rules nothing is ignored. -/
theorem isIgnored_of_isEmpty (h : ∀ l ∈ layers, l.IsEmpty) (place : Location)
    (isDirectory : Bool) : isIgnored layers place isDirectory = false := by
  have hsilent {ls : List IgnoreLayer} {rules : IgnoreLayer → List IgnoreRule}
      (hls : ∀ l ∈ ls, rules l = []) :
      ls.findSome? (fun l => rulesVerdict? (rules l) (Path.ofSegments (place.drop l.depth))
        isDirectory) = none := by
    rw [List.findSome?_eq_none_iff]
    intro l hl
    rw [hls l hl]
    rfl
  have hown : ∀ l ∈ if layers.any (·.isRepository) then repositoryLayers layers else [],
      l.IsEmpty := by
    split
    next => exact fun l hl => h l (mem_of_mem_repositoryLayers hl)
    next => exact fun l hl => absurd hl List.not_mem_nil
  simp only [isIgnored, verdict?]
  rw [hsilent fun l hl => (h l hl).ignore, hsilent fun l hl => (hown l hl).gitIgnore,
    hsilent fun l hl => (hown l hl).gitExclude]
  rfl

/-- In a tree without ignore files, the layers above a place bring no rules. -/
theorem FileSystem.isEmpty_of_mem_layersAbove {fs : FileSystem} (h : fs.root.Unruled)
    {l : IgnoreLayer} (hl : l ∈ fs.layersAbove place) : l.IsEmpty := by
  obtain ⟨depth, -, rfl⟩ := List.mem_map.mp (List.mem_reverse.mp hl)
  apply IgnoreLayer.isEmpty_of
  cases hat : fs.root.at? (place.take depth) with
  | none =>
    rw [Option.getD_none]
    decide
  | some e => exact (h.at? hat).self

/-! ### The ending of C# sources -/

/-- A file with a name has the ending of C# sources if something stands before the ending. -/
theorem isSource_iff {front : List Component} (h : components path = front ++ [.name name]) :
    isSource path = true ↔ ∃ stem, stem ≠ "" ∧ name = stem ++ ".cs" := by
  have hname : Path.fileName? path = some name := by
    rw [Path.fileName?, h, List.getLast?_concat]
  rw [isSource, Path.extension?, hname]
  dsimp only
  constructor
  · intro hsource
    split at hsource
    next dot c rest hrest =>
      have hending : name.toList.reverse.takeWhile (· != '.') = ['s', 'c'] := by
        have hof := Option.some.inj (beq_iff_eq.mp hsource)
        have hlist := congrArg String.toList hof
        rw [String.toList_ofList] at hlist
        exact List.reverse_inj.mp hlist
      obtain rfl : dot = '.' := by
        have hhead := List.head?_dropWhile_not (· != '.') name.toList.reverse
        rw [hrest] at hhead
        simpa using hhead
      have hname : name.toList.reverse = ['s', 'c'] ++ '.' :: c :: rest := by
        rw [← hending, ← hrest, List.takeWhile_append_dropWhile]
      refine ⟨String.ofList (c :: rest).reverse, by simp, String.toList_inj.mp ?_⟩
      rw [← List.reverse_reverse name.toList, hname]
      simp
    next => cases hsource
  · rintro ⟨stem, hstem, rfl⟩
    have hreversed : (stem ++ ".cs").toList.reverse = 's' :: 'c' :: '.' :: stem.toList.reverse := by
      simp
    rw [hreversed]
    cases hlast : stem.toList.reverse with
    | nil => simp_all
    | cons c rest => rfl

theorem isSource_foldl_join (hnames : ∀ name ∈ names, Path.IsName name) (hne : names ≠ []) :
    isSource (names.foldl Path.join base) = true ↔
      ∃ stem, names.getLast? = some (stem ++ ".cs") ∧ stem ≠ "" := by
  rcases List.eq_nil_or_concat names with rfl | ⟨front, last, rfl⟩
  · exact absurd rfl hne
  · rw [List.concat_eq_append] at hnames ⊢
    have hcs : components ((front ++ [last]).foldl Path.join base) =
        (components base ++ front.map Component.name) ++ [.name last] := by
      rw [Path.components_foldl_join base hnames, List.map_append, ← List.append_assoc]
      rfl
    rw [isSource_iff hcs, List.getLast?_concat]
    simp only [Option.some_inj, and_comm]

/-! ### The search of a tree -/

namespace Entry

/-- The search of a directory is that of the entries that it does not skip. -/
theorem mem_sourcesIn_iff (h : ∀ l ∈ layers, l.IsEmpty) :
    path ∈ sourcesIn patterns layers place base entries ↔ ∃ name c, (name, c) ∈ entries ∧
      (c.isFile = false → Files.isExcluded patterns name = false) ∧
      path ∈ c.sources patterns layers (place ++ [name]) (Path.join base name) := by
  induction entries with
  | nil => simp [sourcesIn]
  | cons entry entries ih =>
    obtain ⟨name, c⟩ := entry
    rw [sourcesIn, List.mem_append, ih, isIgnored_of_isEmpty h, Bool.false_or]
    constructor
    · rintro (hfound | ⟨name', c', hmem, hrest⟩)
      · split at hfound
        next => cases hfound
        next hkept => exact ⟨name, c, List.mem_cons_self, by simpa using hkept, hfound⟩
      · exact ⟨name', c', List.mem_cons_of_mem _ hmem, hrest⟩
    · rintro ⟨name', c', hmem, hkept, hfound⟩
      rcases List.mem_cons.mp hmem with heq | hmem
      · obtain ⟨rfl, rfl⟩ := Prod.mk.inj heq
        refine .inl ?_
        rw [if_neg (by simpa using hkept)]
        exact hfound
      · exact .inr ⟨name', c', hmem, hkept, hfound⟩

/-- The paths that the search of a tree gives are those of the source files that no excluded
directory hides. -/
theorem mem_sources_iff (hwf : e.WellFormed) (hrules : e.Unruled)
    (hlayers : ∀ l ∈ layers, l.IsEmpty) :
    path ∈ e.sources patterns layers place base ↔ ∃ names bytes,
      e.at? names = some (.file bytes) ∧ path = names.foldl Path.join base ∧
      isSource path = true ∧
      ∀ folder ∈ names.dropLast, Files.isExcluded patterns folder = false := by
  induction hwf generalizing layers place base with
  | file =>
    rw [sources]
    constructor
    · intro hpath
      split at hpath
      next hsource =>
        obtain rfl := List.mem_singleton.mp hpath
        exact ⟨[], _, rfl, rfl, hsource, fun _ h => absurd h List.not_mem_nil⟩
      next => cases hpath
    · rintro ⟨names, bytes, hat, rfl, hsource, -⟩
      cases names with
      | nil =>
        rw [List.foldl_nil] at hsource ⊢
        rw [if_pos hsource]
        exact List.mem_singleton_self base
      | cons name names => cases hat
  | @directory entries self below ih =>
    cases hrules with
    | directory hruleless hunruled =>
      have hlayers' : ∀ l ∈ IgnoreLayer.of (.directory entries) place.length :: layers, l.IsEmpty :=
        List.forall_mem_cons.mpr ⟨IgnoreLayer.isEmpty_of hruleless _, hlayers⟩
      rw [sources, mem_sourcesIn_iff hlayers']
      constructor
      · rintro ⟨name, c, hmem, hfolder, hpath⟩
        obtain ⟨names, bytes, hat, rfl, hsource, hfolders⟩ :=
          (ih (name, c) hmem (hunruled _ hmem) hlayers').mp hpath
        refine ⟨name :: names, bytes, ?_, rfl, hsource, ?_⟩
        · rw [at?_cons, (child?_eq_some_iff self).mpr hmem]
          exact hat
        · by_cases hnames : names = []
          · simp [hnames]
          · rw [List.dropLast_cons_of_ne_nil hnames, List.forall_mem_cons]
            exact ⟨hfolder ((ne_nil_iff_of_at? hat).mp hnames), hfolders⟩
      · rintro ⟨names, bytes, hat, rfl, hsource, hfolders⟩
        cases names with
        | nil => cases hat
        | cons name names =>
          rw [at?_cons] at hat
          obtain ⟨c, hc, hfile⟩ := Option.bind_eq_some_iff.mp hat
          have hmem := mem_of_child? hc
          refine ⟨name, c, hmem, fun hc => ?_, (ih (name, c) hmem (hunruled _ hmem) hlayers').mpr
            ⟨names, bytes, hfile, rfl, hsource, fun folder hfolder => ?_⟩⟩
          · rw [List.dropLast_cons_of_ne_nil ((ne_nil_iff_of_at? hfile).mpr hc)] at hfolders
            exact hfolders name List.mem_cons_self
          · have hnames : names ≠ [] := by
              rintro rfl
              cases hfolder
            rw [List.dropLast_cons_of_ne_nil hnames] at hfolders
            exact hfolders folder (List.mem_cons_of_mem name hfolder)

/-- The search of an entry gives paths that go on from its own. -/
theorem components_of_mem_sources (hwf : e.WellFormed) (hrules : e.Unruled)
    (hlayers : ∀ l ∈ layers, l.IsEmpty) (h : path ∈ e.sources patterns layers place base) :
    components base <+: components path := by
  obtain ⟨names, bytes, hat, rfl, -, -⟩ := (mem_sources_iff hwf hrules hlayers).mp h
  rw [Path.components_foldl_join base (hwf.isName hat)]
  exact List.prefix_append _ _

theorem eq_of_concat_prefixes {α : Type} {xs ys : List α} {a b : α} (ha : xs ++ [a] <+: ys)
    (hb : xs ++ [b] <+: ys) : a = b := by
  obtain ⟨rest, rfl⟩ := ha
  obtain ⟨rest', h⟩ := hb
  rw [List.append_assoc, List.append_assoc] at h
  exact (List.cons.inj (List.append_cancel_left h)).1.symm

/-- Under different names of a directory, different paths are found. -/
theorem pairwise_sourcesIn (hnames : (directory entries).WellNamed)
    (hwf : ∀ e ∈ entries, e.2.WellFormed) (hrules : ∀ e ∈ entries, e.2.Unruled)
    (hlayers : ∀ l ∈ layers, l.IsEmpty)
    (h : ∀ e ∈ entries, (e.2.sources patterns layers (place ++ [e.1])
      (Path.join base e.1)).Pairwise fun a b => components a ≠ components b) :
    (sourcesIn patterns layers place base entries).Pairwise fun a b =>
      components a ≠ components b := by
  induction entries with
  | nil => exact .nil
  | cons entry entries ih =>
    obtain ⟨name, c⟩ := entry
    obtain ⟨hname, hkeys⟩ := hnames
    rw [List.map_cons, List.nodup_cons] at hkeys
    rw [List.forall_mem_cons] at hname hwf hrules h
    rw [sourcesIn, List.pairwise_append]
    refine ⟨?_, ih ⟨hname.2, hkeys.2⟩ hwf.2 hrules.2 h.2, fun a ha b hb hab => ?_⟩
    · split
      next => exact .nil
      next => exact h.1
    · have ha : components (Path.join base name) <+: components a := by
        split at ha
        next => cases ha
        next => exact components_of_mem_sources hwf.1 hrules.1 hlayers ha
      obtain ⟨name', c', hmem, -, hb⟩ := (mem_sourcesIn_iff hlayers).mp hb
      have hb := components_of_mem_sources (hwf.2 _ hmem) (hrules.2 _ hmem) hlayers hb
      rw [Path.components_join base hname.1] at ha
      rw [Path.components_join base (hname.2 _ hmem)] at hb
      rw [hab] at ha
      obtain rfl := Component.name.inj (eq_of_concat_prefixes ha hb)
      exact hkeys.1 (List.mem_map.mpr ⟨_, hmem, rfl⟩)

/-- The search of a tree gives no components twice. -/
theorem pairwise_sources (hwf : e.WellFormed) (hrules : e.Unruled)
    (hlayers : ∀ l ∈ layers, l.IsEmpty) :
    (e.sources patterns layers place base).Pairwise fun a b => components a ≠ components b := by
  induction hwf generalizing layers place base with
  | file =>
    rw [sources]
    split
    next => exact List.pairwise_singleton ..
    next => exact .nil
  | directory self below ih =>
    cases hrules with
    | directory hruleless hunruled =>
      have hlayers' := List.forall_mem_cons.mpr
        ⟨IgnoreLayer.isEmpty_of hruleless place.length, hlayers⟩
      rw [sources]
      exact pairwise_sourcesIn self below hunruled hlayers' fun e he =>
        ih e he (hunruled e he) hlayers'

end Entry

/-! ### The source files of a root -/

namespace FileSystem

variable {fs : FileSystem} {root : String}

theorem sourceFiles_of_directory (hplace : fs.resolve root = .ok place)
    (hdirectory : fs.root.at? place = some (.directory entries)) (hdash : Path.isDash root = false)
    (excluded : List String) :
    fs.sourceFiles excluded root = ((Entry.directory entries).sources
      (excluded ++ Files.defaultFolders) (fs.layersAbove place) place root).mergeSort
        Path.isBefore := by
  have hfile : ¬fs.isFile root = true := by
    intro hfile
    obtain ⟨place', bytes, hplace', hbytes⟩ := isFile_iff.mp hfile
    rw [hplace] at hplace'
    cases hplace'
    cases hdirectory.symm.trans hbytes
  rw [sourceFiles, if_neg hfile, if_neg (Bool.eq_false_iff.mp hdash), hplace]
  dsimp only
  rw [hdirectory]

/-- **The search of a directory is exact.** In a tree without ignore files, the source files of a
root directory are strictly increasing, so each is there once. They are the paths, spelled from the
root, of the files below it with the ending of C# sources such that no directory between the root
and the file is excluded by the patterns or the default folders. The path of the root must not be a
single dash: that names the standard input, and no directory is searched for it. -/
theorem sourceFiles_exact (fs : FileSystem) (excluded : List String) (root : String)
    (place : Location) (entries : List (String × Entry)) (hwf : fs.root.WellFormed)
    (hrules : fs.root.Unruled) (hplace : fs.resolve root = .ok place)
    (hdirectory : fs.root.at? place = some (.directory entries))
    (hdash : Path.isDash root = false) :
    (fs.sourceFiles excluded root).Pairwise Path.Before ∧
    ∀ path, path ∈ fs.sourceFiles excluded root ↔ ∃ names bytes stem,
      fs.root.at? (place ++ names) = some (.file bytes) ∧ path = names.foldl Path.join root ∧
      fs.resolve path = .ok (place ++ names) ∧
      names.getLast? = some (stem ++ ".cs") ∧ stem ≠ "" ∧
      ∀ folder ∈ names.dropLast,
        Files.isExcluded (excluded ++ Files.defaultFolders) folder = false := by
  have hwf' : (Entry.directory entries).WellFormed := hwf.at? hdirectory
  have hrules' : (Entry.directory entries).Unruled := hrules.at? hdirectory
  have hlayers : ∀ l ∈ fs.layersAbove place, l.IsEmpty := fun l =>
    isEmpty_of_mem_layersAbove hrules
  rw [sourceFiles_of_directory hplace hdirectory hdash]
  constructor
  · exact mergeSort_pairwise (Entry.pairwise_sources hwf' hrules' hlayers)
  · intro path
    rw [List.mem_mergeSort, Entry.mem_sources_iff hwf' hrules' hlayers]
    have hat (names : Location) :
        fs.root.at? (place ++ names) = (Entry.directory entries).at? names := by
      rw [Entry.at?_append, hdirectory, Option.bind_some]
    constructor
    · rintro ⟨names, bytes, hfile, rfl, hsource, hfolders⟩
      have hnames := hwf'.isName hfile
      obtain ⟨stem, hlast, hstem⟩ :=
        (isSource_foldl_join hnames ((Entry.ne_nil_iff_of_at? hfile).mpr rfl)).mp hsource
      rw [← hat] at hfile
      exact ⟨names, bytes, stem, hfile, rfl,
        resolve_foldl_join hplace hnames (Option.isSome_of_eq_some hfile), hlast, hstem, hfolders⟩
    · rintro ⟨names, bytes, stem, hfile, rfl, -, hlast, hstem, hfolders⟩
      rw [hat] at hfile
      exact ⟨names, bytes, hfile, rfl, (isSource_foldl_join (hwf'.isName hfile)
        ((Entry.ne_nil_iff_of_at? hfile).mpr rfl)).mpr ⟨stem, hlast, hstem⟩, hfolders⟩

/-- The folder `bin` with a source file, and with another one in the folder `obj`. -/
def builtSources : FileSystem where
  root := .directory [("bin", .directory [("A.cs", .file ByteArray.empty),
    ("obj", .directory [("B.cs", .file ByteArray.empty)])])]
  here := []

/-- A folder of build results that is the root is searched, also for a file that a pattern names,
and such a folder below the root is not. -/
theorem sourceFiles_exact_built :
    builtSources.root.WellFormed ∧ builtSources.root.Unruled ∧
      "./bin/A.cs" ∈ builtSources.sourceFiles ["A.cs"] "./bin" ∧
      "./bin/obj/B.cs" ∉ builtSources.sourceFiles ["A.cs"] "./bin" := by
  have hwf : builtSources.root.WellFormed := by
    simp only [builtSources, Entry.WellFormed, Entry.every_directory_iff, Entry.every_file_iff,
      List.forall_mem_cons, List.not_mem_nil, false_imp_iff, forall_const]
    decide
  have hrules : builtSources.root.Unruled := by
    simp only [builtSources, Entry.Unruled, Entry.every_directory_iff, Entry.every_file_iff,
      List.forall_mem_cons, List.not_mem_nil, false_imp_iff, forall_const]
    decide
  have hexact := (sourceFiles_exact builtSources ["A.cs"] "./bin" ["bin"] _ hwf hrules rfl rfl
    (by decide)).2
  refine ⟨hwf, hrules, (hexact _).mpr ?_, ?_⟩
  · exact ⟨["A.cs"], _, "A", rfl, rfl, rfl, rfl, by decide, by simp⟩
  · intro hfound
    obtain ⟨names, bytes, stem, -, -, hplace, -, -, hfolders⟩ := (hexact _).mp hfound
    have hnames : ["bin"] ++ ["obj", "B.cs"] = ["bin"] ++ names := Except.ok.inj hplace
    obtain rfl := List.append_cancel_left hnames
    exact absurd (hfolders "obj" (by decide)) (by decide)

end FileSystem

end ViewLint
